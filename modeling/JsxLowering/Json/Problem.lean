import JsxLowering.Number.Text
import JsxLowering.Text.Debug
import JsxLowering.Text.Position

/-!
# Problems in a JSON text

What can be wrong with a JSON text, how it is said, and where it is.
-/

namespace JsxLowering.Json

/-- A value that was found where another kind was wanted. -/
inductive Found
  | null
  | boolean (value : Bool)
  | integer (value : Int)
  | float (value : Number)
  | string (value : String)
  | sequence
  | map
deriving DecidableEq, Repr

def Found.text : Found → String
  | .null => "null"
  | .boolean value => "boolean `" ++ (if value then "true" else "false") ++ "`"
  | .integer value => "integer `" ++ toString value ++ "`"
  | .float value => "floating point `" ++ value.quoted ++ "`"
  | .string value => "string " ++ Text.debugQuoted value
  | .sequence => "sequence"
  | .map => "map"

/-- What can be wrong with a JSON text. -/
inductive Problem
  | endInList
  | endInObject
  | endInString
  | endInValue
  | expectedColon
  | expectedCommaOrBracket
  | expectedCommaOrBrace
  | expectedWord
  | expectedValue
  | badEscape
  | badNumber
  | numberOutOfRange
  | controlCharacter
  | keyNotString
  | loneSurrogate
  | endOfHexEscape
  | trailingComma
  | trailingCharacters
  | duplicateField (name : String)
  | wrongType (found : Found) (wanted : String)
deriving DecidableEq, Repr

def Problem.text : Problem → String
  | .endInList => "EOF while parsing a list"
  | .endInObject => "EOF while parsing an object"
  | .endInString => "EOF while parsing a string"
  | .endInValue => "EOF while parsing a value"
  | .expectedColon => "expected `:`"
  | .expectedCommaOrBracket => "expected `,` or `]`"
  | .expectedCommaOrBrace => "expected `,` or `\x7d`"
  | .expectedWord => "expected ident"
  | .expectedValue => "expected value"
  | .badEscape => "invalid escape"
  | .badNumber => "invalid number"
  | .numberOutOfRange => "number out of range"
  | .controlCharacter => "control character (\\u0000-\\u001F) found while parsing a string"
  | .keyNotString => "key must be a string"
  | .loneSurrogate => "lone leading surrogate in hex escape"
  | .endOfHexEscape => "unexpected end of hex escape"
  | .trailingComma => "trailing comma"
  | .trailingCharacters => "trailing characters"
  | .duplicateField name => "duplicate field `" ++ name ++ "`"
  | .wrongType found wanted => "invalid type: " ++ found.text ++ ", expected " ++ wanted

/-- A problem, and how many bytes of the text are left where it was found. -/
structure Mishap where
  problem : Problem
  left : Nat
deriving DecidableEq, Repr

/-- The number of bytes after the last line feed among the first `size` bytes of a text, and the
number of line feeds before. -/
def placeFrom (line column size : Nat) : List Char → Text.Position
  | [] => ⟨line, column + size⟩
  | c :: cs =>
    if size < c.utf8Size then ⟨line, column + size⟩
    else if c = '\n' then placeFrom (line + 1) 0 (size - 1) cs
    else placeFrom line (column + c.utf8Size) (size - c.utf8Size) cs

/-- Where a mishap in a text is: the line from one, and the bytes of the line up to there. -/
def Mishap.place (mishap : Mishap) (text : List Char) : Text.Position :=
  placeFrom 1 0 (Text.byteSize text - mishap.left) text

/-- The problem and its place in one line. -/
def Mishap.message (mishap : Mishap) (text : List Char) : String :=
  let place := mishap.place text
  mishap.problem.text ++ " at line " ++ toString place.line ++ " column " ++ toString place.column

end JsxLowering.Json
