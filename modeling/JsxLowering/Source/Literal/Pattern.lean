import JsxLowering.Source.Literal.Quoted
import JsxLowering.Text.Identifier

/-!
# Regular expression and template literals

Both are kept as they are written, but for the order of flags; only their ends are found.
-/

namespace JsxLowering.Source

/-- A place in a regular expression. -/
inductive PatternPart
  | outside
  | inClass
  /-- After a backslash, inside a class or not. -/
  | escaped (inClass : Bool)
deriving DecidableEq, Repr

/-- The text of a regular expression up to its closing slash, and the text after it. -/
def patternFrom (part : PatternPart) : List Char → Option (List Char × List Char)
  | [] => none
  | c :: cs =>
    let go (part : PatternPart) := (patternFrom part cs).map fun (text, rest) => (c :: text, rest)
    if c = '\n' || c = '\r' || c = '\u2028' || c = '\u2029' then none
    else match part with
      | .escaped inClass => go (if inClass then .inClass else .outside)
      | .inClass =>
        if c = '\\' then go (.escaped true) else if c = ']' then go .outside else go .inClass
      | .outside =>
        if c = '/' then some ([], cs)
        else if c = '\\' then go (.escaped false)
        else if c = '[' then go .inClass
        else go .outside

/-- The flags of regular expressions, in the order they are printed. -/
def knownFlags : List Char := ['d', 'g', 'i', 'm', 's', 'u', 'v', 'y']

/-- Whether flags are known and no flag is given twice. -/
def validFlags : List Char → Bool
  | [] => true
  | c :: cs => knownFlags.contains c && !cs.contains c && validFlags cs

/-- The regular expression that a text starts with. An empty one would be a comment. -/
def patternOf : List Char → Option (String × List Char)
  | '/' :: cs => do
    let (text, rest) ← patternFrom .outside cs
    let (flags, rest) := rest.span Text.isNamePart
    if text.isEmpty || text.head? = some '*' || !validFlags flags then none
    else some (String.ofList ('/' :: text ++ '/' :: knownFlags.filter flags.contains), rest)
  | _ => none

/-- How a piece of a template literal ends. -/
inductive PieceEnd
  /-- The literal ends. -/
  | literal
  /-- An expression follows. -/
  | expression
deriving DecidableEq, Repr

/-- The text of a piece of a template literal, how it ends and the text after it. A line end is
kept as a line feed; `escaped` says that a backslash stands before. -/
def pieceFrom (escaped : Bool) : List Char → Option (List Char × PieceEnd × List Char)
  | [] => none
  | c :: cs =>
    let go (out : List Char) (escaped : Bool) :=
      (pieceFrom escaped cs).map fun (text, ending, rest) => (out ++ text, ending, rest)
    if c = '\r' then if cs.head? = some '\n' then go [] escaped else go ['\n'] false
    else if escaped then go [c] false
    else if c = '\x60' then some ([], .literal, cs)
    else match c, cs with
      | '$', '\x7b' :: rest => some ([], .expression, rest)
      | _, _ => go [c] (c = '\\')

/-- Whether every escape of a piece stands for a character. A digit may be escaped only as a `\0`
that no other digit follows. -/
def escapesAreValid (state : EscapeState) : List Char → Bool
  | [] => state.part = .outside
  | c :: cs =>
    if state.part = .outside && c ≠ '\\' then escapesAreValid {} cs
    else if state.part = .started && c.isDigit then
      c = '0' && !(cs.head?.map Char.isDigit).getD false && escapesAreValid {} cs
    else match quotedStep '\x60' state c cs with
      | .next _ state => escapesAreValid state cs
      | .close => false
      | .fail => false

end JsxLowering.Source
