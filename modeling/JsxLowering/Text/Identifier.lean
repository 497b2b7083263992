import JsxLowering.Text.IdentifierRanges
import JsxLowering.Text.Ranges

/-!
# Identifier names

A name is one identifier character followed by identifier-continuing characters. Reserved words are
names like any other.
-/

namespace JsxLowering.Text

/-- Whether `c` may begin an identifier. -/
def isNameStart (c : Char) : Bool :=
  if c.toNat < 128 then c.isAlpha || c = '$' || c = '_' else inRanges startRanges c

/-- Whether `c` may follow in an identifier; the two zero-width joiners may. -/
def isNamePart (c : Char) : Bool :=
  if c.toNat < 128 then c.isAlphanum || c = '$' || c = '_'
  else c = '\u200C' || c = '\u200D' || inRanges startRanges c || inRanges continueRanges c

/-- Whether the characters spell an identifier name. -/
def isNameChars : List Char → Bool
  | [] => false
  | c :: cs => isNameStart c && cs.all isNamePart

/-- Whether the text is an identifier name. -/
def isIdentifierName (name : String) : Bool := isNameChars name.toList

end JsxLowering.Text
