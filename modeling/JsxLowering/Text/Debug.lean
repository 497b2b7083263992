import JsxLowering.Text.HiddenRanges
import JsxLowering.Text.Ranges

/-!
# Text in error messages

A text quoted in an error message shows its quotes, backslashes and characters without a mark of
their own as escapes.
-/

namespace JsxLowering.Text

/-- Whether `c` is shown as it is. -/
def isPrintable (c : Char) : Bool :=
  if c.toNat < 0x7F then ' ' ≤ c else !inRanges hiddenRanges c

/-- How a character is shown between double quotes. -/
def debugChar (c : Char) : List Char :=
  if c = '"' then ['\\', '"']
  else if c = '\\' then ['\\', '\\']
  else if c = '\n' then ['\\', 'n']
  else if c = '\r' then ['\\', 'r']
  else if c = '\t' then ['\\', 't']
  else if c = '\x00' then ['\\', '0']
  else if isPrintable c then [c]
  else ['\\', 'u', '\x7b'] ++ Nat.toDigits 16 c.toNat ++ ['\x7d']

/-- A text between double quotes. -/
def debugQuoted (text : String) : String :=
  String.ofList ('"' :: text.toList.flatMap debugChar ++ ['"'])

end JsxLowering.Text
