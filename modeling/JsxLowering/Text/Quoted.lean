/-!
# Text inside a single-quoted literal

`escape` writes a text so that it can stand between single quotes on one line of source.
-/

namespace JsxLowering.Text

/-- How one character is written between single quotes. -/
def escapeChar (c : Char) : List Char :=
  if c = '\\' then ['\\', '\\']
  else if c = '\'' then ['\\', '\'']
  else if c = '\r' then ['\\', 'r']
  else if c = '\n' then ['\\', 'n']
  else if c = '\u2028' then ['\\', 'u', '2', '0', '2', '8']
  else if c = '\u2029' then ['\\', 'u', '2', '0', '2', '9']
  else [c]

/-- A text as it is written between single quotes. -/
def escapeChars (text : List Char) : List Char := text.flatMap escapeChar

/-- A text as it is written between single quotes. -/
def escape (text : String) : String := String.ofList (escapeChars text.toList)

end JsxLowering.Text
