/-!
# Printed string literals

A string is printed between double quotes. Characters that could not be read back or seen are
escaped, and a closing script tag is broken up.
-/

namespace JsxLowering.Code

/-- Whether a text starts with `/script`, in letters of either case. -/
def startsScript (cs : List Char) : Bool :=
  (cs.take 7).map Char.toLower = ['/', 's', 'c', 'r', 'i', 'p', 't']

/-- How a character is printed before the rest of a string. -/
def printedChar (c : Char) (rest : List Char) : List Char :=
  if c = '"' then ['\\', '"']
  else if c = '\\' then ['\\', '\\']
  else if c = '\n' then ['\\', 'n']
  else if c = '\r' then ['\\', 'r']
  else if c = '\x08' then ['\\', 'b']
  else if c = '\x0B' then ['\\', 'v']
  else if c = '\x0C' then ['\\', 'f']
  else if c = '\x07' then ['\\', 'x', '0', '7']
  else if c = '\x1B' then ['\\', 'x', '1', 'B']
  else if c = '\x00' then
    if (rest.head?.map Char.isDigit).getD false then ['\\', 'x', '0', '0'] else ['\\', '0']
  else if c = '\u2028' then ['\\', 'u', '2', '0', '2', '8']
  else if c = '\u2029' then ['\\', 'u', '2', '0', '2', '9']
  else if c = '\xA0' then ['\\', 'x', 'A', '0']
  else if c = '<' && startsScript rest then ['<', '\\']
  else [c]

/-- A text in which every closing script tag is broken up. -/
def withoutScript : List Char → List Char
  | [] => []
  | c :: cs =>
    if c = '<' && startsScript cs then '<' :: '\\' :: withoutScript cs else c :: withoutScript cs

/-- The characters of a string as they are printed. -/
def printedChars : List Char → List Char
  | [] => []
  | c :: cs => printedChar c cs ++ printedChars cs

/-- A string literal. -/
def quoted (text : String) : String :=
  String.ofList ('"' :: printedChars text.toList ++ ['"'])

/-- The quote to print around the spelling of a directive: double, unless a double quote comes
first in it. -/
def directiveQuote : List Char → String
  | [] => "\""
  | '"' :: _ => "'"
  | '\'' :: _ => "\""
  | '\\' :: _ :: cs => directiveQuote cs
  | _ :: cs => directiveQuote cs

end JsxLowering.Code
