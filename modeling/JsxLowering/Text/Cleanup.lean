/-!
# Cleanup of markup text

Raw text between tags is trimmed where its lines meet a line break, blank lines are dropped and the
remaining lines are joined by single spaces.
-/

namespace JsxLowering.Text

/-- The lines of a text. CRLF, LF and CR each end a line, CRLF once. -/
def lines : List Char → List (List Char)
  | [] => [[]]
  | '\r' :: '\n' :: cs => [] :: lines cs
  | c :: cs =>
    if c = '\n' || c = '\r' then [] :: lines cs
    else match lines cs with
      | [] => [[c]]
      | line :: rest => (c :: line) :: rest

/-- Whether a line holds anything but spaces and tabs. -/
def hasContent (line : List Char) : Bool := line.any fun c => c ≠ ' ' && c ≠ '\t'

/-- Tabs written as spaces. -/
def untab (line : List Char) : List Char := line.map fun c => if c = '\t' then ' ' else c

/-- The line without its leading spaces. -/
def trimLeft (line : List Char) : List Char := line.dropWhile (· = ' ')

/-- The line without its trailing spaces. -/
def trimRight (line : List Char) : List Char := (line.reverse.dropWhile (· = ' ')).reverse

/-- A line as it is kept: trimmed at each end that meets a line break. -/
def trimLine (first last : Bool) (line : List Char) : List Char :=
  let line := untab line
  let line := if first then line else trimLeft line
  if last then line else trimRight line

/-- The kept lines, each followed by a space unless it is the last one with content. -/
def joinLines (first : Bool) : List (List Char) → List Char
  | [] => []
  | line :: rest =>
    let kept := trimLine first rest.isEmpty line
    let lastContent := hasContent line && !rest.any hasContent
    let piece := if kept.isEmpty || lastContent then kept else kept ++ [' ']
    piece ++ joinLines false rest

/-- Cleaned text of a markup child. -/
def cleanChars (raw : List Char) : List Char := joinLines true (lines raw)

/-- Cleaned text of a markup child, or nothing when no text remains. -/
def clean (raw : String) : Option String :=
  match cleanChars raw.toList with
  | [] => none
  | cs => some (String.ofList cs)

end JsxLowering.Text
