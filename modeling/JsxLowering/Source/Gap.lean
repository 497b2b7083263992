/-!
# Gaps between lexemes

Blanks, line ends and comments separate lexemes. A line end in a gap can end a statement, so a gap
tells whether it holds one.
-/

namespace JsxLowering.Source

/-- Whether `c` ends a line. -/
def isLineEnd (c : Char) : Bool := c = '\n' || c = '\r' || c = '\u2028' || c = '\u2029'

/-- Whether `c` is a blank inside a line. -/
def isSpace (c : Char) : Bool :=
  let n := c.toNat
  n = 0x20 || n = 9 || n = 0xB || n = 0xC || n = 0x85 || n = 0xA0 || n = 0x1680
    || (0x2000 ≤ n && n ≤ 0x200B) || n = 0x202F || n = 0x205F || n = 0x3000 || n = 0xFEFF

/-- What a gap consists of at a place. -/
inductive GapPart
  | blank
  | lineComment
  /-- A comment up to `*/`, with the text it was opened in. -/
  | blockComment (opened : List Char)
  /-- Before the star that opens a comment. -/
  | opening (opened : List Char)
  /-- Before the slash that closes a comment. -/
  | closing

/-- Skips a gap. Gives whether a line ended in it and the text after it. A comment that is never
closed is no gap, and is left standing. -/
def gapFrom (part : GapPart) (ended : Bool) : List Char → Bool × List Char
  | [] =>
    match part with
    | .blockComment opened => (ended, opened)
    | _ => (ended, [])
  | c :: cs =>
    match part with
    | .blank =>
      if isSpace c then gapFrom .blank ended cs
      else if isLineEnd c then gapFrom .blank true cs
      else if c = '/' && cs.head? = some '/' then gapFrom .lineComment ended cs
      else if c = '/' && cs.head? = some '*' then gapFrom (.opening (c :: cs)) ended cs
      else (ended, c :: cs)
    | .lineComment => if isLineEnd c then gapFrom .blank true cs else gapFrom .lineComment ended cs
    | .opening opened => gapFrom (.blockComment opened) ended cs
    | .blockComment opened =>
      if c = '*' && cs.head? = some '/' then gapFrom .closing ended cs
      else gapFrom (.blockComment opened) (ended || isLineEnd c) cs
    | .closing => gapFrom .blank ended cs

/-- The text after the gap it starts with. -/
def skip (cs : List Char) : List Char := (gapFrom .blank false cs).2

/-- Whether a line ends in the gap that the text starts with. -/
def breaks (cs : List Char) : Bool := (gapFrom .blank false cs).1

end JsxLowering.Source
