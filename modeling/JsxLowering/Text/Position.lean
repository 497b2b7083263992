/-!
# Positions in a source text

A position is a line and a column, both counted from one. Offsets count UTF-8 bytes, columns count
characters.
-/

namespace JsxLowering.Text

/-- A line and a column, counted from one. -/
structure Position where
  line : Nat
  column : Nat
deriving DecidableEq, Repr

/-- Number of bytes the characters take in UTF-8. -/
def byteSize : List Char → Nat
  | [] => 0
  | c :: cs => c.utf8Size + byteSize cs

/-- Walks `offset` bytes on from `here`. An offset past the end stops at the end; one inside a
character gives column one of its line. -/
def advance (here : Position) (offset : Nat) : List Char → Position
  | [] => here
  | c :: cs =>
    if offset = 0 then here
    else if offset < c.utf8Size then ⟨here.line, 1⟩
    else if c = '\n' then advance ⟨here.line + 1, 1⟩ (offset - c.utf8Size) cs
    else advance ⟨here.line, here.column + 1⟩ (offset - c.utf8Size) cs

/-- Position of a byte offset in a source text. -/
def locate (source : String) (offset : Nat) : Position := advance ⟨1, 1⟩ offset source.toList

end JsxLowering.Text
