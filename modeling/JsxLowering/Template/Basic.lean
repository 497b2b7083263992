/-!
# Templates

A template is text with holes `<%=code%>`. The code of a hole is not empty and ends at the first
`%>` after its first character; an opening mark that no such closing mark follows is text.
-/

namespace JsxLowering

/-- Text, then holes with the code in each and the text after it. -/
structure Template where
  head : List Char
  holes : List (List Char × List Char)
deriving DecidableEq, Repr

namespace Template

/-- What stands before the first `%>`, if there is one. -/
def beforeClose? : List Char → Option (List Char)
  | [] => none
  | c :: cs =>
    if c = '%' && cs.head? = some '>' then some []
    else (beforeClose? cs).map (c :: ·)

/-- The code of the hole that a text starts with, if it starts with one. -/
def hole? : List Char → Option (List Char)
  | '<' :: '%' :: '=' :: c :: cs => (beforeClose? cs).map (c :: ·)
  | _ => none

/-- The template that remains after some characters of a text are passed over. -/
def splitFrom : Nat → List Char → Template
  | _, [] => ⟨[], []⟩
  | passed + 1, _ :: cs => splitFrom passed cs
  | 0, c :: cs =>
    match hole? (c :: cs) with
    | some code =>
      -- the marks of a hole are five characters, and the first of them is passed here
      let rest := splitFrom (code.length + 4) cs
      ⟨[], (code, rest.head) :: rest.holes⟩
    | none =>
      let rest := splitFrom 0 cs
      ⟨c :: rest.head, rest.holes⟩

/-- The template that a text spells. -/
def ofText (text : List Char) : Template := splitFrom 0 text

theorem splitFrom_append (passed rest : List Char) :
    splitFrom passed.length (passed ++ rest) = splitFrom 0 rest := by
  induction passed with
  | nil => rfl
  | cons c cs ih => exact ih

end Template

end JsxLowering
