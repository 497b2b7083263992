import JsxLowering.Markup.Boundary
import JsxLowering.Markup.Contribution
import JsxLowering.Template.Compile

/-!
# Sessions

A session follows the markup that is opened and closed while a unit is lowered. Only outermost
markup is compiled; markup inside it becomes text.
-/

namespace JsxLowering

/-- The state of the lowering of a unit. -/
structure Session where
  boundary : Boundary := {}
  /-- Number of templates compiled. -/
  compiled : Nat := 0
deriving DecidableEq, Repr

namespace Session

/-- Opens markup. -/
def enter (s : Session) (start : Nat) : Session := { s with boundary := s.boundary.enter start }

/-- Closes markup whose text is known: interior markup stays text, other markup is compiled and
ends the boundary. -/
def exit (s : Session) (text : String) (start : Nat) : Except Failure Tree × Session :=
  if s.boundary.isInterior start then (.ok (.string text), s)
  else match Template.compile text with
    | .ok function => (.ok function, { boundary := {}, compiled := s.compiled + 1 })
    | .error fault => (.error ⟨fault, start⟩, { s with boundary := {} })

/-- Closes an element. -/
def exitElement (s : Session) (tag properties : String) (children : List Contribution)
    (start : Nat) : Except Failure Tree × Session :=
  s.exit (compose tag properties (childrenText children)) start

/-- Closes a fragment. -/
def exitFragment (s : Session) (children : List Contribution) (start : Nat) :
    Except Failure Tree × Session :=
  s.exit (childrenText children) start

end Session

end JsxLowering
