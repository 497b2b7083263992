/-!
# Boundaries

The start of the outermost markup that is open. Markup that starts after it lies inside it and is
not compiled on its own.
-/

namespace JsxLowering

/-- The least start among the markup that is open, if any is. -/
structure Boundary where
  low : Option Nat := none
deriving DecidableEq, Repr

namespace Boundary

/-- Opens markup at `start`. -/
def enter (b : Boundary) (start : Nat) : Boundary :=
  match b.low with
  | some low => ⟨some (min low start)⟩
  | none => ⟨some start⟩

/-- Whether markup at `start` lies inside the boundary. -/
def isInterior (b : Boundary) (start : Nat) : Bool :=
  match b.low with
  | some low => low < start
  | none => false

end Boundary

end JsxLowering
