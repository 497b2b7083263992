/-!
# Scopes

The scopes that enclose a place in a program, innermost first. Each is the list of names it binds.
-/

namespace JsxLowering

/-- The names that one scope binds. -/
abbrev Scope := List String

/-- The enclosing scopes, innermost first. -/
abbrev Scopes := List Scope

/-- Whether some enclosing scope binds the name. -/
def Scopes.binds (scopes : Scopes) (name : String) : Bool :=
  scopes.any fun scope => scope.contains name

theorem Scopes.binds_append (inner outer : Scopes) (name : String) :
    (inner ++ outer).binds name = (inner.binds name || outer.binds name) := List.any_append

theorem Scopes.binds_iff {scopes : Scopes} {name : String} :
    scopes.binds name ↔ ∃ scope ∈ scopes, name ∈ scope := by
  simp [Scopes.binds, List.contains_eq_mem]

/-- The names of a scope in the order of their code points, each once. -/
def Scope.sorted (scope : Scope) : List String :=
  scope.eraseDups.mergeSort fun a b => decide (a ≤ b)

end JsxLowering
