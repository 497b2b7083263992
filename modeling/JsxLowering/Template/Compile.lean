import JsxLowering.Diagnostic
import JsxLowering.Source.Parser
import JsxLowering.Template.Source

/-!
# Compiled templates

The generated source of a template is read back. What is read first must be a function; what comes
after it in the source is not looked at.
-/

namespace JsxLowering.Template

/-- The expression that a generated source starts with. Generated sources hold no markup. -/
def read? (source : String) : Option Tree := do
  let tree ← Source.expression? source
  if tree.isPlain then some tree else none

/-- A function expression without its name. -/
def unnamed? : Tree → Option Tree
  | .node (.function (.expression parenthesized) async generator) [_, inputs, body] =>
    some (.node (.function (.expression parenthesized) async generator) [.absent, inputs, body])
  | _ => none

/-- The function for a fragment of markup. -/
def compile (fragment : String) : Except Fault Tree :=
  let source := generated fragment
  match read? source with
  | none => .error (.unreadableTemplate source)
  | some tree =>
    match unnamed? tree with
    | none => .error (.notAFunction source)
    | some function => .ok function

/-- A fragment compiles if the source generated for it starts with a function expression. -/
theorem compile_eq_ok {fragment : String} {function : Tree} :
    compile fragment = .ok function
      ↔ ∃ tree, read? (generated fragment) = some tree ∧ unnamed? tree = some function := by
  simp only [compile]
  cases read? (generated fragment) with
  | none => simp
  | some tree => cases h : unnamed? tree <;> simp [h]

/-- All faults of templates are reported under one code. -/
theorem code_of_compile {fragment : String} {fault : Fault}
    (h : compile fragment = .error fault) : fault.code = "JSX-ERR-TEMPLATE-001" := by
  simp only [compile] at h
  cases hr : read? (generated fragment) with
  | none =>
    rw [hr] at h
    cases h
    rfl
  | some tree =>
    rw [hr] at h
    simp only at h
    cases hu : unnamed? tree with
    | none =>
      rw [hu] at h
      cases h
      rfl
    | some function =>
      rw [hu] at h
      cases h

end JsxLowering.Template
