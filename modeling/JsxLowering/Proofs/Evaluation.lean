import JsxLowering.Proofs.Pieces

/-!
# What a template function returns

The meaning of the functions that templates compile to. They use few forms of the language, and an
expression of any other form has no value here. The values of member paths are given from outside;
all else is computed.
-/

namespace JsxLowering

/-- A value of the language, as far as template functions can tell values apart. -/
inductive Value
  /-- `null` or undefined. -/
  | nullish
  | boolean (value : Bool)
  | string (text : String)
  /-- Any other value that can be joined to a string, by the text it is joined as. -/
  | other (text : String)
deriving DecidableEq, Repr

namespace Value

/-- The text that a value is joined to a string as. -/
def text? : Value → Option String
  | .nullish => none
  | .boolean value => some (if value then "true" else "false")
  | .string text => some text
  | .other text => some text

/-- Whether a value loosely equals `null`. -/
def isNullish : Value → Bool
  | .nullish => true
  | _ => false

/-- `a + b`, where one of them is a string. -/
def join? : Value → Value → Option Value
  | .string text, value => value.text?.map fun more => .string (text ++ more)
  | value, .string text => value.text?.map fun more => .string (more ++ text)
  | _, _ => none

/-- `a == b`, where `b` is `null`. -/
def equals? : Value → Value → Option Value
  | value, .nullish => some (.boolean value.isNullish)
  | _, _ => none

end Value

/-- The values of member paths, by their dotted text. -/
abbrev Paths := String → Value

/-- The variables of a function that are declared. -/
abbrev Locals := String → Option Value

namespace Locals

/-- The variables after one of them is set. -/
def set (locals : Locals) (name : String) (value : Value) : Locals := fun other =>
  if other = name then some value else locals other

/-- Whether a path starts at a variable. -/
def holdsRoot (locals : Locals) (p : MemberName) : Bool := (locals p.root.text).isSome

end Locals

/-- The value of `a op b`. -/
def Value.operate? (op : String) (a b : Value) : Option Value :=
  match op with
  | "+" => a.join? b
  | "==" => a.equals? b
  | _ => none

/-- The value of an expression, and the variables after it is evaluated. -/
def Tree.eval (paths : Paths) : Tree → Locals → Option (Value × Locals)
  | .leaf (.string text), locals => some (.string text, locals)
  | .leaf .null, locals => some (.nullish, locals)
  | .leaf (.identifier name), locals => (locals name).map (·, locals)
  | .node .paren [inner], locals => inner.eval paths locals
  | .node (.member name optional) [object], locals => do
    -- a path that starts at a variable of the function is not given from outside
    let path ← (Tree.node (.member name optional) [object]).memberName?
    if locals.holdsRoot path then none else some (paths path.dotted, locals)
  | .node (.binary op) [left, right], locals => do
    let (a, locals) ← left.eval paths locals
    let (b, locals) ← right.eval paths locals
    let value ← a.operate? op b
    some (value, locals)
  | .node .conditional [test, first, second], locals => do
    match ← test.eval paths locals with
    | (.boolean true, locals) => first.eval paths locals
    | (.boolean false, locals) => second.eval paths locals
    | _ => none
  | .node (.assign op) [.identifier name, right], locals => do
    -- the variable is read before the right side is evaluated
    let before ← locals name
    let (value, locals) ← right.eval paths locals
    let value ← match op with
      | "=" => some value
      | "+=" => before.join? value
      | _ => none
    some (value, locals.set name value)
  | _, _ => none

/-- The variables after a declarator. -/
def Tree.declare (paths : Paths) (locals : Locals) : Tree → Option Locals
  | .node .declarator [.identifier name, .absent] =>
    some (locals.set name ((locals name).getD .nullish))
  | .node .declarator [.identifier name, value] => do
    let (value, locals) ← value.eval paths locals
    some (locals.set name value)
  | _ => none

/-- What statements return. -/
def Tree.returned (paths : Paths) : List Tree → Locals → Option Value
  | [], _ => some .nullish
  | .node .returns [value] :: _, locals => do
    let (value, _) ← value.eval paths locals
    some value
  | .node .expression [value] :: rest, locals => do
    let (_, locals) ← value.eval paths locals
    Tree.returned paths rest locals
  | .node (.variableList .var) declarators :: rest, locals => do
    let locals ← declarators.foldlM (Tree.declare paths) locals
    Tree.returned paths rest locals
  | _ :: _, _ => none

/-- What a call of a function expression with one parameter returns, given the values of the member
paths in the place of the call. -/
def Tree.call (paths : Paths) : Tree → Option Value
  | .node (.function (.expression _) false false)
      [.absent, .node .parameters [.identifier _], .node .body statements] =>
    Tree.returned paths statements fun _ => none
  | _ => none

/-! ## Paths and holes -/

/-- The text of a value in a template: nothing for `null` and undefined. -/
def Value.shown (value : Value) : String := value.text?.getD ""

/-- The value of a hole. -/
def Value.inHole (value : Value) : Value := if value.isNullish then .string "" else value

/-- A string joined with a hole gets the text that the value is shown as, and nothing for `null`. -/
theorem Value.join?_inHole (text : String) (value : Value) :
    (Value.string text).join? value.inHole = some (.string (text ++ value.shown)) := by
  cases value <;> rfl

/-- The name that a legal reference spells is the one it was made from. -/
theorem MemberName.memberName?_reference {p : MemberName} (h : p.isLegal) :
    p.reference.memberName? = some p := by
  -- from the root outwards, so that the object of an access has been read before it
  induction p with
  | base root property =>
    rw [isLegal, Bool.and_eq_true] at h
    rw [reference, Tree.access_of_isIdentifierName h.2]
    cases root with
    | this => rfl
    | name word =>
      rw [MemberRoot.reference_name h.1]
      rfl
  | step object property ih =>
    rw [isLegal, Bool.and_eq_true] at h
    rw [reference, Tree.access_of_isIdentifierName h.2]
    have inner := ih h.1
    obtain ⟨start, name, member⟩ := object.exists_member h.1
    rw [member] at inner ⊢
    rw [Tree.memberName?, inner]
    rfl

/-- The variables inside the function of a template: the one for values is declared, and no path is
at a variable. -/
structure Locals.IsInside (locals : Locals) : Prop where
  value : (locals "__t").isSome
  others : ∀ name, name ≠ "__t" → name ≠ "__p" → locals name = none

/-- Setting the variable for values leaves it declared and declares no other one. -/
theorem Locals.IsInside.set {locals : Locals} (h : locals.IsInside) (value : Value) :
    (locals.set "__t" value).IsInside where
  value := by
    rw [Locals.set, if_pos rfl]
    rfl
  others name ht hp := by
    rw [Locals.set, if_neg ht]
    exact h.others name ht hp

/-- Whether a path does not start at a variable of the function of a template. -/
def MemberName.isOutside (p : MemberName) : Bool :=
  p.root.text ≠ "__t" && p.root.text ≠ "__p"

section
variable {paths : Paths} {locals : Locals}

/-- A path that no variable of the function shadows has the value given from outside. -/
theorem eval_reference {p : MemberName} (hl : p.isLegal) (ho : p.isOutside)
    (hi : locals.IsInside) : p.reference.eval paths locals = some (paths p.dotted, locals) := by
  simp only [MemberName.isOutside, Bool.and_eq_true, decide_eq_true_eq] at ho
  -- so the variables of the function do not shadow the root of the path
  have free : locals.holdsRoot p = false := by
    rw [Locals.holdsRoot, hi.others _ ho.1 ho.2]
    rfl
  have name := MemberName.memberName?_reference hl
  obtain ⟨object, property, member⟩ := p.exists_member hl
  rw [member] at name ⊢
  rw [Tree.eval, name]
  simp [free]

/-- A hole evaluates its path once, keeps the value in the variable for it, and reads it back from
there. -/
theorem eval_holeTree {p : MemberName} (hl : p.isLegal) (ho : p.isOutside) (hi : locals.IsInside) :
    (Template.holeTree p.reference).eval paths locals
      = some ((paths p.dotted).inHole, locals.set "__t" (paths p.dotted)) := by
  obtain ⟨before, hb⟩ := Option.isSome_iff_exists.mp hi.value
  have kept : (Tree.node .paren [.node (.assign "=")
      [Template.valueVariable, .node .paren [p.reference]]]).eval paths locals
        = some (paths p.dotted, locals.set "__t" (paths p.dotted)) := by
    simp [Template.valueVariable, Tree.eval, hb, eval_reference hl ho hi]
  have test : (Tree.node (.binary "==") [.node .paren [.node (.assign "=")
      [Template.valueVariable, .node .paren [p.reference]]], .null]).eval paths locals
        = some (.boolean (paths p.dotted).isNullish, locals.set "__t" (paths p.dotted)) := by
    rw [Tree.eval, kept]
    rfl
  have value : Template.valueVariable.eval paths (locals.set "__t" (paths p.dotted))
      = some (paths p.dotted, locals.set "__t" (paths p.dotted)) := by
    rw [Template.valueVariable, Tree.eval, Locals.set, if_pos rfl]
    rfl
  rw [Template.holeTree, Tree.eval, Tree.eval, test]
  unfold Value.inHole
  -- the second branch reads the value back from the variable
  cases (paths p.dotted).isNullish with
  | true => rfl
  | false => exact value

/-! ## Joined texts -/

/-- What holes add to a text, with the texts after them. -/
def holesText (paths : Paths) (holes : List (MemberName × List Char)) : List Char :=
  holes.flatMap fun hole => (paths hole.1.dotted).shown.toList ++ hole.2

/-- Joining a hole adds the text of its value and the text after it, and only the variable for
values changes. -/
theorem eval_joinHole {left : Tree} {before after : Locals} {text : List Char}
    {hole : MemberName × List Char} (hl : hole.1.isLegal) (ho : hole.1.isOutside)
    (hi : after.IsInside)
    (h : left.eval paths before = some (.string (String.ofList text), after)) :
    (Template.joinHole left (Template.pathSlot hole)).eval paths before
      = some (.string (String.ofList (text ++ holesText paths [hole])),
          after.set "__t" (paths hole.1.dotted)) := by
  have joined :
      (Tree.node (.binary "+") [left, Template.holeTree hole.1.reference]).eval paths before
        = some (.string (String.ofList text ++ (paths hole.1.dotted).shown),
            after.set "__t" (paths hole.1.dotted)) := by
    simp only [Tree.eval, h, eval_holeTree hl ho hi, Option.bind_eq_bind, Option.bind_some,
      Value.operate?, Value.join?_inHole]
  have texts : String.ofList (text ++ holesText paths [hole])
      = String.ofList text ++ (paths hole.1.dotted).shown ++ String.ofList hole.2 := by
    simp [holesText, String.append_assoc]
  rw [Template.joinHole, Template.pathSlot, Tree.eval, joined, texts]
  rfl

/-- Holes add their texts one after another to the text on their left. -/
theorem eval_joined {before after : Locals} {left : Tree} {text : List Char}
    {holes : List (MemberName × List Char)}
    (hh : ∀ hole ∈ holes, hole.1.isLegal ∧ hole.1.isOutside) (hi : after.IsInside)
    (h : left.eval paths before = some (.string (String.ofList text), after)) :
    ∃ last : Locals, ((holes.map Template.pathSlot).foldl Template.joinHole left).eval paths before
        = some (.string (String.ofList (text ++ holesText paths holes)), last) := by
  -- sums nest to the left, so each hole extends the expression that has been evaluated
  induction holes generalizing left text after with
  | nil =>
    rw [holesText, List.flatMap_nil, List.append_nil]
    exact ⟨after, h⟩
  | cons hole holes ih =>
    obtain ⟨legal, outside⟩ := hh hole List.mem_cons_self
    obtain ⟨last, value⟩ := ih (fun other ho => hh other (List.mem_cons_of_mem _ ho))
      (hi.set (paths hole.1.dotted)) (eval_joinHole legal outside hi h)
    refine ⟨last, ?_⟩
    rw [List.map_cons, List.foldl_cons, value]
    simp [holesText]

/-- The variables after the declaration that the function starts with. -/
def Locals.declared : Locals :=
  (Locals.set (fun _ => none) "__t" .nullish).set "__p" (.string "")

/-- The declaration at the start puts a function inside its own variables. -/
theorem Locals.isInside_declared : Locals.declared.IsInside where
  value := rfl
  others name ht hp := by
    rw [Locals.declared, Locals.set, if_neg hp, Locals.set, if_neg ht]

/-- The function of a template returns its texts joined with the values of its paths. -/
theorem call_functionTree (paths : Paths) (head : List Char)
    {holes : List (MemberName × List Char)}
    (hh : ∀ hole ∈ holes, hole.1.isLegal ∧ hole.1.isOutside) :
    (Template.functionTree .absent head (holes.map Template.pathSlot)).call paths
      = some (.string (String.ofList (head ++ holesText paths holes))) := by
  have start : (Tree.string (String.ofList head)).eval paths Locals.declared
      = some (.string (String.ofList head), Locals.declared) := rfl
  obtain ⟨last, value⟩ := eval_joined hh Locals.isInside_declared start
  have added : (Tree.node (.assign "+=") [Template.resultVariable,
      Template.joinTree head (holes.map Template.pathSlot)]).eval paths Locals.declared
        = some (.string (String.ofList (head ++ holesText paths holes)),
            last.set "__p" (.string (String.ofList (head ++ holesText paths holes)))) := by
    -- `+=` adds to the value that the variable had before the sum was evaluated
    have before : Locals.declared "__p" = some (.string "") := rfl
    rw [Template.resultVariable, Tree.eval, before]
    simp [Template.joinTree, value, Value.join?, Value.text?]
  have declared : [Tree.node .declarator [Template.valueVariable, .absent],
      .node .declarator [Template.resultVariable, .string ""]].foldlM (Tree.declare paths)
        (fun _ => none) = some Locals.declared := rfl
  have result (value : Value) : Template.resultVariable.eval paths (last.set "__p" value)
      = some (value, last.set "__p" value) := by
    rw [Template.resultVariable, Tree.eval, Locals.set, if_pos rfl]
    rfl
  simp only [Template.functionTree, Tree.call, Tree.returned, declared, added, result,
    Option.bind_eq_bind, Option.bind_some]

end

end JsxLowering
