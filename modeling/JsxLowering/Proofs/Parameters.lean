import JsxLowering.Proofs.ScopeNames

/-!
# Parameters in the scope of a function

The scope of a function or an arrow function binds what its parameters bind, what its body declares
and its own name. `Tree.ParameterBinds` says which names a parameter binds, at any depth of its
pattern. A rest parameter is left out of the scope, so an element that is named after it is refused.
-/

namespace JsxLowering

/-! ## What parameters bind -/

/-- A parameter binds a name. Words and decorators before its pattern bind nothing. -/
inductive Tree.ParameterBinds (name : String) : Tree → Prop
  | pattern {tree : Tree} (h : tree.PatternBinds name) : ParameterBinds name tree
  | modified {words : List String} {parameter : Tree} (h : ParameterBinds name parameter) :
    ParameterBinds name (.node (.modified words) [parameter])
  | decorated {decorators : List Tree} {parameter : Tree} (h : ParameterBinds name parameter) :
    ParameterBinds name (.node .decorated (decorators ++ [parameter]))

/-- The word `this` in place of a pattern, for its annotation. -/
inductive Tree.IsReceiver : Tree → Prop
  | plain : IsReceiver .this
  | typed {mark : String} {receiver type : Tree} (h : IsReceiver receiver) :
    IsReceiver (.node (.typed mark) [receiver, type])
  | withDefault {receiver value : Tree} (h : IsReceiver receiver) :
    IsReceiver (.node .defaultPattern [receiver, value])
  | rest {receiver : Tree} (h : IsReceiver receiver) : IsReceiver (.node .rest [receiver])

/-- A parameter: a pattern with its default and its annotation, perhaps after words and
decorators. -/
inductive Tree.IsParameter : Tree → Prop
  | pattern {tree : Tree} (h : tree.IsPattern) : IsParameter tree
  | receiver {tree : Tree} (h : tree.IsReceiver) : IsParameter tree
  | modified {words : List String} {parameter : Tree} (h : IsParameter parameter) :
    IsParameter (.node (.modified words) [parameter])
  | decorated {values : List Tree} {parameter : Tree} (h : IsParameter parameter) :
    IsParameter (.node .decorated (values.map (fun value => .node .decorator [value])
      ++ [parameter]))

section
variable {name : String} {tree : Tree}

/-- The collected names of a parameter have all that it binds. -/
theorem Tree.ParameterBinds.mem_patternNames (h : tree.ParameterBinds name) :
    name ∈ tree.patternNames := by
  induction h with
  | pattern h => exact h.mem_patternNames
  | modified _ ih => exact ih
  | decorated _ ih =>
    exact Tree.mem_patternNamesAll (List.mem_append_right _ (List.mem_singleton.mpr rfl)) ih

/-- The word `this` is no name. -/
theorem Tree.IsReceiver.patternNames_eq (h : tree.IsReceiver) : tree.patternNames = [] := by
  induction h with
  | plain => rfl
  | typed _ ih => exact ih
  | withDefault _ ih => exact ih
  | rest _ ih => exact ih

/-- A parameter binds all names that are collected from it. -/
theorem Tree.IsParameter.binds_of_mem (h : tree.IsParameter) (hn : name ∈ tree.patternNames) :
    tree.ParameterBinds name := by
  induction h with
  | pattern h => exact .pattern (h.binds_of_mem hn)
  | receiver h =>
    rw [h.patternNames_eq] at hn
    cases hn
  | modified _ ih => exact .modified (ih hn)
  | @decorated values parameter _ ih =>
    rw [Tree.patternNames, Tree.patternNamesAll_eq, List.flatMap_append, List.flatMap_singleton,
      List.mem_append] at hn
    -- a decorator binds nothing, so the name comes from the parameter after it
    rcases hn with before | own
    · obtain ⟨decorator, hd, hn⟩ := List.mem_flatMap.mp before
      obtain ⟨value, -, rfl⟩ := List.mem_map.mp hd
      cases hn
    · exact .decorated (ih own)

end

/-! ## Functions -/

/-- The parameters in a list, which may be annotated. -/
def Tree.parameterItems : Tree → List Tree
  | .node .parameters items => items
  | .node .signature [_, .node .parameters items, _] => items
  | _ => []

/-- All parameters of a function or an arrow function. -/
def Node.parameters : Node → List Tree
  | ⟨.function .., [_, inputs, _]⟩ => inputs.parameterItems
  | ⟨.arrow .., [inputs, _]⟩ => inputs.parameterItems
  | _ => []

/-- A function has a name of its own. -/
inductive Node.IsNamed (name : String) : Node → Prop
  | function {kind : FunctionKind} {async generator : Bool} {own inputs content : Tree}
      (h : own.IsNamed name) :
    IsNamed name ⟨.function kind async generator, [own, inputs, content]⟩

/-- A function or an arrow function with its parts. Each part of its parameter list is a
parameter. -/
inductive Node.IsFunction : Node → Prop
  | function {kind : FunctionKind} {async generator : Bool} {own inputs content : Tree}
      (ho : own.IsOptionalName) (h : ∀ parameter ∈ inputs.parameterItems, parameter.IsParameter) :
    IsFunction ⟨.function kind async generator, [own, inputs, content]⟩
  | arrow {async parenthesized : Bool} {inputs content : Tree}
      (h : ∀ parameter ∈ inputs.parameterItems, parameter.IsParameter) :
    IsFunction ⟨.arrow async parenthesized, [inputs, content]⟩

/-- A parameter of a function, other than a rest parameter, binds a name. -/
def Node.BindsPositionally (node : Node) (name : String) : Prop :=
  ∃ parameter ∈ node.parameters, parameter.isRest = false ∧ parameter.ParameterBinds name

section
variable {name : String} {node : Node}

/-- The parameters of a list are collected without its rest parameter, annotated or not. -/
theorem Tree.mem_parameterNames {inputs : Tree} :
    name ∈ inputs.parameterNames
      ↔ ∃ parameter ∈ inputs.parameterItems, parameter.isRest = false
          ∧ name ∈ parameter.patternNames := by
  have positional (items : List Tree) :
      name ∈ (items.filter (!·.isRest)).flatMap Tree.patternNames
        ↔ ∃ parameter ∈ items, parameter.isRest = false ∧ name ∈ parameter.patternNames := by
    simp [and_assoc]
  unfold Tree.parameterNames Tree.parameterItems
  split
  · exact positional _
  · exact positional _
  · simp

/-- The body of a function counts with what its statement list declares. -/
theorem scopeOf_statements_function (kind : FunctionKind) (async generator : Bool)
    (own inputs content : Tree) :
    Tree.scopeOf (Node.statements ⟨.function kind async generator, [own, inputs, content]⟩)
      = content.bodyNames := by
  cases content with
  | leaf => rfl
  | markup => rfl
  | node form statements => cases form <;> rfl

/-- The body of an arrow function counts with its statement list, and an expression with nothing. -/
theorem scopeOf_statements_arrow (async parenthesized : Bool) (inputs content : Tree) :
    Tree.scopeOf (Node.statements ⟨.arrow async parenthesized, [inputs, content]⟩)
      = content.bodyNames := by
  cases content with
  | leaf => rfl
  | markup => rfl
  | node form statements => cases form <;> rfl

/-- The name of a function, if it has one, is the only one collected for it. -/
theorem Tree.IsOptionalName.mem_declaredName_iff {own : Tree} (h : own.IsOptionalName) :
    name ∈ own.declaredName ↔ own.IsNamed name := by
  constructor
  · exact h.isNamed_of_mem
  · intro named
    rw [named.declaredName_eq]
    exact List.mem_singleton.mpr rfl

/-- The parameters of a list bind the names that count for a scope, if none is a rest parameter. -/
theorem mem_parameterNames_iff {inputs : Tree}
    (h : ∀ parameter ∈ inputs.parameterItems, parameter.IsParameter) :
    name ∈ inputs.parameterNames
      ↔ ∃ parameter ∈ inputs.parameterItems, parameter.isRest = false
          ∧ parameter.ParameterBinds name := by
  rw [Tree.mem_parameterNames]
  constructor
  · rintro ⟨parameter, hm, positional, hn⟩
    exact ⟨parameter, hm, positional, (h parameter hm).binds_of_mem hn⟩
  · rintro ⟨parameter, hm, positional, binds⟩
    exact ⟨parameter, hm, positional, binds.mem_patternNames⟩

/-- The scope of a function binds what its positional parameters bind, what its body contributes and
its own name, and no other name. -/
theorem Node.IsFunction.scope_eq (h : node.IsFunction) :
    ∃ scope, node.scope? = some scope
      ∧ ∀ name, name ∈ scope
          ↔ node.BindsPositionally name ∨ name ∈ Tree.scopeOf node.statements
            ∨ node.IsNamed name := by
  -- the scope lists the names of the body, the function's own name and its parameters, in order
  cases h with
  | @function kind async generator own inputs content ho h =>
    refine ⟨content.bodyNames ++ own.declaredName ++ inputs.parameterNames, rfl, fun name => ?_⟩
    have named : Node.IsNamed name ⟨.function kind async generator, [own, inputs, content]⟩
        ↔ own.IsNamed name := ⟨fun ⟨h⟩ => h, .function⟩
    rw [scopeOf_statements_function, named, List.mem_append, List.mem_append,
      ho.mem_declaredName_iff, mem_parameterNames_iff h]
    exact or_comm
  | @arrow async parenthesized inputs content h =>
    refine ⟨content.bodyNames ++ inputs.parameterNames, rfl, fun name => ?_⟩
    have unnamed : ¬ Node.IsNamed name ⟨.arrow async parenthesized, [inputs, content]⟩ := nofun
    rw [scopeOf_statements_arrow, List.mem_append, mem_parameterNames_iff h, or_iff_left unnamed]
    exact or_comm

/-- A name that a positional parameter binds is in the scope of its function. -/
theorem Node.BindsPositionally.mem_scope (h : node.BindsPositionally name) :
    ∃ scope, node.scope? = some scope ∧ name ∈ scope := by
  obtain ⟨parameter, hm, positional, binds⟩ := h
  have found {inputs : Tree} (hm : parameter ∈ inputs.parameterItems) :
      name ∈ inputs.parameterNames :=
    Tree.mem_parameterNames.mpr ⟨parameter, hm, positional, binds.mem_patternNames⟩
  unfold Node.parameters at hm
  split at hm
  · exact ⟨_, rfl, List.mem_append_right _ (found hm)⟩
  · exact ⟨_, rfl, List.mem_append_right _ (found hm)⟩
  · cases hm

end

/-! ## Elements named after parameters -/

/-- The leftmost name of the tag of an element is bound by a parameter of a function around it,
other than a rest parameter. -/
def Placed.NamesParameter (p : Placed) : Prop :=
  ∃ name, p.tag.leftmost? = some name ∧ ∃ node ∈ p.around, node.BindsPositionally name

/-- A tag named after a positional parameter is bound around its element. -/
theorem Placed.NamesParameter.isBound {p : Placed} (h : p.NamesParameter) : p.IsBound := by
  obtain ⟨name, leftmost, node, hn, binds⟩ := h
  exact ⟨name, leftmost, node, hn, binds.mem_scope⟩

/-- The scope of every function and arrow function binds exactly the names that its parameters bind,
a rest parameter apart, the names of its body's statement list and its own name. So the tag of an
element that is named after such a parameter of a function around it is found and not missing, and a
program that is refused for a tag is refused for another one. -/
theorem scope_binds_positional_parameters (settings : Settings) (bindings : Scopes)
    (program : Tree) :
    (∀ node : Node, node.IsFunction → ∃ scope, node.scope? = some scope
        ∧ ∀ name, name ∈ scope
            ↔ (∃ parameter ∈ node.parameters, parameter.isRest = false
                ∧ parameter.ParameterBinds name)
              ∨ name ∈ Tree.scopeOf node.statements ∨ node.IsNamed name)
      ∧ (∀ p ∈ program.placed [], p.NamesParameter →
          (p.occurrence bindings).findsTag
            ∧ (p.occurrence bindings).isMissing settings.rules = false)
      ∧ ∀ failure, lowerProgram settings bindings program = .error failure →
          failure.fault.code = "JSX-ERR-SCOPE-001" →
          ∃ p ∈ program.placed [], (p.occurrence bindings).failure = failure
            ∧ ¬ p.NamesParameter := by
  refine ⟨fun node h => h.scope_eq, fun p _ named => ?_, fun failure h code => ?_⟩
  · exact ⟨named.isBound.findsTag bindings,
      named.isBound.isMissing_eq_false bindings settings.rules⟩
  · obtain ⟨p, hp, missing, failed⟩ := lowerProgram_blames h code
    refine ⟨p, hp, failed, fun named => ?_⟩
    rw [named.isBound.isMissing_eq_false bindings settings.rules] at missing
    cases missing

/-- The function `function View({ key: [A, ...b] = c }, D = e) { var F; return <A/>; }`. -/
def patternFunction : Node :=
  ⟨.function .declaration false false,
    [.identifier "View",
     .node .parameters
       [.node .objectPattern
          [.node (.patternProperty false false) [.identifier "key", .node .defaultPattern
             [.node .arrayPattern [.identifier "A", .node .rest [.identifier "b"]],
              .identifier "c"]]],
        .node .defaultPattern [.identifier "D", .identifier "e"]],
     .node .body
       [.node (.variableList .var) [.node .declarator [.identifier "F", .absent]],
        .node .returns [.markup (.element 57 (.reference "A") [] [])]]]⟩

/-- Its parameters are an object pattern with an array pattern inside, and a name with a default. -/
theorem isFunction_patternFunction : patternFunction.IsFunction := by
  refine .function (.named .plain) ?_
  have object : Tree.IsPattern (.node .objectPattern
      [.node (.patternProperty false false) [.identifier "key", .node .defaultPattern
        [.node .arrayPattern [.identifier "A", .node .rest [.identifier "b"]],
         .identifier "c"]]]) := by
    refine .object (List.forall_mem_singleton.mpr (.property (.withDefault (.array ?_))))
    exact List.forall_mem_cons.mpr ⟨.identifier, List.forall_mem_singleton.mpr (.rest .identifier)⟩
  exact List.forall_mem_cons.mpr
    ⟨.pattern object, List.forall_mem_singleton.mpr (.pattern (.withDefault .identifier))⟩

/-- All three names in its patterns are in scope, and the element in its body finds its tag. -/
theorem scope_patternFunction :
    patternFunction.IsFunction
      ∧ patternFunction.scope? = some ["F", "View", "A", "b", "D"]
      ∧ (∀ name ∈ ["A", "b", "D"], ∃ parameter ∈ patternFunction.parameters,
          parameter.isRest = false ∧ parameter.ParameterBinds name)
      ∧ ∃ p ∈ Tree.placed [] (.node patternFunction.form patternFunction.children),
          p.NamesParameter ∧ (p.occurrence []).findsTag := by
  obtain ⟨scopes, elements, -⟩ := scope_binds_positional_parameters
    { captureScope := true : Options }.settings []
    (.node patternFunction.form patternFunction.children)
  have shaped := isFunction_patternFunction
  obtain ⟨scope, found, names⟩ := scopes patternFunction shaped
  have listed : patternFunction.scope? = some ["F", "View", "A", "b", "D"] := rfl
  rw [listed] at found
  cases found
  have bound : ∀ name ∈ ["A", "b", "D"], ∃ parameter ∈ patternFunction.parameters,
      parameter.isRest = false ∧ parameter.ParameterBinds name := by
    intro name hn
    have inScope : name ∈ ["F", "View", "A", "b", "D"] := .tail _ (.tail _ hn)
    refine ((names name).mp inScope).resolve_right ?_
    -- the body contributes `F` alone, and the function is called otherwise
    have body : Tree.scopeOf patternFunction.statements = ["F"] := rfl
    rw [body]
    rintro (declared | named)
    · rw [List.mem_singleton.mp declared] at hn
      exact absurd hn (by decide)
    · cases named with
      | function own =>
        cases own
        exact absurd hn (by decide)
  obtain ⟨p, hp, around, tag⟩ :
      ∃ p ∈ Tree.placed [] (.node patternFunction.form patternFunction.children),
        patternFunction ∈ p.around ∧ p.tag.leftmost? = some "A" :=
    ⟨_, List.mem_cons_self, .tail _ (.tail _ (.head _)), rfl⟩
  have named : p.NamesParameter := ⟨"A", tag, patternFunction, around, bound "A" (by decide)⟩
  exact ⟨shaped, listed, bound, p, hp, named, (elements p hp named).1⟩

/-! ## Rest parameters -/

/-- The function `function f(a, ...B) { return <B/>; }`. -/
def restFunction : Node :=
  ⟨.function .declaration false false,
    [.identifier "f", .node .parameters [.identifier "a", .node .rest [.identifier "B"]],
     .node .body [.node .returns [.markup (.element 28 (.reference "B") [] [])]]]⟩

/-- The name of a rest parameter is not in the scope of its function or arrow function, and a
program is refused for the tag of an element in the body that is named so. -/
theorem scope_restFunction :
    (restFunction.IsFunction ∧ (∃ parameter ∈ restFunction.parameters, parameter.ParameterBinds "B")
        ∧ restFunction.scope? = some ["f", "a"])
      ∧ ∀ source ∈ ["function f(a, ...B) \x7b return <B/>; \x7d", "const f = (a, ...B) => <B/>;"],
        ((SourceUnit.mk "view.jsx" source).compile
            { captureScope := true, builtins := some [] }).mapError Diagnostic.code
          = .error "JSX-ERR-SCOPE-001" := by
  have shaped : restFunction.IsFunction := by
    refine .function (.named .plain) (List.forall_mem_cons.mpr ⟨.pattern .identifier, ?_⟩)
    exact List.forall_mem_singleton.mpr (.pattern (.rest .identifier))
  have binds : ∃ parameter ∈ restFunction.parameters, parameter.ParameterBinds "B" :=
    ⟨_, .tail _ (.head _), .pattern (.rest .identifier)⟩
  exact ⟨⟨shaped, binds, rfl⟩, by decide +kernel⟩

end JsxLowering
