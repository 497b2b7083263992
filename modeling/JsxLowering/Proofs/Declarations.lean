import JsxLowering.Proofs.Failure
import JsxLowering.Proofs.ScopeStack

/-!
# Declarations around an element

`Tree.Declares` says which names a statement declares where it stands, and `Node.statements` which
statement list a node holds. A node that holds a list forms a scope with the names declared in it,
except for two: the clauses of a switch and a static block have no scope of their own.

So a tag whose leftmost name is declared in any other list around its element is found when it is
looked up, and the element is not the one for which a program is refused.
-/

namespace JsxLowering

/-! ## What statements declare -/

/-- A pattern binds a name. Keys and defaults bind nothing. -/
inductive Tree.PatternBinds (name : String) : Tree → Prop
  | identifier : PatternBinds name (.identifier name)
  | object {properties : List Tree} {property : Tree} (hm : property ∈ properties)
      (h : PatternBinds name property) : PatternBinds name (.node .objectPattern properties)
  | property {short computed : Bool} {key pattern : Tree} (h : PatternBinds name pattern) :
    PatternBinds name (.node (.patternProperty short computed) [key, pattern])
  | array {elements : List Tree} {element : Tree} (hm : element ∈ elements)
      (h : PatternBinds name element) : PatternBinds name (.node .arrayPattern elements)
  | withDefault {pattern value : Tree} (h : PatternBinds name pattern) :
    PatternBinds name (.node .defaultPattern [pattern, value])
  | rest {pattern : Tree} (h : PatternBinds name pattern) :
    PatternBinds name (.node .rest [pattern])
  | typed {mark : String} {pattern type : Tree} (h : PatternBinds name pattern) :
    PatternBinds name (.node (.typed mark) [pattern, type])

/-- A function or a class has a name. A class may have type parameters after it. -/
inductive Tree.IsNamed (name : String) : Tree → Prop
  | plain : IsNamed name (.identifier name)
  | generic {types : Tree} : IsNamed name (.node .generic [.identifier name, types])

/-- A statement declares a name in the list it stands in: as a variable, a function or a class, and
perhaps exports it. -/
inductive Tree.Declares (name : String) : Tree → Prop
  | variableList {kind : VariableKind} {declarators : List Tree} {pattern value : Tree}
      (hm : .node .declarator [pattern, value] ∈ declarators) (h : pattern.PatternBinds name) :
    Declares name (.node (.variableList kind) declarators)
  | function {async generator : Bool} {own inputs body : Tree} (h : own.IsNamed name) :
    Declares name (.node (.function .declaration async generator) [own, inputs, body])
  | classForm {modifiers : List String} {own : Tree} {parts : List Tree} (h : own.IsNamed name) :
    Declares name (.node (.classForm true modifiers) (own :: parts))
  | decorated {parts : List Tree} {decorated : Tree} (hm : decorated ∈ parts)
      (h : Declares name decorated) : Declares name (.node .decorated parts)
  | ambient {declaration : Tree} (h : Declares name declaration) :
    Declares name (.node .ambient [declaration])
  | exportItem {declaration : Tree} (h : Declares name declaration) :
    Declares name (.node .exportItem [declaration])
  | exportDefault {declaration : Tree} (h : Declares name declaration) :
    Declares name (.node .exportDefault [declaration])

theorem Tree.patternNamesAll_eq (patterns : List Tree) :
    Tree.patternNamesAll patterns = patterns.flatMap Tree.patternNames := by
  induction patterns with
  | nil => rfl
  | cons first rest ih => rw [Tree.patternNamesAll, ih, List.flatMap_cons]

/-- A list of patterns has the names of each of them. -/
theorem Tree.mem_patternNamesAll {name : String} {patterns : List Tree} {pattern : Tree}
    (hm : pattern ∈ patterns) (h : name ∈ pattern.patternNames) :
    name ∈ Tree.patternNamesAll patterns := by
  rw [Tree.patternNamesAll_eq]
  exact List.mem_flatMap.mpr ⟨pattern, hm, h⟩

/-- The collected names of a pattern have all that it binds. -/
theorem Tree.PatternBinds.mem_patternNames {name : String} {pattern : Tree}
    (h : pattern.PatternBinds name) : name ∈ pattern.patternNames := by
  induction h with
  | identifier => exact List.mem_singleton.mpr rfl
  | object hm _ ih => exact Tree.mem_patternNamesAll hm ih
  | property _ ih => exact ih
  | array hm _ ih => exact Tree.mem_patternNamesAll hm ih
  | withDefault _ ih => exact ih
  | rest _ ih => exact ih
  | typed _ ih => exact ih

/-- The name of a function or a class is collected without its type parameters. -/
theorem Tree.IsNamed.declaredName_eq {name : String} {own : Tree} (h : own.IsNamed name) :
    own.declaredName = [name] := by
  cases h <;> rfl

theorem Tree.statementNamesAll_eq (top : Bool) (statements : List Tree) :
    Tree.statementNamesAll top statements = statements.flatMap (Tree.statementNames top) := by
  induction statements with
  | nil => rfl
  | cons first rest ih => rw [Tree.statementNamesAll, ih, List.flatMap_cons]

/-- A list of statements has the names of each of them. -/
theorem Tree.mem_statementNamesAll {name : String} {top : Bool} {statements : List Tree}
    {statement : Tree} (hm : statement ∈ statements) (h : name ∈ statement.statementNames top) :
    name ∈ Tree.statementNamesAll top statements := by
  rw [Tree.statementNamesAll_eq]
  exact List.mem_flatMap.mpr ⟨statement, hm, h⟩

/-- What a statement declares counts at the top of a scope's list. -/
theorem Tree.Declares.mem_statementNames {name : String} {statement : Tree}
    (h : statement.Declares name) : name ∈ statement.statementNames true := by
  -- a wrapper declares what it wraps, and the collector stays at the top when it goes into one
  induction h with
  | variableList hm h =>
    rw [Tree.statementNames, Bool.true_or, if_pos rfl, List.mem_flatMap]
    exact ⟨_, hm, h.mem_patternNames⟩
  | function h =>
    rw [Tree.statementNames, if_pos rfl, h.declaredName_eq]
    exact List.mem_singleton.mpr rfl
  | classForm h =>
    rw [Tree.statementNames, if_pos rfl, h.declaredName_eq]
    exact List.mem_singleton.mpr rfl
  | decorated hm _ ih => exact Tree.mem_statementNamesAll hm ih
  | ambient _ ih => exact ih
  | exportItem _ ih => exact ih
  | exportDefault _ ih => exact ih

/-! ## Statement lists -/

/-- The statements of a clause of a switch. -/
def Tree.clauseStatements : Tree → List Tree
  | .node .caseClause (_ :: statements) => statements
  | _ => []

/-- The statement list that a node holds: the list of a module or a block, of the body of a function
or an arrow function, of all clauses of a switch, or of a static block. The blocks of `try`, `catch`
and `finally` are blocks. -/
def Node.statements : Node → List Tree
  | ⟨.program _, statements⟩ => statements
  | ⟨.block, statements⟩ => statements
  | ⟨.function .., [_, _, .node .body statements]⟩ => statements
  | ⟨.arrow .., [_, .node .body statements]⟩ => statements
  | ⟨.switchCase, _ :: clauses⟩ => clauses.flatMap Tree.clauseStatements
  | ⟨.staticBlock, statements⟩ => statements
  | _ => []

/-- Whether a node forms no scope for the statement list it holds. -/
def Node.isUnscoped (node : Node) : Bool := node.form = .switchCase || node.form = .staticBlock

/-- A statement in the list of a node declares a name. -/
def Node.Declares (node : Node) (name : String) : Prop :=
  ∃ statement ∈ node.statements, statement.Declares name

/-- The scope of a statement list binds what a statement of it declares. -/
theorem mem_scopeOf {name : String} {statements : List Tree} {statement : Tree}
    (hm : statement ∈ statements) (h : statement.Declares name) :
    name ∈ Tree.scopeOf statements := Tree.mem_statementNamesAll hm h.mem_statementNames

/-- The scope that a node forms binds what its statement list declares. -/
theorem Node.Declares.mem_scope {node : Node} {name : String} (h : node.Declares name)
    (own : node.isUnscoped = false) : ∃ scope, node.scope? = some scope ∧ name ∈ scope := by
  obtain ⟨statement, hm, declares⟩ := h
  unfold Node.statements at hm
  -- one case per kind of list; the last two kinds are the ones that form no scope
  split at hm
  · exact ⟨_, rfl, mem_scopeOf hm declares⟩
  · exact ⟨_, rfl, mem_scopeOf hm declares⟩
  · refine ⟨_, rfl, ?_⟩
    rw [List.append_assoc]
    exact List.mem_append_left _ (mem_scopeOf hm declares)
  · exact ⟨_, rfl, List.mem_append_left _ (mem_scopeOf hm declares)⟩
  · cases own
  · cases own
  · cases hm

/-! ## Elements -/

/-- The leftmost name of the tag of an element is declared in a statement list around it, other than
the clauses of a switch and a static block. -/
def Placed.IsDeclared (p : Placed) : Prop :=
  ∃ name, p.tag.leftmost? = some name
    ∧ ∃ node ∈ p.around, node.isUnscoped = false ∧ node.Declares name

/-- The leftmost name of the tag of an element is in scope. -/
def Occurrence.findsTag (o : Occurrence) : Bool := o.tag.leftmost?.all o.scopes.binds

/-- A tag with a leftmost name is looked up by that name. -/
theorem TagName.lookup?_of_leftmost? {tag : TagName} {name : String}
    (h : tag.leftmost? = some name) : tag.lookup?.map Prod.fst = some name := by
  cases tag with
  | member path => exact path.head?_path.symm.trans h
  | plain word =>
    rw [TagName.leftmost?, Bool.and_comm] at h
    rw [TagName.lookup?]
    split at h
    · next legal =>
      rw [if_pos legal]
      exact h
    · cases h
  | reference word =>
    rw [TagName.leftmost?] at h
    split at h
    · exact h
    · cases h
  | this => cases h
  | namespaced space word => cases h

/-- The leftmost name of the tag of an element is bound by the scope of a node around it. -/
def Placed.IsBound (p : Placed) : Prop :=
  ∃ name, p.tag.leftmost? = some name
    ∧ ∃ node ∈ p.around, ∃ scope, node.scope? = some scope ∧ name ∈ scope

/-- The stack of scopes at an element has the scopes of all nodes around it, so a name bound there
is found. -/
theorem Placed.IsBound.findsTag {p : Placed} (h : p.IsBound) (bindings : Scopes) :
    (p.occurrence bindings).findsTag := by
  -- the scopes at a place are those of the nodes around it, so this node's is one of them
  obtain ⟨name, leftmost, node, hn, bound⟩ := h
  have bound : (p.occurrence bindings).scopes.binds name :=
    ((p.isAt_occurrence bindings).binds name).mpr (.inr ⟨node, hn, bound⟩)
  have found : (p.occurrence bindings).tag.leftmost? = some name := leftmost
  rw [Occurrence.findsTag, found]
  exact bound

/-- An element whose tag is bound around it is not missing. -/
theorem Placed.IsBound.isMissing_eq_false {p : Placed} (h : p.IsBound) (bindings : Scopes)
    (rules : TagRules) : (p.occurrence bindings).isMissing rules = false := by
  have found := h.findsTag bindings
  obtain ⟨name, leftmost, -⟩ := h
  have tag : (p.occurrence bindings).tag.leftmost? = some name := leftmost
  have lookup := TagName.lookup?_of_leftmost? tag
  rw [Occurrence.findsTag, tag] at found
  obtain ⟨⟨name', value⟩, hl, rfl⟩ := Option.map_eq_some_iff.mp lookup
  have decided : rules.decide (p.occurrence bindings).tag.text
      ((p.occurrence bindings).scopes.binds name') ≠ .missing := by
    intro missing
    have unbound := (TagRules.decide_eq_missing.mp missing).2.2
    rw [show (p.occurrence bindings).scopes.binds name' = true from found] at unbound
    cases unbound
  simp [Occurrence.isMissing, hl, decided]

/-- A name declared around an element is bound there. -/
theorem Placed.IsDeclared.isBound {p : Placed} (h : p.IsDeclared) : p.IsBound := by
  obtain ⟨name, leftmost, node, hn, own, declares⟩ := h
  exact ⟨name, leftmost, node, hn, declares.mem_scope own⟩

theorem Placed.IsDeclared.findsTag {p : Placed} (h : p.IsDeclared) (bindings : Scopes) :
    (p.occurrence bindings).findsTag := h.isBound.findsTag bindings

theorem Placed.IsDeclared.isMissing_eq_false {p : Placed} (h : p.IsDeclared) (bindings : Scopes)
    (rules : TagRules) : (p.occurrence bindings).isMissing rules = false :=
  h.isBound.isMissing_eq_false bindings rules

/-! ## Elements for which a program is refused -/

namespace Lower

variable {α β : Type} {rules : TagRules} {found more : List Occurrence}

/-- A step of a lowering that fails for a tag fails for the missing tag of one of the given
elements. -/
def Blames (rules : TagRules) (found : List Occurrence) (x : Lower α) : Prop :=
  ∀ s failure, x s = .error failure → failure.fault.code = "JSX-ERR-SCOPE-001" →
    ∃ o ∈ found, o.isMissing rules ∧ o.failure = failure

theorem Blames.pure (a : α) : Blames rules found (Pure.pure a) := nofun

/-- A failure of two steps is one of the first or of the second. -/
theorem Blames.bind {x : Lower α} {f : α → Lower β} (hx : Blames rules found x)
    (hf : ∀ a, Blames rules more (f a)) : Blames rules (found ++ more) (x >>= f) := by
  intro s failure h code
  rw [bind_apply] at h
  cases run : x s with
  | error first =>
    rw [run] at h
    cases h
    obtain ⟨o, ho, missing⟩ := hx s failure run code
    exact ⟨o, List.mem_append_left _ ho, missing⟩
  | ok result =>
    rw [run] at h
    obtain ⟨o, ho, missing⟩ := hf result.1 result.2 failure h code
    exact ⟨o, List.mem_append_right _ ho, missing⟩

/-- Computing with the result of a step adds no failure. -/
theorem Blames.map {x : Lower α} (hx : Blames rules found x) (f : α → β) :
    Blames rules found (x >>= fun a => Pure.pure (f a)) := by
  rw [← List.append_nil found]
  exact hx.bind fun a => Blames.pure (f a)

theorem Blames.enter (start : Nat) : Blames rules [] (Lower.enter start) := nofun

/-- Leaving markup can fail, but not for a tag: compiling a template has codes of its own. -/
theorem Blames.leave (text : String) (start : Nat) : Blames rules [] (Lower.leave text start) := by
  intro s failure h code
  rw [Lower.leave_eq] at h
  by_cases inside : s.boundary.isInterior start
  · rw [if_pos inside] at h
    cases h
  · -- only outermost markup is compiled, and only a fault of its template can surface
    rw [if_neg inside] at h
    cases hc : Template.compile text with
    | ok function =>
      rw [hc] at h
      cases h
    | error fault =>
      rw [hc] at h
      cases h
      rw [Template.code_of_compile hc] at code
      exact absurd code (by decide)

/-- Resolving a tag fails for that tag only. -/
theorem Blames.resolve (settings : Settings) (scopes : Scopes) (tag : TagName) (start : Nat) :
    Blames settings.rules [⟨scopes, tag, start⟩] (Lower.resolve settings scopes tag start) := by
  intro s failure h _
  have resolved := tag.resolve_eq settings.rules scopes start
  unfold Lower.resolve at h
  -- a failure here is that of the tag itself, as a tag that is not missing resolves
  cases missing : Occurrence.isMissing settings.rules ⟨scopes, tag, start⟩ with
  | true =>
    rw [missing, if_pos rfl] at resolved
    rw [resolved] at h
    cases h
    exact ⟨_, List.mem_singleton.mpr rfl, missing, rfl⟩
  | false =>
    rw [missing, if_neg Bool.false_ne_true] at resolved
    obtain ⟨found, hr, -⟩ := resolved
    rw [hr] at h
    cases h

end Lower

section
variable (settings : Settings) (bindings : Scopes)

mutual

/-- A lowering that fails for a tag fails for that of an element at its place. -/
theorem Tree.lower_blames : (tree : Tree) → (around : List Node) →
    Lower.Blames settings.rules ((tree.placed around).map (Placed.occurrence bindings))
      (tree.lower settings (Placed.scopesAt bindings around))
  | .leaf _, _ => Lower.Blames.pure _
  | .node form children, around => by
    have inner := Tree.lowerAll_blames children (⟨form, children⟩ :: around)
    rw [Placed.scopesAt_cons] at inner
    rw [Tree.lower, Tree.placed, Form.enclose_eq]
    exact inner.map _
  | .markup value, around => Markup.lower_blames value around

theorem Tree.lowerAll_blames : (trees : List Tree) → (around : List Node) →
    Lower.Blames settings.rules ((Tree.placedIn around trees).map (Placed.occurrence bindings))
      (Tree.lowerAll settings (Placed.scopesAt bindings around) trees)
  | [], _ => Lower.Blames.pure _
  | tree :: rest, around => by
    rw [Tree.lowerAll, Tree.placedIn, List.map_append]
    apply (Tree.lower_blames tree around).bind
    intro first
    exact (Tree.lowerAll_blames rest around).map _

/-- An element resolves its tag between its attributes and its children. -/
theorem Markup.lower_blames : (m : Markup) → (around : List Node) →
    Lower.Blames settings.rules ((m.placed around).map (Placed.occurrence bindings))
      (m.lower settings (Placed.scopesAt bindings around))
  | .element start tag attributes children, around => by
    rw [Markup.lower, Markup.placed, List.map_append, List.map_cons]
    rw [← List.nil_append (List.map _ _ ++ _), ← List.singleton_append,
      ← List.append_nil (List.map _ (Child.placedIn around children))]
    apply (Lower.Blames.enter start).bind
    intro _
    apply (Attribute.lowerAll_blames attributes around).bind
    intro properties
    apply (Lower.Blames.resolve settings _ tag start).bind
    intro resolved
    apply (Child.lowerAll_blames children around).bind
    intro contributions
    exact Lower.Blames.leave _ start
  | .fragment start children, around => by
    rw [Markup.lower, Markup.placed, ← List.nil_append (List.map _ _),
      ← List.append_nil (List.map _ _)]
    apply (Lower.Blames.enter start).bind
    intro _
    apply (Child.lowerAll_blames children around).bind
    intro contributions
    exact Lower.Blames.leave _ start

theorem Attribute.lower_blames : (item : Attribute) → (around : List Node) →
    Lower.Blames settings.rules ((item.placed around).map (Placed.occurrence bindings))
      (item.lower settings (Placed.scopesAt bindings around))
  | .flag _, _ => Lower.Blames.pure _
  | .text _ _, _ => Lower.Blames.pure _
  | .container _ value, around => (Tree.lower_blames value around).map _
  | .markup _ value, around => (Markup.lower_blames value around).map _
  | .spread argument, around => (Tree.lower_blames argument around).map _

theorem Attribute.lowerAll_blames : (items : List Attribute) → (around : List Node) →
    Lower.Blames settings.rules ((Attribute.placedIn around items).map (Placed.occurrence bindings))
      (Attribute.lowerAll settings (Placed.scopesAt bindings around) items)
  | [], _ => Lower.Blames.pure _
  | item :: rest, around => by
    rw [Attribute.lowerAll, Attribute.placedIn, List.map_append]
    apply (Attribute.lower_blames item around).bind
    intro first
    exact (Attribute.lowerAll_blames rest around).map _

theorem Child.lower_blames : (item : Child) → (around : List Node) →
    Lower.Blames settings.rules ((item.placed around).map (Placed.occurrence bindings))
      (item.lower settings (Placed.scopesAt bindings around))
  | .text raw, _ => by
    rw [Child.lower]
    cases Text.clean raw with
    | none => exact Lower.Blames.pure _
    | some content => exact Lower.Blames.pure _
  | .empty, _ => Lower.Blames.pure _
  | .container value, around => (Tree.lower_blames value around).map _
  | .markup value, around => (Markup.lower_blames value around).map _
  | .spread argument, around => (Tree.lower_blames argument around).map _

theorem Child.lowerAll_blames : (items : List Child) → (around : List Node) →
    Lower.Blames settings.rules ((Child.placedIn around items).map (Placed.occurrence bindings))
      (Child.lowerAll settings (Placed.scopesAt bindings around) items)
  | [], _ => Lower.Blames.pure _
  | item :: rest, around => by
    rw [Child.lowerAll, Child.placedIn, List.map_append]
    apply (Child.lower_blames item around).bind
    intro first
    exact (Child.lowerAll_blames rest around).map _

end

end

/-- A program that is refused for a tag is refused for the missing tag of one of its elements. -/
theorem lowerProgram_blames {settings : Settings} {bindings : Scopes} {program : Tree}
    {failure : Failure} (h : lowerProgram settings bindings program = .error failure)
    (code : failure.fault.code = "JSX-ERR-SCOPE-001") :
    ∃ p ∈ program.placed [], (p.occurrence bindings).isMissing settings.rules
      ∧ (p.occurrence bindings).failure = failure := by
  unfold lowerProgram at h
  cases run : program.lower settings bindings {} with
  | ok result =>
    rw [run] at h
    cases h
  | error first =>
    rw [run] at h
    cases h
    obtain ⟨o, ho, missing⟩ := Tree.lower_blames settings bindings program [] {} failure run code
    obtain ⟨p, hp, rfl⟩ := List.mem_map.mp ho
    exact ⟨p, hp, missing⟩

/-! ## Whole programs -/

/-- Whenever a walk over a program resolves the tag of an element whose leftmost name is declared in
a statement list around it, other than the clauses of a switch and a static block, the stack of
scopes binds that name and the tag is not missing; all elements are resolved, or those up to the
first failure. If the program is refused for a tag, then for one that is not declared so. -/
theorem walkProgram_finds_declared (settings : Settings) (bindings : Scopes) (program : Tree) :
    (∃ reached, reached <+: program.placed []
        ∧ List.Forall₂ (fun o p => Occurrence.IsAt bindings o p
            ∧ (p.IsDeclared → o.findsTag ∧ o.isMissing settings.rules = false))
          (walkProgram settings bindings program).2.resolved reached
        ∧ ((lowerProgram settings bindings program).toBool → reached = program.placed []))
      ∧ ∀ failure, lowerProgram settings bindings program = .error failure →
          failure.fault.code = "JSX-ERR-SCOPE-001" →
          ∃ p ∈ program.placed [], (p.occurrence bindings).failure = failure ∧ ¬ p.IsDeclared := by
  obtain ⟨-, reached, first, resolved, all⟩ := walkProgram_eq settings bindings program
  refine ⟨⟨reached, first, ?_, all⟩, fun failure h code => ?_⟩
  · rw [resolved, List.forall₂_map_left_iff, List.forall₂_same]
    intro p _
    exact ⟨p.isAt_occurrence bindings, fun declared =>
      ⟨declared.findsTag bindings, declared.isMissing_eq_false bindings settings.rules⟩⟩
  · obtain ⟨p, hp, missing, failed⟩ := lowerProgram_blames h code
    refine ⟨p, hp, failed, fun declared => ?_⟩
    rw [declared.isMissing_eq_false bindings settings.rules] at missing
    cases missing

/-! ## Lists without a scope -/

/-- The statements `const A = f; g(<A/>);`. -/
def declaringStatements (start : Nat) : List Tree :=
  [.node (.variableList .constant) [.node .declarator [.identifier "A", .identifier "f"]],
   .node .expression
     [.node (.call false) [.identifier "g", .markup (.element start (.reference "A") [] [])]]]

/-- The switch with these statements in its clause. -/
def switchNode : Node :=
  ⟨.switchCase, [.identifier "x", .node .caseClause (.identifier "y" :: declaringStatements 36)]⟩

/-- The static block of these statements. -/
def staticNode : Node := ⟨.staticBlock, declaringStatements 34⟩

def switchProgram : Tree := .node (.program none) [.node switchNode.form switchNode.children]

def staticProgram : Tree :=
  .node (.program none)
    [.node (.classForm true [])
      [.identifier "C", .absent, .absent, .node staticNode.form staticNode.children]]

/-- A name declared in a clause of a switch or in a static block is not found by an element that
stands beside its declaration, and a program is refused for the tag of such an element. -/
theorem lower_unscopedLists :
    (∀ program ∈ [switchProgram, staticProgram],
        ∃ p ∈ program.placed [], p.tag.leftmost? = some "A" ∧ (∃ node ∈ p.around, node.Declares "A")
          ∧ (p.occurrence []).findsTag = false
          ∧ lowerProgram { captureScope := true, builtins := some [] : Options }.settings [] program
            = .error (p.occurrence []).failure)
      ∧ ∀ source ∈ ["switch (x) \x7b case y: const A = f; g(<A/>); \x7d",
          "class C \x7b static \x7b const A = f; g(<A/>); \x7d \x7d"],
        ((SourceUnit.mk "view.jsx" source).compile
            { captureScope := true, builtins := some [] }).mapError Diagnostic.code
          = .error "JSX-ERR-SCOPE-001" := by
  have declared (start : Nat) : ∃ statement ∈ declaringStatements start, statement.Declares "A" :=
    ⟨_, List.mem_cons_self, .variableList List.mem_cons_self .identifier⟩
  refine ⟨fun program hp => ?_, by decide +kernel⟩
  simp only [List.mem_cons, List.not_mem_nil, or_false] at hp
  rcases hp with rfl | rfl
  · refine ⟨_, List.mem_cons_self, rfl, ⟨switchNode, ?_, declared 36⟩, rfl, rfl⟩
    -- around the element stand the call, its statement and the clause
    exact .tail _ (.tail _ (.tail _ (.head _)))
  · refine ⟨_, List.mem_cons_self, rfl, ⟨staticNode, ?_, declared 34⟩, rfl, rfl⟩
    exact .tail _ (.tail _ (.head _))

end JsxLowering
