import JsxLowering.Proofs.Declarations

/-!
# The names of a scope

The scope of a statement list binds exactly what the list declares and what hoists to it. A name is
declared by a statement of the list itself; only `var` hoists, out of the statements that a
statement holds at any depth. `Form.substatements` says which parts of a statement are statements,
and `Tree.IsStatement` that no declaration stands where a value, a pattern or a type is expected.
-/

namespace JsxLowering

/-! ## What hoists -/

/-- The parts of a statement that are statements, clauses or handlers themselves. The head of a loop
may be a declaration. Functions, classes and expressions have no such parts. -/
def Form.substatements : Form → List Tree → List Tree
  | .block, statements => statements
  | .ifElse, [_, first, second] => [first, second]
  | .forLoop, [start, _, _, content] => [start, content]
  | .forIn, [left, _, content] => [left, content]
  | .forOf _, [left, _, content] => [left, content]
  | .whileLoop, [_, content] => [content]
  | .doWhile, [content, _] => [content]
  | .labeled _, [content] => [content]
  | .switchCase, _ :: clauses => clauses
  | .caseClause, _ :: statements => statements
  | .tryCatch, [content, caught, last] => [content, caught, last]
  | .handler, [_, content] => [content]
  | _, _ => []

/-- A statement contributes a name to the scope around it from any depth, by a `var`. -/
inductive Tree.Hoists (name : String) : Tree → Prop
  | variableList {declarators : List Tree} {pattern value : Tree}
      (hm : .node .declarator [pattern, value] ∈ declarators) (h : pattern.PatternBinds name) :
    Hoists name (.node (.variableList .var) declarators)
  | ambient {declaration : Tree} (h : Hoists name declaration) :
    Hoists name (.node .ambient [declaration])
  | nested {form : Form} {children : List Tree} {part : Tree}
      (hm : part ∈ form.substatements children) (h : Hoists name part) :
    Hoists name (.node form children)

/-- An import gives a name to what it imports. -/
inductive Tree.Imports (name : String) : Tree → Prop
  | importDefault {bare : Bool} {word : String} {parts : List Tree}
      (hm : .node .importDefault [.identifier name] ∈ parts) :
    Imports name (.node (.importFrom bare word) parts)
  | importAll {bare : Bool} {word : String} {parts : List Tree}
      (hm : .node .importAll [.identifier name] ∈ parts) :
    Imports name (.node (.importFrom bare word) parts)
  | importName {bare typeOnly : Bool} {word : String} {parts : List Tree} {imported : Tree}
      (hm : .node (.importName typeOnly) [imported, .identifier name] ∈ parts) :
    Imports name (.node (.importFrom bare word) parts)

/-! ## Shapes -/

/-- Whether a node of this form may contribute names to the scope it stands in. -/
def Form.contributes : Form → Bool
  | .variableList _ | .function .declaration _ _ | .classForm true _ | .importFrom _ _
  | .exportItem | .exportDefault | .ambient | .decorated => true
  | form => form.holdsStatements

/-- What is no declaration and no statement with parts: a value, a pattern, a type, a simple
statement, or nothing. A class that is a value may be decorated. -/
inductive Tree.IsInert : Tree → Prop
  | leaf {leaf : Leaf} : IsInert (.leaf leaf)
  | markup {markup : Markup} : IsInert (.markup markup)
  | node {form : Form} {children : List Tree} (h : form.contributes = false) :
    IsInert (.node form children)
  | decorated {parts : List Tree} (h : ∀ part ∈ parts, IsInert part) :
    IsInert (.node .decorated parts)

/-- A pattern that binds names, or a part of one. A hole is absent. -/
inductive Tree.IsPattern : Tree → Prop
  | absent : IsPattern .absent
  | identifier {name : String} : IsPattern (.identifier name)
  | object {properties : List Tree} (h : ∀ property ∈ properties, IsPattern property) :
    IsPattern (.node .objectPattern properties)
  | property {short computed : Bool} {key pattern : Tree} (h : IsPattern pattern) :
    IsPattern (.node (.patternProperty short computed) [key, pattern])
  | array {elements : List Tree} (h : ∀ element ∈ elements, IsPattern element) :
    IsPattern (.node .arrayPattern elements)
  | withDefault {pattern value : Tree} (h : IsPattern pattern) :
    IsPattern (.node .defaultPattern [pattern, value])
  | rest {pattern : Tree} (h : IsPattern pattern) : IsPattern (.node .rest [pattern])
  | typed {mark : String} {pattern type : Tree} (h : IsPattern pattern) :
    IsPattern (.node (.typed mark) [pattern, type])

/-- A declarator: what is bound, and its value. -/
inductive Tree.IsDeclarator : Tree → Prop
  | mk {pattern value : Tree} (h : pattern.IsPattern) :
    IsDeclarator (.node .declarator [pattern, value])

/-- Where the name of a function or a class stands, if it has one. -/
inductive Tree.IsOptionalName : Tree → Prop
  | absent : IsOptionalName .absent
  | named {name : String} {own : Tree} (h : own.IsNamed name) : IsOptionalName own

/-- A declaration, or anything else that may stand after `export`. -/
inductive Tree.IsDeclaration : Tree → Prop
  | variableList {kind : VariableKind} {declarators : List Tree}
      (h : ∀ declarator ∈ declarators, declarator.IsDeclarator) :
    IsDeclaration (.node (.variableList kind) declarators)
  | function {async generator : Bool} {own inputs body : Tree} (h : own.IsOptionalName) :
    IsDeclaration (.node (.function .declaration async generator) [own, inputs, body])
  | classForm {modifiers : List String} {own : Tree} {parts : List Tree}
      (h : own.IsOptionalName) :
    IsDeclaration (.node (.classForm true modifiers) (own :: parts))
  | decorated {decorators parts : List Tree} {modifiers : List String} {own : Tree}
      (hd : ∀ decorator ∈ decorators, decorator.IsInert) (h : own.IsOptionalName) :
    IsDeclaration (.node .decorated (decorators ++ [.node (.classForm true modifiers)
      (own :: parts)]))
  | ambient {declaration : Tree} (h : IsDeclaration declaration) :
    IsDeclaration (.node .ambient [declaration])
  | inert {tree : Tree} (h : tree.IsInert) : IsDeclaration tree

/-- A part of an import clause. -/
inductive Tree.IsSpecifier : Tree → Prop
  | importDefault {name : String} : IsSpecifier (.node .importDefault [.identifier name])
  | importAll {name : String} : IsSpecifier (.node .importAll [.identifier name])
  | importName {typeOnly : Bool} {imported : Tree} {name : String} :
    IsSpecifier (.node (.importName typeOnly) [imported, .identifier name])

/-- The text that names a module, perhaps with what is asked of the module. -/
inductive Tree.IsModuleText : Tree → Prop
  | plain {text : String} : IsModuleText (.string text)
  | demanding {pieces : List String} {parts : List Tree} :
    IsModuleText (.node (.mixed pieces) parts)

/-- A statement or an item of a module, a clause or a handler. Each part of one that holds
statements is a statement or inert. -/
inductive Tree.IsStatement : Tree → Prop
  | declaration {tree : Tree} (h : tree.IsDeclaration) : IsStatement tree
  | importFrom {bare : Bool} {word : String} {specifiers : List Tree} {source : Tree}
      (h : ∀ specifier ∈ specifiers, specifier.IsSpecifier) (hs : source.IsModuleText) :
    IsStatement (.node (.importFrom bare word) (specifiers ++ [source]))
  | exportItem {declaration : Tree} (h : declaration.IsDeclaration) :
    IsStatement (.node .exportItem [declaration])
  | exportDefault {declaration : Tree} (h : declaration.IsDeclaration) :
    IsStatement (.node .exportDefault [declaration])
  | compound {form : Form} {children : List Tree} (hf : form.holdsStatements)
      (others : ∀ child ∈ children, child ∈ form.substatements children ∨ child.IsInert)
      (parts : ∀ part ∈ form.substatements children, IsStatement part) :
    IsStatement (.node form children)

section
variable {name : String} {tree : Tree}

/-! ## Patterns and declarators -/

/-- A pattern binds no name but those of its binding identifiers. -/
theorem Tree.IsPattern.binds_of_mem (h : tree.IsPattern) (hn : name ∈ tree.patternNames) :
    tree.PatternBinds name := by
  -- the shapes of patterns are the cases of the collector, and in each one it goes the same way
  induction h with
  | absent => cases hn
  | identifier =>
    rw [Tree.patternNames, List.mem_singleton] at hn
    rw [← hn]
    exact .identifier
  | object _ ih =>
    rw [Tree.patternNames, Tree.patternNamesAll_eq, List.mem_flatMap] at hn
    obtain ⟨property, hm, hp⟩ := hn
    exact .object hm (ih property hm hp)
  | property _ ih => exact .property (ih hn)
  | array _ ih =>
    rw [Tree.patternNames, Tree.patternNamesAll_eq, List.mem_flatMap] at hn
    obtain ⟨element, hm, he⟩ := hn
    exact .array hm (ih element hm he)
  | withDefault _ ih => exact .withDefault (ih hn)
  | rest _ ih => exact .rest (ih hn)
  | typed _ ih => exact .typed (ih hn)

/-- The names collected from a pattern are those that it binds. -/
theorem Tree.IsPattern.mem_patternNames_iff (h : tree.IsPattern) :
    name ∈ tree.patternNames ↔ tree.PatternBinds name :=
  ⟨h.binds_of_mem, Tree.PatternBinds.mem_patternNames⟩

/-- A name collected from declarators is bound by the pattern of one. -/
theorem exists_declarator_of_mem {declarators : List Tree}
    (h : ∀ declarator ∈ declarators, declarator.IsDeclarator)
    (hn : name ∈ declarators.flatMap Tree.declaratorNames) :
    ∃ pattern value, .node .declarator [pattern, value] ∈ declarators
      ∧ pattern.PatternBinds name := by
  obtain ⟨declarator, hm, hn⟩ := List.mem_flatMap.mp hn
  obtain ⟨hp⟩ := h declarator hm
  exact ⟨_, _, hm, hp.binds_of_mem hn⟩

/-- The name collected for a function or a class is its own. -/
theorem Tree.IsOptionalName.isNamed_of_mem (h : tree.IsOptionalName)
    (hn : name ∈ tree.declaredName) : tree.IsNamed name := by
  cases h with
  | absent => cases hn
  | named h =>
    rw [h.declaredName_eq, List.mem_singleton] at hn
    exact hn ▸ h

/-- A name collected from an import is that of one of its specifiers, as the source text has
none. -/
theorem imports_of_mem {specifiers : List Tree} {source : Tree} {bare : Bool} {word : String}
    (h : ∀ specifier ∈ specifiers, specifier.IsSpecifier) (hs : source.IsModuleText)
    (hn : name ∈ (specifiers ++ [source]).flatMap Tree.importedName) :
    (Tree.node (.importFrom bare word) (specifiers ++ [source])).Imports name := by
  obtain ⟨part, hm, hn⟩ := List.mem_flatMap.mp hn
  rcases List.mem_append.mp hm with hp | hp
  · cases h part hp with
    | importDefault =>
      cases List.mem_singleton.mp hn
      exact .importDefault hm
    | importAll =>
      cases List.mem_singleton.mp hn
      exact .importAll hm
    | importName =>
      cases List.mem_singleton.mp hn
      exact .importName hm
  · rw [List.mem_singleton.mp hp] at hn
    cases hs <;> cases hn

/-! ## Parts of statements -/

theorem Form.holdsStatements_of_mem {form : Form} {children : List Tree} {part : Tree}
    (h : part ∈ form.substatements children) : form.holdsStatements := by
  unfold Form.substatements at h
  split at h
  case h_13 => cases h
  all_goals rfl

/-- The statements in a statement are among its parts, in order. -/
theorem Form.substatements_sublist (form : Form) (children : List Tree) :
    (form.substatements children).Sublist children := by
  unfold Form.substatements
  split
  · exact .refl _
  · exact .cons _ (.refl _)
  · exact .cons_cons _ (.cons _ (.cons _ (.refl _)))
  · exact .cons_cons _ (.cons _ (.refl _))
  · exact .cons_cons _ (.cons _ (.refl _))
  · exact .cons _ (.refl _)
  · exact .cons_cons _ (.cons _ (.refl _))
  · exact .refl _
  · exact .cons _ (.refl _)
  · exact .cons _ (.refl _)
  · exact .refl _
  · exact .cons _ (.refl _)
  · exact List.nil_sublist _

/-- Below a node that holds statements only `var` counts, wherever the node stands. -/
theorem Tree.statementNames_of_holds {form : Form} (hf : form.holdsStatements)
    (top : Bool) (children : List Tree) :
    (Tree.node form children).statementNames top = Tree.statementNamesAll false children := by
  unfold Tree.statementNames
  split
  case h_9 heq =>
    cases heq
    exact if_pos hf
  case h_10 other => exact absurd rfl (other form children)
  -- no other branch is one of a form that holds statements
  all_goals
    next heq =>
    cases heq
    cases hf

theorem Form.contributes_of_holds {form : Form} (h : form.holdsStatements) : form.contributes := by
  unfold Form.contributes
  split
  case h_9 => exact h
  all_goals rfl

/-! ## What is inert -/

/-- An expression and a type declare nothing. -/
theorem Tree.IsInert.statementNames_eq (h : tree.IsInert) (top : Bool) :
    tree.statementNames top = [] := by
  induction h with
  | leaf => rfl
  | markup => rfl
  | @node form children h =>
    unfold Tree.statementNames
    -- a form that contributes nothing comes to the last two branches, the empty ones
    split
    case h_9 heq =>
      cases heq
      refine if_neg fun hf => ?_
      rw [Form.contributes_of_holds hf] at h
      cases h
    case h_10 => rfl
    all_goals
      next heq =>
      cases heq
      cases h
  | decorated _ ih =>
    rw [Tree.statementNames, Tree.statementNamesAll_eq, List.flatMap_eq_nil_iff]
    exact ih

/-! ## Declarations -/

/-- At the top of a list, a declaration contributes what it declares. -/
theorem Tree.IsDeclaration.declares_of_mem (h : tree.IsDeclaration)
    (hn : name ∈ tree.statementNames true) : tree.Declares name := by
  induction h with
  | variableList h =>
    rw [Tree.statementNames, Bool.true_or, if_pos rfl] at hn
    obtain ⟨pattern, value, hm, binds⟩ := exists_declarator_of_mem h hn
    exact .variableList hm binds
  | function h =>
    rw [Tree.statementNames, if_pos rfl] at hn
    exact .function (h.isNamed_of_mem hn)
  | classForm h =>
    rw [Tree.statementNames, if_pos rfl] at hn
    exact .classForm (h.isNamed_of_mem hn)
  | decorated hd h =>
    rw [Tree.statementNames, Tree.statementNamesAll_eq, List.mem_flatMap] at hn
    obtain ⟨part, hm, hn⟩ := hn
    rcases List.mem_append.mp hm with hp | hp
    · rw [(hd part hp).statementNames_eq] at hn
      cases hn
    · rw [List.mem_singleton.mp hp] at hm hn
      rw [Tree.statementNames, if_pos rfl] at hn
      exact .decorated hm (.classForm (h.isNamed_of_mem hn))
  | ambient _ ih => exact .ambient (ih hn)
  | inert h =>
    rw [h.statementNames_eq] at hn
    cases hn

/-- Below, it contributes what it hoists. -/
theorem Tree.IsDeclaration.hoists_of_mem (h : tree.IsDeclaration)
    (hn : name ∈ tree.statementNames false) : tree.Hoists name := by
  induction h with
  | @variableList kind declarators h =>
    -- below the top of a list, `let` and `const` belong to the block around them
    rw [Tree.statementNames, Bool.false_or] at hn
    by_cases hk : kind = .var
    · rw [if_pos (decide_eq_true hk)] at hn
      obtain ⟨pattern, value, hm, binds⟩ := exists_declarator_of_mem h hn
      rw [hk]
      exact .variableList hm binds
    · rw [decide_eq_false hk] at hn
      cases hn
  | function h => cases hn
  | classForm h => cases hn
  | decorated hd h =>
    rw [Tree.statementNames, Tree.statementNamesAll_eq, List.mem_flatMap] at hn
    obtain ⟨part, hm, hn⟩ := hn
    rcases List.mem_append.mp hm with hp | hp
    · rw [(hd part hp).statementNames_eq] at hn
      cases hn
    · rw [List.mem_singleton.mp hp] at hn
      cases hn
  | ambient _ ih => exact .ambient (ih hn)
  | inert h =>
    rw [h.statementNames_eq] at hn
    cases hn

/-! ## Statements -/

/-- What a statement hoists counts at the top of a list and below it. -/
theorem Tree.Hoists.mem_statementNames (h : tree.Hoists name) (top : Bool) :
    name ∈ tree.statementNames top := by
  induction h generalizing top with
  | variableList hm h =>
    rw [Tree.statementNames, decide_eq_true rfl, Bool.or_true, if_pos rfl, List.mem_flatMap]
    exact ⟨_, hm, h.mem_patternNames⟩
  | ambient _ ih => exact ih top
  | @nested form children part hm _ ih =>
    rw [Tree.statementNames_of_holds (Form.holdsStatements_of_mem hm)]
    exact Tree.mem_statementNamesAll ((form.substatements_sublist children).subset hm) (ih false)

/-- What an import binds counts at the top of a list. -/
theorem Tree.Imports.mem_statementNames (h : tree.Imports name) :
    name ∈ tree.statementNames true := by
  cases h with
  | importDefault hm => exact List.mem_flatMap.mpr ⟨_, hm, List.mem_singleton.mpr rfl⟩
  | importAll hm => exact List.mem_flatMap.mpr ⟨_, hm, List.mem_singleton.mpr rfl⟩
  | importName hm => exact List.mem_flatMap.mpr ⟨_, hm, List.mem_singleton.mpr rfl⟩

/-- Below the top of a list, a statement contributes only what it hoists. -/
theorem Tree.IsStatement.hoists_of_mem (h : tree.IsStatement)
    (hn : name ∈ tree.statementNames false) : tree.Hoists name := by
  induction h with
  | declaration h => exact h.hoists_of_mem hn
  | importFrom => cases hn
  | exportItem => cases hn
  | exportDefault => cases hn
  | @compound form children hf others _ ih =>
    rw [Tree.statementNames_of_holds hf, Tree.statementNamesAll_eq, List.mem_flatMap] at hn
    obtain ⟨child, hm, hn⟩ := hn
    rcases others child hm with hp | inert
    · exact .nested hp (ih child hp hn)
    · rw [inert.statementNames_eq] at hn
      cases hn

/-- At the top of a list, it contributes what it hoists and what it declares or imports. -/
theorem Tree.IsStatement.mem_iff (h : tree.IsStatement) :
    name ∈ tree.statementNames true
      ↔ tree.Hoists name ∨ tree.Declares name ∨ tree.Imports name := by
  constructor
  · intro hn
    cases h with
    | declaration h => exact .inr (.inl (h.declares_of_mem hn))
    | importFrom h hs => exact .inr (.inr (imports_of_mem h hs hn))
    | exportItem h => exact .inr (.inl (.exportItem (h.declares_of_mem hn)))
    | exportDefault h => exact .inr (.inl (.exportDefault (h.declares_of_mem hn)))
    | compound hf others parts =>
      -- a statement that holds others contributes the same everywhere
      rw [Tree.statementNames_of_holds hf, ← Tree.statementNames_of_holds hf false] at hn
      exact .inl ((Tree.IsStatement.compound hf others parts).hoists_of_mem hn)
  · rintro (h | h | h)
    · exact h.mem_statementNames true
    · exact h.mem_statementNames
    · exact h.mem_statementNames

end

/-! ## Scopes -/

/-- The names of a list of statements are those that some statement of it hoists, declares or
imports. -/
theorem mem_scopeOf_statements {statements : List Tree}
    (shaped : ∀ statement ∈ statements, statement.IsStatement) (name : String) :
    name ∈ Tree.scopeOf statements
      ↔ (∃ statement ∈ statements, statement.Hoists name)
        ∨ ∃ statement ∈ statements, statement.Declares name ∨ statement.Imports name := by
  rw [Tree.scopeOf, Tree.statementNamesAll_eq, List.mem_flatMap]
  constructor
  · rintro ⟨statement, hm, hn⟩
    rcases (shaped statement hm).mem_iff.mp hn with h | h
    · exact .inl ⟨statement, hm, h⟩
    · exact .inr ⟨statement, hm, h⟩
  · rintro (⟨statement, hm, h⟩ | ⟨statement, hm, h⟩)
    · exact ⟨statement, hm, h.mem_statementNames true⟩
    · exact ⟨statement, hm, (shaped statement hm).mem_iff.mpr (.inr h)⟩

/-- The scope of a statement list binds the names that its statements hoist, declare or import, and
no others; and a pattern binds exactly the names of its binding identifiers. -/
theorem mem_scopeOf_iff {statements : List Tree}
    (shaped : ∀ statement ∈ statements, statement.IsStatement) (name : String) :
    (name ∈ Tree.scopeOf statements
        ↔ (∃ statement ∈ statements, statement.Hoists name)
          ∨ ∃ statement ∈ statements, statement.Declares name ∨ statement.Imports name)
      ∧ ∀ pattern : Tree, pattern.IsPattern →
          (name ∈ pattern.patternNames ↔ pattern.PatternBinds name) :=
  ⟨mem_scopeOf_statements shaped name, fun _ h => h.mem_patternNames_iff⟩

/-- An import of two names, a constant pattern with a hole, a default and a rest, a branch with two
declarations in a block, a loop after it, and a class that is the default export. -/
def mixedStatements : List Tree :=
  [.node (.importFrom false "")
     [.node .importDefault [.identifier "Button"],
      .node (.importName false) [.identifier "Icon", .identifier "Glyph"], .string "./ui"],
   .node (.variableList .constant)
     [.node .declarator
        [.node .objectPattern
           [.node (.patternProperty false false) [.identifier "key", .node .defaultPattern
              [.node .arrayPattern [.identifier "a", .absent, .node .rest [.identifier "b"]],
               .identifier "other"]]],
         .identifier "value"]],
   .node .ifElse
     [.identifier "ok",
      .node .block
        [.node (.variableList .var) [.node .declarator [.identifier "Hoisted", .absent]],
         .node (.variableList .lexical) [.node .declarator [.identifier "Scoped", .absent]]],
      .node (.forOf false)
        [.node (.variableList .var) [.node .declarator [.identifier "item", .absent]],
         .identifier "items", .node .empty []]],
   .node .exportDefault
     [.node (.classForm true []) [.identifier "Panel", .absent, .absent]]]

/-- Each of these statements has the shape that the parser gives it. -/
theorem isStatement_of_mem_mixedStatements :
    ∀ statement ∈ mixedStatements, statement.IsStatement := by
  have single (kind : VariableKind) (name : String) : Tree.IsStatement
      (.node (.variableList kind) [.node .declarator [.identifier name, .absent]]) :=
    .declaration (.variableList (List.forall_mem_singleton.mpr ⟨.identifier⟩))
  have branch (first second : Tree) (hf : first.IsStatement) (hs : second.IsStatement) :
      Tree.IsStatement (.node .ifElse [.identifier "ok", first, second]) := by
    refine .compound rfl ?_ ?_
    · simp [Form.substatements, Tree.IsInert.leaf]
    · simp [Form.substatements, hf, hs]
  have loop (left content : Tree) (hl : left.IsStatement) (hc : content.IsStatement) :
      Tree.IsStatement (.node (.forOf false) [left, .identifier "items", content]) := by
    refine .compound rfl ?_ ?_
    · simp [Form.substatements, Tree.IsInert.leaf]
    · simp [Form.substatements, hl, hc]
  have block (statements : List Tree) (h : ∀ statement ∈ statements, statement.IsStatement) :
      Tree.IsStatement (.node .block statements) := .compound rfl (fun _ hm => .inl hm) h
  simp only [mixedStatements, List.forall_mem_cons]
  refine ⟨?_, ?_, ?_, ?_, List.forall_mem_nil _⟩
  · have specifiers : ∀ specifier ∈ [.node .importDefault [.identifier "Button"],
        .node (.importName false) [.identifier "Icon", .identifier "Glyph"]],
        Tree.IsSpecifier specifier :=
      List.forall_mem_cons.mpr ⟨.importDefault, List.forall_mem_singleton.mpr .importName⟩
    exact .importFrom specifiers .plain
  · refine .declaration (.variableList (List.forall_mem_singleton.mpr ⟨.object ?_⟩))
    refine List.forall_mem_singleton.mpr (.property (.withDefault (.array ?_)))
    simp [Tree.IsPattern.identifier, Tree.IsPattern.absent, Tree.IsPattern.rest]
  · refine branch _ _ (block _ ?_) (loop _ _ (single _ _) (.declaration (.inert (.node rfl))))
    exact List.forall_mem_cons.mpr ⟨single _ _, List.forall_mem_singleton.mpr (single _ _)⟩
  · exact .exportDefault (.classForm (.named .plain))

/-- A `var` in a loop is hoisted, a `let` in a block is not, and a property key is no name. -/
theorem mem_scopeOf_mixedStatements :
    (∀ statement ∈ mixedStatements, statement.IsStatement)
      ∧ Tree.scopeOf mixedStatements = ["Button", "Glyph", "a", "b", "Hoisted", "item", "Panel"]
      ∧ ((∃ statement ∈ mixedStatements, statement.Hoists "item")
          ∨ ∃ statement ∈ mixedStatements, statement.Declares "item" ∨ statement.Imports "item")
      ∧ ¬ (∃ statement ∈ mixedStatements, statement.Hoists "Scoped")
      ∧ ¬ ∃ statement ∈ mixedStatements,
          statement.Declares "key" ∨ statement.Imports "key" := by
  have shaped := isStatement_of_mem_mixedStatements
  have found : Tree.scopeOf mixedStatements
      = ["Button", "Glyph", "a", "b", "Hoisted", "item", "Panel"] := by decide
  refine ⟨shaped, found, ?_, ?_, ?_⟩
  · refine (mem_scopeOf_iff shaped "item").1.mp ?_
    rw [found]
    decide
  · intro hoists
    have below := (mem_scopeOf_iff shaped "Scoped").1.mpr (.inl hoists)
    rw [found] at below
    exact absurd below (by decide)
  · intro declares
    have key := (mem_scopeOf_iff shaped "key").1.mpr (.inr declares)
    rw [found] at key
    exact absurd key (by decide)

end JsxLowering
