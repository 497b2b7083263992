import JsxLowering.Proofs.StatementShapes
import JsxLowering.Source.Parser

/-!
# Shapes of parsed modules

The grammar is sound: whatever it reads for a goal is of the kind of the goal, with shaped nodes. So
the facts on scopes hold of every module that a source spells, with no condition on its tree.
-/

namespace JsxLowering

open JsxLowering.Tree (IsInert IsStatement IsDeclaration)

/-- An export holds a declaration. -/
theorem Shaped.exportItem {declaration : Tree} (h : Shaped IsDeclaration declaration) :
    Shaped IsStatement (.node .exportItem [declaration]) :=
  ⟨.exportItem h.is, Tree.isShaped_of_isFree rfl (List.forall_mem_singleton.mpr h.shaped)⟩

/-- A default export holds a declaration or a value. -/
theorem Shaped.exportDefault {declaration : Tree} (h : Shaped IsDeclaration declaration) :
    Shaped IsStatement (.node .exportDefault [declaration]) :=
  ⟨.exportDefault h.is, Tree.isShaped_of_isFree rfl (List.forall_mem_singleton.mpr h.shaped)⟩

namespace Source

variable {self : Grammar} {mode : Mode}

/-! ## Imports -/

/-- A name in a list may be reserved or quoted, for it is no name of a value. -/
theorem gives_listedName : Gives listedName (Shaped IsInert) :=
  .skip fun _ => .ite gives_quotedValue (.skip fun _ => .pure .leaf)

/-- What is asked of a module is kept as text around a key and a value. -/
theorem gives_demand : Gives demand (Shaped IsInert) := by
  refine .bind gives_listedName fun key hk => .skip fun _ => ?_
  refine .bind gives_quotedValue fun value hv => ?_
  exact .pure (.node rfl (by simp [hk.shaped, hv.shaped]))

/-- A module is named by a text, and what is asked of it stands around that text. -/
theorem gives_moduleSource : Gives moduleSource (Shaped Tree.IsModuleText) := by
  refine .bind gives_quoted fun source hs => ?_
  obtain ⟨text, rfl⟩ := hs
  refine .skip fun lead => ?_
  split
  · refine .skip fun _ => .bind (.list _ gives_demand) fun demands hd => ?_
    split
    · exact .pure ⟨.demanding, Tree.isShaped_of_isFree rfl (by simp)⟩
    · refine .pure ⟨.demanding, Tree.isShaped_of_isFree rfl ?_⟩
      exact List.forall_mem_cons.mpr ⟨Tree.isShaped_leaf, Shaped.all hd⟩
  · exact .pure ⟨.plain, Tree.isShaped_leaf⟩

theorem gives_fromClause : Gives fromClause (Shaped Tree.IsModuleText) :=
  .skip fun _ => gives_moduleSource

/-- An import gives a plain name to what it imports. -/
theorem gives_importSpecifier : Gives (importSpecifier mode) (Shaped Tree.IsSpecifier) := by
  refine .skip fun typeOnly => .bind gives_listedName fun imported hi => .skip fun _ => .ite ?_ ?_
  · refine .skip fun name => .pure ⟨.importName, Tree.isShaped_of_isFree rfl ?_⟩
    simp [hi.shaped]
  · split
    · exact .skip fun _ => .pure ⟨.importName, Tree.isShaped_of_isFree rfl (by simp)⟩
    · exact .failure

/-- Names in braces, or one name for all of a module. -/
theorem gives_importList : Gives (importList mode)
    fun found => ∀ specifier ∈ found, Shaped Tree.IsSpecifier specifier := by
  refine .skip fun _ => .ite (.skip fun _ => .skip fun name => .pure ?_) (.skip fun _ => ?_)
  · exact List.forall_mem_singleton.mpr ⟨.importAll, Tree.isShaped_of_isFree rfl (by simp)⟩
  · exact .list _ gives_importSpecifier

/-- A default import comes first in its clause. -/
theorem gives_importClause : Gives (importClause mode)
    fun found => ∀ specifier ∈ found, Shaped Tree.IsSpecifier specifier := by
  refine .skip fun _ => .ite (.skip fun name => .skip fun _ => ?_) gives_importList
  have first : Shaped Tree.IsSpecifier (.node .importDefault [.identifier name]) :=
    ⟨.importDefault, Tree.isShaped_of_isFree rfl (by simp)⟩
  refine .ite (.bind gives_importList fun rest hr => ?_) ?_
  · exact .pure (List.forall_mem_cons.mpr ⟨first, hr⟩)
  · exact .pure (List.forall_mem_singleton.mpr first)

/-- The source comes last in an import, after its specifiers. -/
theorem gives_importFromWith (lead : String) :
    Gives (importFromWith mode lead) (Shaped IsStatement) := by
  refine .bind gives_importClause fun specifiers hc => .bind gives_fromClause fun source hs => ?_
  refine .skip fun _ => .pure ⟨.importFrom (fun part hm => (hc part hm).is) hs.is, ?_⟩
  refine Tree.isShaped_of_isFree rfl (List.forall_mem_append.mpr ⟨Shaped.all hc, ?_⟩)
  exact List.forall_mem_singleton.mpr hs.shaped

/-- The word of a phase changes nothing in the clause after it. -/
theorem gives_importPhase : Gives (importPhase mode) (Shaped IsStatement) := by
  refine .skip fun phase => .ite (.skip fun _ => .skip fun _ => ?_) ?_
  · exact gives_importFromWith phase
  · exact .skip fun _ => .skip fun _ => gives_importFromWith phase

/-- An alias of a module is kept as text, so it declares no name here. -/
theorem gives_importEquals : Gives (importEquals mode) (Shaped IsInert) := by
  refine .skip fun _ => .skip fun name => .skip fun _ => ?_
  refine .bind (.orElse (.skip fun _ => .skip fun _ => ?_) (.skip fun _ => .pure .verse))
    fun tree ht => .skip fun _ => .pure ht
  refine .bind gives_quotedValue fun source hs => .skip fun _ => ?_
  exact .pure (.node rfl (by simp [hs.shaped]))

/-- An import has a clause of specifiers, or none. -/
theorem gives_importItem : Gives (importItem mode) (Shaped IsStatement) := by
  have equals (lead : String) :
      Gives (do let tree ← importEquals mode; pure (.listing lead "" "" [tree]))
        (Shaped IsStatement) := by
    refine .bind gives_importEquals fun tree ht => .pure ?_
    exact (Shaped.listing (by simp [ht.shaped])).imp IsInert.isStatement
  refine .skip fun _ => .skip fun _ => .ite ?_ (.orElse (equals _) ?_)
  · refine .bind gives_moduleSource fun source hs => .skip fun _ => ?_
    have none : ∀ specifier ∈ ([] : List Tree), specifier.IsSpecifier := List.forall_mem_nil _
    exact .pure ⟨.importFrom none hs.is, Tree.isShaped_of_isFree rfl (by simp [hs.shaped])⟩
  · refine .orElse (.skip fun _ => equals _) (.orElse ?_ ?_)
    · exact .skip fun _ => .skip fun _ => gives_importFromWith _
    · exact .orElse gives_importPhase (gives_importFromWith _)

/-! ## Exports -/

theorem gives_exportSpecifier : Gives (exportSpecifier mode) (Shaped IsInert) := by
  refine .skip fun typeOnly => .bind gives_listedName fun name hn => .skip fun _ => .ite ?_ ?_
  · refine .bind gives_listedName fun exported he => ?_
    exact .pure (.node rfl (by simp [hn.shaped, he.shaped]))
  · exact .pure (.node rfl (by simp [hn.shaped]))

/-- An export list declares nothing: it names what is declared elsewhere. -/
theorem gives_exportListFrom (typeOnly : Bool) :
    Gives (exportListFrom mode typeOnly) (Shaped IsInert) := by
  refine .skip fun _ => .bind (.list _ gives_exportSpecifier) fun names hn => .skip fun _ => ?_
  refine .ite (.bind gives_fromClause fun source hs => .skip fun _ => ?_) (.skip fun _ => ?_)
  · refine .pure (.node rfl (List.forall_mem_append.mpr ⟨Shaped.all hn, ?_⟩))
    exact List.forall_mem_singleton.mpr hs.shaped
  · exact .skip fun _ => .pure (.node rfl (Shaped.all hn))

theorem gives_exportAllFrom (typeOnly : Bool) :
    Gives (exportAllFrom typeOnly) (Shaped IsInert) := by
  refine .skip fun _ => .skip fun _ => .choose gives_listedName (.pure .leaf) fun name hn => ?_
  refine .bind gives_fromClause fun source hs => .skip fun _ => ?_
  exact .pure (.node rfl (by simp [hn.shaped, hs.shaped]))

/-- The default export is a declaration, whose name may be left out, or a value. -/
theorem gives_exportDefaultFrom (h : self.IsSound) :
    Gives (exportDefaultFrom self mode) (Shaped IsStatement) := by
  have exported (value : Tree) (hv : Shaped IsDeclaration value) :
      Gives (pure (.node .exportDefault [value])) (Shaped IsStatement) :=
    .pure (Shaped.exportDefault hv)
  have function : Gives (functionDeclaration self mode false) (Shaped IsDeclaration) :=
    gives_functionDeclaration h false
  have classes : Gives (classDeclaration self mode false) (Shaped IsDeclaration) :=
    (gives_classDeclaration h false).weaken fun _ => Tree.IsClassOf.isDeclaration
  refine .skip fun _ => .skip fun next => .skip fun _ => .ite (.bind function exported) ?_
  refine .ite (.bind classes exported) (.ite ?_ ?_)
  · exact .bind (gives_decoratedDeclaration h false) exported
  refine .bind (.orElse (.skip fun _ => function) (.orElse (.skip fun _ => classes) ?_)) exported
  refine .orElse (.skip fun _ => (gives_interfaceOf h).weaken fun _ => .inert) ?_
  exact .bind (h.value _ _ rfl) fun value hv => .skip fun _ => .pure (hv.imp .inert)

theorem gives_exportEquals (h : self.IsSound) :
    Gives (exportEquals self mode) (Shaped IsInert) := by
  refine .skip fun _ => .skip fun _ => .bind (h.value _ _ rfl) fun value hv => .skip fun _ => ?_
  exact .pure (.node rfl (by simp [hv.shaped]))

theorem gives_exportNamespace : Gives (exportNamespace mode) (Shaped IsInert) :=
  .skip fun _ => .skip fun _ => .skip fun _ => .skip fun _ => .skip fun _ => .pure .verse

theorem gives_exportImport : Gives (exportImport mode) (Shaped IsInert) := by
  refine .skip fun _ => .bind gives_importEquals fun tree ht => ?_
  exact .pure (.listing (by simp [ht.shaped]))

/-- An export lists names, or holds a declaration. -/
theorem gives_exportItem (h : self.IsSound) :
    Gives (exportItem self mode) (Shaped IsStatement) := by
  refine .skip fun _ => .skip fun _ => .ite (gives_exportDefaultFrom h) ?_
  refine .skip fun _ => .ite (gives_exportAllFrom false).ofInert ?_
  refine .skip fun _ => .ite (gives_exportListFrom false).ofInert (.orElse ?_ ?_)
  · refine .skip fun _ => .skip fun _ => .skip fun _ => ?_
    exact .ite (gives_exportAllFrom true).ofInert (gives_exportListFrom true).ofInert
  refine .orElse (gives_exportEquals h).ofInert (.orElse gives_exportNamespace.ofInert ?_)
  refine .orElse gives_exportImport.ofInert ?_
  have decorated : Gives (decoratedDeclaration self mode true) (Shaped IsDeclaration) :=
    gives_decoratedDeclaration h true
  refine .bind (.orElse (gives_ambientDeclaration h) (.orElse (gives_declaration h)
    (.skip fun _ => .skip fun _ => decorated))) fun inner hi => .skip fun _ => .pure ?_
  exact Shaped.exportItem hi

section
variable {decorators : List Tree} {tree : Tree}

/-- What is exported as a statement is a declaration. -/
theorem isDeclaration_of_exported {form : Form} (hf : form = .exportItem ∨ form = .exportDefault)
    (h : (Tree.node form [tree]).IsStatement) : tree.IsDeclaration := by
  rcases hf with rfl | rfl
  all_goals
    cases h
    case compound holds _ _ => cases holds
    case declaration h =>
      -- an export is no declaration itself
      cases h
      case inert h =>
        cases h
        case node h => cases h
    assumption

/-- Decorators before a class that is exported, as a declaration or as a value. -/
theorem shaped_decorateExportedClass {declared : Bool} {modifiers : List String}
    {parts : List Tree} (hd : AreDecorators decorators)
    (h : Shaped IsDeclaration (.node (.classForm declared modifiers) parts)) :
    Shaped IsDeclaration (decorate decorators (.node (.classForm declared modifiers) parts)) := by
  obtain ⟨kind, shaped⟩ := h
  cases kind with
  | classForm own => exact shaped_decorateClass hd ⟨.mk own, shaped⟩
  | inert inert => exact (shaped_decorateValue hd ⟨inert, shaped⟩).imp .inert

/-- Decorators before an exported class keep the export a statement. -/
theorem shaped_decorateExported {result : Tree} (hd : AreDecorators decorators)
    (ht : Shaped IsStatement tree) (hr : decorateExported decorators tree = some result) :
    Shaped IsStatement result := by
  unfold decorateExported at hr
  split at hr
  · cases hr
    have inner := List.forall_mem_singleton.mp (Tree.isShaped_node.mp ht.shaped).2
    have declared := isDeclaration_of_exported (.inl rfl) ht.is
    exact (shaped_decorateExportedClass hd ⟨declared, inner⟩).exportItem
  · cases hr
    have inner := List.forall_mem_singleton.mp (Tree.isShaped_node.mp ht.shaped).2
    have declared := isDeclaration_of_exported (.inr rfl) ht.is
    exact (shaped_decorateExportedClass hd ⟨declared, inner⟩).exportDefault
  · cases hr

end

/-- Decorators before an export are those of the class in it. -/
theorem gives_decoratedExport (h : self.IsSound) :
    Gives (decoratedExport self mode) (Shaped IsStatement) := by
  refine .bind (gives_decorators h) fun decorators hd => ?_
  refine .bind (gives_exportItem h) fun tree ht => ?_
  split
  · next result hr => exact .pure (shaped_decorateExported hd ht hr)
  · exact .failure

/-- An item of a module is a statement. -/
theorem gives_item (h : self.IsSound) : Gives (item self mode) (Shaped IsStatement) := by
  refine .skip fun next => ?_
  split
  · exact .orElse gives_importItem (h.statement mode false)
  · exact gives_exportItem h
  · exact .orElse (.skip fun _ => .skip fun _ => gives_decoratedExport h) (h.statement mode false)

/-! ## The grammar -/

/-- A reader of all goals is sound if the reader of the goals in them is. -/
theorem gives_goalReader (h : self.IsSound) (goal : Goal) :
    Gives (goalReader self mode goal) (Shaped goal.kind) := by
  cases goal with
  | expression => exact gives_expression h
  | assignment => exact gives_assignment h
  | operand level => exact gives_operand h level
  | unary => exact gives_unary h
  | callee => exact gives_leftHand h false
  | classLiteral => exact (gives_classFrom h false false []).weaken fun _ => Tree.IsClassOf.isInert
  | statement nested => exact gives_statement h nested
  | item => exact gives_item h
  | binding => exact gives_binding h
  | typeExpression => exact gives_typeExpression h
  | typeOperator => exact gives_typeOperator h
  | markup => exact gives_markup h

/-- The grammar is sound at every depth. -/
theorem isSound_grammar (depth : Nat) : (grammar depth).IsSound := by
  induction depth with
  | zero =>
    intro mode goal
    rw [grammar_zero]
    exact .failure
  | succ depth ih =>
    intro mode goal
    rw [grammar_succ]
    exact gives_goalReader ih goal

/-- The items of a module are statements. -/
theorem gives_moduleItems (mode : Mode) : Gives (moduleItems mode)
    fun found => ∀ item ∈ found, Shaped IsStatement item :=
  fun cs => gives_statementsFrom ((isSound_grammar _).item mode) true (cs.length + 1) cs

/-- A module that a source spells consists of statements, and all nodes of its tree are shaped. -/
theorem shaped_module? {typescript : Bool} {source : String} {program : Tree}
    (h : module? typescript source = some program) :
    ∃ launcher statements, program = .node (.program launcher) statements
      ∧ (∀ statement ∈ statements, statement.IsStatement) ∧ program.IsShaped := by
  obtain ⟨⟨statements, rest⟩, hs, h⟩ := Option.bind_eq_some_iff.mp h
  obtain ⟨-, heq⟩ := Option.ite_none_right_eq_some.mp h
  cases heq
  have items := gives_moduleItems _ _ _ _ hs
  refine ⟨_, statements, rfl, fun statement hm => (items statement hm).is, ?_⟩
  refine Tree.isShaped_node.mpr ⟨?_, Shaped.all items⟩
  exact Node.isShaped_of_statements nofun rfl rfl fun statement hm => (items statement hm).is

/-- Every node of an expression that a source spells is shaped. -/
theorem shaped_expression? {source : String} {tree : Tree} (h : expression? source = some tree) :
    Shaped IsInert tree := by
  obtain ⟨⟨found, rest⟩, hf, h⟩ := Option.bind_eq_some_iff.mp h
  obtain ⟨-, heq⟩ := Option.ite_none_right_eq_some.mp h
  cases heq
  exact (isSound_grammar _).value _ _ rfl _ _ _ hf

end Source

/-! ## Scopes of parsed modules -/

namespace SourceUnit

variable {sourceUnit : SourceUnit} {options : Options} {program : Tree}

/-- All nodes of the module that a unit spells are shaped, and so are those around its elements. -/
theorem isShaped_of_read? (h : sourceUnit.read? options = some program) :
    program.IsShaped ∧ ∀ p ∈ program.placed [], ∀ node ∈ p.around, node.IsShaped := by
  obtain ⟨launcher, statements, -, -, shaped⟩ := Source.shaped_module? h
  exact ⟨shaped, Tree.forall_around program [] shaped (List.forall_mem_nil _)⟩

/-- In the module that a unit spells, the names of the statement list of a node are those that some
statement of the list hoists, declares or imports. -/
theorem mem_scopeOf_of_read? (h : sourceUnit.read? options = some program) {node : Node}
    (hn : node ∈ program.nodes) (name : String) :
    name ∈ Tree.scopeOf node.statements
      ↔ (∃ statement ∈ node.statements, statement.Hoists name)
        ∨ ∃ statement ∈ node.statements, statement.Declares name ∨ statement.Imports name :=
  mem_scopeOf_statements ((isShaped_of_read? h).1 node hn).statements name

/-- In the module that a unit spells, the scope of a function binds what its parameters bind, a rest
parameter apart, the names of its body and its own name. -/
theorem mem_scope_of_read? (h : sourceUnit.read? options = some program) {node : Node}
    (hn : node ∈ program.nodes) (hf : node.form.isFunction) :
    ∃ scope, node.scope? = some scope
      ∧ ∀ name, name ∈ scope
          ↔ node.BindsPositionally name
            ∨ (∃ statement ∈ node.statements, statement.Hoists name)
            ∨ (∃ statement ∈ node.statements, statement.Declares name ∨ statement.Imports name)
            ∨ node.IsNamed name := by
  have shaped := (isShaped_of_read? h).1 node hn
  obtain ⟨scope, found, names⟩ := (shaped.function hf).scope_eq
  refine ⟨scope, found, fun name => ?_⟩
  rw [names, mem_scopeOf_statements shaped.statements, or_assoc]

end SourceUnit

end JsxLowering
