import JsxLowering.Proofs.ExpressionShapes
import JsxLowering.Source.Statement

/-!
# Shapes of classes, declarations and statements

A declaration declares what `Tree.IsDeclaration` says, and a statement has statements where its form
has places for them and inert trees elsewhere.
-/

namespace JsxLowering

open JsxLowering.Tree (IsInert IsPattern IsStatement IsDeclaration)

/-- A class, with a name or without. -/
inductive Tree.IsClassOf (declaration : Bool) : Tree → Prop
  | mk {modifiers : List String} {own : Tree} {parts : List Tree} (h : own.IsOptionalName) :
    IsClassOf declaration (.node (.classForm declaration modifiers) (own :: parts))

section
variable {tree : Tree} {statements : List Tree}

/-- A class that declares its name is a declaration. -/
theorem Tree.IsClassOf.isDeclaration (h : tree.IsClassOf true) : tree.IsDeclaration := by
  obtain ⟨h⟩ := h
  exact .classForm h

/-- A class that is a value gives its name to nothing around it. -/
theorem Tree.IsClassOf.isInert (h : tree.IsClassOf false) : tree.IsInert := by
  obtain ⟨h⟩ := h
  exact .node rfl

theorem Shaped.absent : Shaped IsStatement .absent := Shaped.leaf.imp IsInert.isStatement

/-- A static block is inert to the class around it and holds statements. -/
theorem Shaped.staticBlock (h : ∀ statement ∈ statements, Shaped IsStatement statement) :
    Shaped IsInert (.node .staticBlock statements) := by
  refine ⟨.node rfl, Tree.isShaped_node.mpr ⟨?_, Shaped.all h⟩⟩
  exact Node.isShaped_of_statements nofun rfl rfl fun statement hm => (h statement hm).is

/-- A block is a statement that holds statements. -/
theorem Shaped.block (h : ∀ statement ∈ statements, Shaped IsStatement statement) :
    Shaped IsStatement (.node .block statements) := .compound rfl (fun _ hm => .inl hm) h

end

namespace Source

variable {self : Grammar} {mode : Mode}

/-! ## Classes -/

/-- The key of a member is private or like that of any property. -/
theorem gives_memberKey (h : self.IsSound) :
    Gives (memberKey self mode) fun found => Shaped IsInert found.1 := by
  refine .skip fun _ => .ite (.skip fun name => .skip fun _ => ?_) (gives_propertyKey h)
  exact .pure .leaf

theorem gives_staticBlock (h : self.IsSound) : Gives (staticBlock self mode) (Shaped IsInert) := by
  refine .skip fun _ => .skip fun _ => ?_
  exact .bind (.items _ (h.statement _ false)) fun statements hs => .pure (.staticBlock hs)

section
variable {key : Tree}

/-- A field has its key, its type and its value, of which the last two may be absent. -/
theorem gives_field (h : self.IsSound) (modifiers : List String) (hk : Shaped IsInert key)
    (computed : Bool) : Gives (field self mode modifiers key computed) (Shaped IsInert) := by
  refine .skip fun mark => .bind (gives_typeAfterColon h) fun type ht => .skip fun _ => ?_
  refine .choose (h.value _ _ rfl) (.pure .leaf) fun value hv => .skip fun _ => ?_
  exact .pure (.node rfl (by simp [hk.shaped, ht.shaped, hv.shaped]))

/-- The mark of a method that may be absent is kept as text around its key. -/
theorem shaped_optionalKey (hk : Shaped IsInert key) (computed : Bool) :
    Shaped IsInert (optionalKey key computed) := by
  unfold optionalKey
  split
  · exact .listing (by simp [hk.shaped])
  · exact .listing (by simp [hk.shaped])

end

/-- An index signature is kept as text around its key and its type. -/
theorem gives_indexSignature (h : self.IsSound) :
    Gives (indexSignature self mode) (Shaped IsInert) := by
  refine .skip fun _ => .skip fun modifiers => .bind (gives_indexKey h) fun key hk => ?_
  refine .skip fun _ => .bind (h.value _ _ rfl) fun type ht => .skip fun _ => ?_
  exact .pure (.listing (by simp [hk.shaped, ht.shaped]))

/-- A member is an accessor, a method or a field. -/
theorem gives_namedMember (h : self.IsSound) : Gives (namedMember self mode) (Shaped IsInert) := by
  refine .skip fun modifiers => .skip fun found => ?_
  split
  · refine .bind (gives_memberKey h) fun key hk => .skip fun _ => ?_
    refine .bind (gives_accessorFrom h _) fun value hv => ?_
    exact .pure (.node rfl (by simp [hk.shaped, hv.shaped]))
  · refine .skip fun marks => .bind (gives_memberKey h) fun key hk => .skip fun optional => ?_
    refine .skip fun _ => .ite (.skip fun _ => ?_) (.skip fun _ => gives_field h _ hk _)
    refine .bind (gives_method h) fun value hv => ?_
    refine .ite (.pure (.node rfl ?_)) (.pure (.node rfl ?_))
    · simp [(shaped_optionalKey hk _).shaped, hv.shaped]
    · simp [hk.shaped, hv.shaped]

/-- A member of a class is inert: it declares nothing in the list around the class. -/
theorem gives_classMember (h : self.IsSound) : Gives (classMember self mode) (Shaped IsInert) := by
  refine .skip fun _ => .ite (.pure .leaf) (.skip fun _ => .ite ?_ (.ite ?_ ?_))
  · refine .bind (gives_decorators h) fun decorators hd => .bind (gives_namedMember h) ?_
    exact fun member hm => .pure (shaped_decorateValue hd hm)
  · exact .orElse (gives_staticBlock h) (.orElse (gives_indexSignature h) (gives_namedMember h))
  · exact .orElse (gives_staticBlock h) (gives_namedMember h)

/-- Type parameters leave the name of a class what it is. -/
theorem gives_genericName (h : self.IsSound) {name : String} :
    Gives (genericName self mode (.identifier name)) (Shaped Tree.IsOptionalName) := by
  refine .skip fun _ => .ite (.bind (gives_typeParameters h) fun types ht => ?_) ?_
  · exact .pure ⟨.named .generic, Tree.isShaped_of_isFree rfl (by simp [ht.shaped])⟩
  · exact .pure .named

/-- What a class extends is a value, perhaps with type arguments. -/
theorem gives_superclass (h : self.IsSound) : Gives (superclass self mode) (Shaped IsInert) := by
  refine .skip fun _ => .ite (.bind (gives_leftHand h true) fun parent hp => .skip fun _ => ?_) ?_
  · refine .ite (.bind (gives_typeArguments h) fun types ht => ?_) (.pure hp)
    exact .pure (.node rfl (by simp [hp.shaped, ht.shaped]))
  · exact .pure .leaf

theorem gives_interfaces (h : self.IsSound) : Gives (interfaces self mode) (Shaped IsInert) := by
  refine .skip fun _ => .ite (.bind (.commas (gives_typeReference h)) fun types ht => ?_) ?_
  · exact .pure (.listing (Shaped.all ht))
  · exact .pure .leaf

/-- A class has its name first, or nothing in its place. -/
theorem gives_classFrom (h : self.IsSound) (declaration named : Bool) (modifiers : List String) :
    Gives (classFrom self mode declaration named modifiers)
      (Shaped (Tree.IsClassOf declaration)) := by
  have own : Gives (do let name ← valueName mode; genericName self mode name)
      (Shaped Tree.IsOptionalName) := by
    refine .bind gives_valueName fun name hn => ?_
    obtain ⟨text, rfl⟩ := hn
    exact gives_genericName h
  refine .skip fun _ => .skip fun _ => .skip fun _ => ?_
  refine .choose own (.pure .unnamed) fun name hn => ?_
  refine .bind (gives_superclass h) fun parent hp => .bind (gives_interfaces h) fun types ht => ?_
  refine .skip fun _ => .bind (.items _ (gives_classMember h)) fun members hm => .pure ?_
  refine ⟨.mk hn.is, Tree.isShaped_of_isFree rfl ?_⟩
  -- a semicolon between members leaves nothing
  have kept : ∀ member ∈ members.filter Tree.isPresent, member.IsShaped :=
    fun member hk => (hm member (List.mem_of_mem_filter hk)).shaped
  simpa only [List.forall_mem_cons] using ⟨hn.shaped, hp.shaped, ht.shaped, kept⟩

/-! ## Variables -/

/-- A declarator binds a pattern, which may be annotated. -/
theorem gives_declarator (h : self.IsSound) :
    Gives (declarator self mode) (Shaped Tree.IsDeclarator) := by
  refine .bind (h.binding mode) fun bound hb => .skip fun mark => ?_
  refine .bind (gives_typeAfterColon h) fun type ht => .skip fun _ => ?_
  refine .choose (h.value _ _ rfl) (.pure .leaf) fun value hv => .pure ?_
  have pattern : Shaped IsPattern
      (if type.isPresent then .node (.typed mark) [bound, type] else bound) := by
    split
    · exact ⟨.typed hb.is, Tree.isShaped_of_isFree rfl (by simp [hb.shaped, ht.shaped])⟩
    · exact hb
  exact ⟨⟨pattern.is⟩, Tree.isShaped_of_isFree rfl (by simp [pattern.shaped, hv.shaped])⟩

/-- Variables are declared by declarators, however they are declared. -/
theorem gives_variableList (h : self.IsSound) (kind : VariableKind) :
    Gives (variableList self mode kind) (Shaped IsDeclaration) := by
  refine .bind (.commas (gives_declarator h)) fun declarators hd => .skip fun _ => .pure ?_
  exact ⟨.variableList fun declarator hm => (hd declarator hm).is,
    Tree.isShaped_of_isFree rfl (Shaped.all hd)⟩

theorem gives_variableStatement (h : self.IsSound) (kind : VariableKind) :
    Gives (variableStatement self mode kind) (Shaped IsDeclaration) := by
  refine .bind (gives_variableList h kind) fun tree ht => .skip fun _ => .skip fun _ => ?_
  exact .pure ht

/-! ## Declarations of types -/

theorem gives_typeAlias (h : self.IsSound) : Gives (typeAlias self mode) (Shaped IsInert) := by
  refine .skip fun _ => .skip fun _ => .skip fun _ => .skip fun name => .skip fun _ => ?_
  refine .choose (gives_typeParameters h) (.pure .verse) fun types ht => .skip fun _ => ?_
  refine .bind (h.value _ _ rfl) fun type hy => .skip fun _ => ?_
  exact .pure (.node rfl (by simp [ht.shaped, hy.shaped]))

/-- An interface is kept as text around its parts, so it declares no name here. -/
theorem gives_interfaceOf (h : self.IsSound) : Gives (interfaceOf self mode) (Shaped IsInert) := by
  have extended : Gives (do
      let parents ← commas (typeReference self mode)
      pure (.listing " extends " ", " "" parents)) (Shaped IsInert) :=
    .bind (.commas (gives_typeReference h)) fun parents hp => .pure (.listing (Shaped.all hp))
  refine .skip fun _ => .skip fun name => .skip fun _ => ?_
  refine .choose (gives_typeParameters h) (.pure .verse) fun types ht => .skip fun _ => ?_
  refine .choose extended (.pure .verse) fun parents hp => .skip fun _ => ?_
  refine .bind (.items _ (gives_typeMember h)) fun members hm => .pure ?_
  have fenced : Shaped IsInert (.node (.fenced ";") members) := .node rfl (Shaped.all hm)
  exact .node rfl (by simp [ht.shaped, hp.shaped, fenced.shaped])

theorem gives_enumMember (h : self.IsSound) : Gives (enumMember self mode) (Shaped IsInert) := by
  refine .bind (gives_propertyKey h) fun key hk => .skip fun _ => .skip fun _ => .ite ?_ (.pure hk)
  refine .bind (h.value _ _ rfl) fun value hv => ?_
  exact .pure (.node rfl (by simp [hk.shaped, hv.shaped]))

/-- An enumeration is kept as text around its members, so it declares no name here. -/
theorem gives_enumOf (h : self.IsSound) : Gives (enumOf self mode) (Shaped IsInert) := by
  refine .skip fun constant => .skip fun _ => .skip fun name => .skip fun _ => ?_
  refine .bind (.list _ (gives_enumMember h)) fun members hm => .pure ?_
  have fenced : Shaped IsInert (.node (.fenced ",") members) := .node rfl (Shaped.all hm)
  exact .node rfl (by simp [fenced.shaped])

/-- A declaration of a type declares no name of a value. -/
theorem gives_typeDeclaration (h : self.IsSound) :
    Gives (typeDeclaration self mode) (Shaped IsInert) :=
  .skip fun _ => .orElse (gives_typeAlias h) (.orElse (gives_interfaceOf h) (gives_enumOf h))

/-! ## Declarations -/

/-- A function declaration is one with `async` and without. -/
theorem gives_functionDeclaration (h : self.IsSound) (named : Bool) :
    Gives (functionDeclaration self mode named) (Shaped IsDeclaration) := by
  have declared (async : Bool) :
      Gives (functionOf self mode .declaration async named) (Shaped IsDeclaration) :=
    (gives_functionOf h .declaration async named).weaken fun _ => Tree.IsFunctionOf.isDeclaration
  exact .skip fun _ => .ite (.skip fun _ => .skip fun _ => declared true) (declared false)

/-- A class declaration may be abstract. -/
theorem gives_classDeclaration (h : self.IsSound) (named : Bool) :
    Gives (classDeclaration self mode named) (Shaped (Tree.IsClassOf true)) := by
  refine .skip fun _ => .ite (.skip fun _ => .skip fun _ => ?_) ?_
  · exact gives_classFrom h true named _
  · exact gives_classFrom h true named _

theorem gives_headingName : Gives headingName (Shaped IsInert) :=
  .skip fun _ => .ite gives_quotedValue (.skip fun _ => .pure .verse)

/-- A namespace holds items like a module. -/
theorem gives_namespaceItems (h : self.IsSound) : Gives (namespaceItems self mode)
    fun found => ∀ tree ∈ found, Shaped IsStatement tree :=
  .skip fun _ cs => gives_statementsFrom (h.item mode) true (cs.length + 1) cs

/-- A namespace declares no name of a value, and what it holds does not leave it. -/
theorem gives_namespaceOf (h : self.IsSound) : Gives (namespaceOf self mode) (Shaped IsInert) := by
  refine .skip fun _ => .skip fun lead => .skip fun _ => .skip fun _ => .skip fun _ => ?_
  refine .bind gives_headingName fun name hn => .skip fun _ => .ite (.skip fun _ => ?_) ?_
  · exact .pure (.listing (by simp [hn.shaped]))
  · refine .bind (gives_namespaceItems h) fun statements hs => ?_
    exact .pure (.node rfl (List.forall_mem_cons.mpr ⟨hn.shaped, Shaped.all hs⟩))

theorem gives_globalBlock (h : self.IsSound) : Gives (globalBlock self mode) (Shaped IsInert) := by
  refine .skip fun _ => .skip fun _ => .bind (gives_namespaceItems h) fun statements hs => ?_
  exact .pure (.node rfl (List.forall_mem_cons.mpr ⟨Tree.isShaped_leaf, Shaped.all hs⟩))

/-- What an export may hold is a declaration or inert. -/
theorem gives_declaration (h : self.IsSound) :
    Gives (declaration self mode) (Shaped IsDeclaration) := by
  -- only functions, classes and variables declare names of values
  refine .orElse ((gives_typeDeclaration h).weaken fun _ => .inert) ?_
  refine .orElse (gives_functionDeclaration h true) ?_
  refine .orElse ((gives_classDeclaration h true).weaken fun _ => Tree.IsClassOf.isDeclaration) ?_
  refine .orElse ((gives_namespaceOf h).weaken fun _ => .inert) ?_
  refine .orElse ((gives_globalBlock h).weaken fun _ => .inert) (.skip fun kind => ?_)
  split
  · exact gives_variableStatement h _
  · exact .failure

/-- A declaration without a value declares what the declaration in it does. -/
theorem gives_ambientDeclaration (h : self.IsSound) :
    Gives (ambientDeclaration self mode) (Shaped IsDeclaration) := by
  refine .skip fun _ => .skip fun _ => .skip fun _ => .skip fun _ => ?_
  refine .bind (gives_declaration h) fun inner hi => .pure ⟨.ambient hi.is, ?_⟩
  exact Tree.isShaped_of_isFree rfl (by simp [hi.shaped])

/-! ## Statements with parts -/

theorem gives_condition (h : self.IsSound) : Gives (condition self mode) (Shaped IsInert) :=
  .skip fun _ => .bind (h.value _ _ rfl) fun _ ht => .skip fun _ => .pure ht

/-- Braces hold statements. -/
theorem gives_block (h : self.IsSound) : Gives (block self mode) (Shaped IsStatement) :=
  .skip fun _ => .bind (.items _ (h.statement _ false)) fun _ hs => .pure (.block hs)

/-- Both branches are statements; the second may be absent. -/
theorem gives_ifStatement (h : self.IsSound) :
    Gives (ifStatement self mode) (Shaped IsStatement) := by
  refine .skip fun _ => .bind (gives_condition h) fun test ht => ?_
  refine .bind (h.statement mode true) fun first hf => .skip fun _ => ?_
  refine .choose (h.statement mode true) (.pure .absent) fun second hs => .pure ?_
  exact .compound rfl (by simp [Form.substatements, ht]) (by simp [Form.substatements, hf, hs])

/-- A part of the head of a loop is a value or absent. -/
theorem gives_headPart (h : self.IsSound) (close : Char) :
    Gives (headPart self mode close) (Shaped IsInert) := by
  refine .skip fun _ => .ite (.pure .leaf) (.bind (h.value _ _ rfl) fun value hv => ?_)
  exact .skip fun _ => .pure hv

section
variable {start left : Tree}

/-- A counting loop starts with a declaration or a value and has a statement for its body. -/
theorem gives_forLoopFrom (h : self.IsSound) (hs : Shaped IsStatement start) :
    Gives (forLoopFrom self mode start) (Shaped IsStatement) := by
  refine .bind (gives_headPart h _) fun test ht => .bind (gives_headPart h _) fun update hu => ?_
  refine .bind (h.statement mode true) fun body hb => .pure ?_
  exact .compound rfl (by simp [Form.substatements, ht, hu]) (by simp [Form.substatements, hs, hb])

/-- On the left of `of` stands a declaration or a target. -/
theorem gives_forOfFrom (h : self.IsSound) (await : Bool) (hl : Shaped IsStatement left) :
    Gives (forOfFrom self mode await left) (Shaped IsStatement) := by
  refine .bind (h.value _ _ rfl) fun right hr => .skip fun _ => ?_
  refine .bind (h.statement mode true) fun body hb => .pure ?_
  exact .compound rfl (by simp [Form.substatements, hr]) (by simp [Form.substatements, hl, hb])

/-- On the left of `in` stands a declaration or a target. -/
theorem gives_forInFrom (h : self.IsSound) (hl : Shaped IsStatement left) :
    Gives (forInFrom self mode left) (Shaped IsStatement) := by
  refine .bind (h.value _ _ rfl) fun right hr => .skip fun _ => ?_
  refine .bind (h.statement mode true) fun body hb => .pure ?_
  exact .compound rfl (by simp [Form.substatements, hr]) (by simp [Form.substatements, hl, hb])

end

/-- A loop may start with a declaration, whose variables hoist out of it. -/
theorem gives_forDeclaration (h : self.IsSound) (await : Bool) (kind : VariableKind) :
    Gives (forDeclaration self mode await kind) (Shaped IsStatement) := by
  refine .bind (gives_variableList h kind) fun left hl => .skip fun _ => ?_
  have start := hl.imp IsStatement.declaration
  refine .ite (gives_forOfFrom h await start) (.skip fun _ => .ite (gives_forInFrom h start) ?_)
  exact .skip fun _ => .skip fun _ => gives_forLoopFrom h start

/-- A loop that starts with an expression assigns to it, or only counts. -/
theorem gives_forExpression (h : self.IsSound) (await : Bool) :
    Gives (forExpression self mode await) (Shaped IsStatement) := by
  refine .skip fun _ => .bind (h.value _ _ rfl) fun left hl => .skip fun _ => .ite ?_ ?_
  · exact .skip fun _ => gives_forLoopFrom h (hl.imp IsInert.isStatement)
  · split
    · next target ht =>
      have start := (hl.asTarget? ht).imp IsInert.isStatement
      refine .skip fun _ => .ite (.skip fun _ => gives_forOfFrom h await start) ?_
      exact .skip fun _ => gives_forInFrom h start
    · exact .failure

theorem gives_forStatement (h : self.IsSound) :
    Gives (forStatement self mode) (Shaped IsStatement) := by
  refine .skip fun _ => .skip fun await => .skip fun _ => .skip fun _ => .ite ?_ ?_
  · exact .skip fun _ => gives_forLoopFrom h .absent
  · refine .skip fun kind => ?_
    split
    · exact gives_forDeclaration h await _
    · exact gives_forExpression h await

theorem gives_whileStatement (h : self.IsSound) :
    Gives (whileStatement self mode) (Shaped IsStatement) := by
  refine .skip fun _ => .bind (gives_condition h) fun test ht => ?_
  refine .bind (h.statement mode true) fun body hb => .pure ?_
  exact .compound rfl (by simp [Form.substatements, ht]) (by simp [Form.substatements, hb])

theorem gives_doStatement (h : self.IsSound) :
    Gives (doStatement self mode) (Shaped IsStatement) := by
  refine .skip fun _ => .bind (h.statement mode true) fun body hb => .skip fun _ => ?_
  refine .bind (gives_condition h) fun test ht => .skip fun _ => .pure ?_
  exact .compound rfl (by simp [Form.substatements, ht]) (by simp [Form.substatements, hb])

/-- No name comes out of a statement in which the fields of an object are names. -/
theorem gives_withStatement (h : self.IsSound) :
    Gives (withStatement self mode) (Shaped IsInert) := by
  refine .skip fun _ => .bind (gives_condition h) fun object ho => ?_
  refine .bind (h.statement mode true) fun body hb => ?_
  exact .pure (.node rfl (by simp [ho.shaped, hb.shaped]))

/-- The statements of a case go on up to the next case. -/
theorem gives_caseBodyFrom (h : self.IsSound) (fuel : Nat) : Gives (caseBodyFrom self mode fuel)
    fun found => ∀ tree ∈ found, Shaped IsStatement tree := by
  induction fuel with
  | zero => exact .failure
  | succ fuel ih =>
    refine .skip fun _ => .skip fun _ => .ite (.pure (List.forall_mem_nil _)) ?_
    refine .bind (h.statement mode false) fun first hf => .bind ih fun rest hr => ?_
    exact .pure (List.forall_mem_cons.mpr ⟨hf, hr⟩)

/-- A case has its test first, or nothing in its place, and then statements. -/
theorem gives_caseClause (h : self.IsSound) :
    Gives (caseClause self mode) (Shaped IsStatement) := by
  have value : Gives (do word "case"; self mode.inside .expression) (Shaped IsInert) :=
    .skip fun _ => h.value _ _ rfl
  refine .skip fun _ => .choose (.pure .leaf) value fun test ht => .skip fun _ => ?_
  -- the test is the only part that is no statement
  refine .bind (fun cs => gives_caseBodyFrom h (cs.length + 1) cs) fun statements hs => .pure ?_
  exact .compound rfl (List.forall_mem_cons.mpr ⟨.inr ht, fun _ hm => .inl hm⟩) hs

/-- The cases of a switch are statements of its body. -/
theorem gives_switchStatement (h : self.IsSound) :
    Gives (switchStatement self mode) (Shaped IsStatement) := by
  refine .skip fun _ => .bind (gives_condition h) fun value hv => .skip fun _ => ?_
  refine .bind (.items _ (gives_caseClause h)) fun cases hc => .pure ?_
  exact .compound rfl (List.forall_mem_cons.mpr ⟨.inr hv, fun _ hm => .inl hm⟩) hc

/-- What an exception is bound to is inert here; the handler forms a scope for it. -/
theorem gives_handler (h : self.IsSound) : Gives (handler self mode) (Shaped IsStatement) := by
  have parameter : Gives (do
      let pattern ← self mode .binding
      let type ← typeAfterColon self mode
      mark ')'
      pure (if type.isPresent then .node (.typed "") [pattern, type] else pattern))
      (Shaped IsInert) := by
    refine .bind (h.binding mode) fun pattern hp => .bind (gives_typeAfterColon h) fun type ht => ?_
    refine .skip fun _ => .pure ?_
    split
    · exact .node rfl (by simp [hp.shaped, ht.shaped])
    · exact hp.imp IsPattern.isInert
  refine .skip fun _ => .skip fun _ => .choose parameter (.pure .leaf) fun caught hc => ?_
  refine .bind (gives_block h) fun body hb => .pure ?_
  exact .compound rfl (by simp [Form.substatements, hc]) (by simp [Form.substatements, hb])

/-- All three blocks of a `try` are statements, of which the last two may be absent. -/
theorem gives_tryStatement (h : self.IsSound) :
    Gives (tryStatement self mode) (Shaped IsStatement) := by
  refine .skip fun _ => .bind (gives_block h) fun body hb => .skip fun _ => ?_
  refine .choose (gives_handler h) (.pure .absent) fun caught hc => .skip fun _ => ?_
  refine .choose (gives_block h) (.pure .absent) fun last hl => .skip fun _ => .pure ?_
  exact .compound rfl (fun _ hm => .inl hm) (by simp [Form.substatements, hb, hc, hl])

/-! ## Simple statements -/

theorem gives_jumpStatement (text : String) :
    Gives (jumpStatement text) (Shaped IsInert) := by
  refine .skip fun _ => .skip fun _ => .skip fun _ => .ite (.skip fun label => ?_) ?_
  · exact .skip fun _ => .pure (.node rfl (by simp))
  · exact .skip fun _ => .pure (.node rfl (by simp))

/-- A function returns a value or nothing. -/
theorem gives_returnStatement (h : self.IsSound) :
    Gives (returnStatement self mode) (Shaped IsInert) := by
  refine .skip fun _ => .skip fun _ => .skip fun _ => ?_
  refine .choose (.pure .leaf) (h.value _ _ rfl) fun value hv => .skip fun _ => ?_
  exact .pure (.node rfl (by simp [hv.shaped]))

theorem gives_throwStatement (h : self.IsSound) :
    Gives (throwStatement self mode) (Shaped IsInert) := by
  refine .skip fun _ => .skip fun _ => .skip fun _ => .bind (h.value _ _ rfl) fun value hv => ?_
  exact .skip fun _ => .pure (.node rfl (by simp [hv.shaped]))

theorem gives_expressionStatement (h : self.IsSound) :
    Gives (expressionStatement self mode) (Shaped IsInert) := by
  refine .bind (h.value _ _ rfl) fun value hv => .skip fun _ => ?_
  exact .pure (.node rfl (by simp [hv.shaped]))

/-! ## All statements -/

section
variable {reader : Reader Tree}

/-- What is inert is read where a statement is. -/
theorem Gives.ofInert (h : Gives reader (Shaped IsInert)) : Gives reader (Shaped IsStatement) :=
  h.weaken fun _ => IsInert.isStatement

/-- A declaration is read where a statement is. -/
theorem Gives.ofDeclaration (h : Gives reader (Shaped IsDeclaration)) :
    Gives reader (Shaped IsStatement) := h.weaken fun _ => .declaration

/-- The declaration of a class is read where a statement is. -/
theorem Gives.ofClass (h : Gives reader (Shaped (Tree.IsClassOf true))) :
    Gives reader (Shaped IsStatement) := h.weaken fun _ hc => .declaration hc.isDeclaration

end

/-- A statement without a word of its own is labelled, a declaration of a type, or an expression. -/
theorem gives_otherStatement (h : self.IsSound) :
    Gives (otherStatement self mode) (Shaped IsStatement) := by
  refine .skip fun cs => ?_
  split
  · refine .skip fun _ => .bind (h.statement mode true) fun body hb => .pure ?_
    exact .compound rfl (fun _ hm => .inl hm) (by simp [Form.substatements, hb])
  · refine .ite ?_ (gives_expressionStatement h).ofInert
    refine .orElse (gives_typeDeclaration h).ofInert ?_
    refine .orElse (gives_ambientDeclaration h).ofDeclaration (.orElse ?_ ?_)
    · exact .skip fun _ => .skip fun _ => (gives_classDeclaration h true).ofClass
    · exact .orElse (gives_namespaceOf h).ofInert (gives_expressionStatement h).ofInert

/-- Words such as `let` may also be names, and then an expression starts with them. -/
theorem gives_variableOrOther (h : self.IsSound) (nested : Bool) :
    Gives (variableOrOther self mode nested) (Shaped IsStatement) := by
  refine .skip fun kind => ?_
  split
  · exact .skip fun _ => (gives_variableStatement h _).ofDeclaration
  · exact gives_otherStatement h

theorem gives_asyncStatement (h : self.IsSound) (nested : Bool) :
    Gives (asyncStatement self mode nested) (Shaped IsStatement) := by
  refine .skip fun _ => .ite (.skip fun _ => ?_) (gives_otherStatement h)
  exact (gives_functionDeclaration h true).ofDeclaration

/-- The declaration of a function is one, nested or not. -/
theorem gives_functionStatement (h : self.IsSound) (nested : Bool) :
    Gives (functionStatement self mode nested) (Shaped IsDeclaration) :=
  .bind (gives_functionDeclaration h true) fun _ ht => .skip fun _ => .pure ht

/-- Decorators keep the declaration of a class one. -/
theorem shaped_decorateClass {decorators : List Tree} {tree : Tree} (hd : AreDecorators decorators)
    (ht : Shaped (Tree.IsClassOf true) tree) :
    Shaped IsDeclaration (decorate decorators tree) := by
  unfold decorate
  split
  · exact ht.imp Tree.IsClassOf.isDeclaration
  · have parts := List.forall_mem_append.mpr
      ⟨Shaped.all hd.shaped, List.forall_mem_singleton.mpr ht.shaped⟩
    obtain ⟨own⟩ := ht.is
    exact ⟨.decorated (fun decorator hm => (hd.shaped decorator hm).is) own,
      Tree.isShaped_of_isFree rfl parts⟩

/-- The declaration of a class is one after decorators, too. -/
theorem gives_decoratedDeclaration (h : self.IsSound) (named : Bool) :
    Gives (decoratedDeclaration self mode named) (Shaped IsDeclaration) := by
  refine .bind (gives_decorators h) fun decorators hd => ?_
  exact .bind (gives_classDeclaration h named) fun tree ht => .pure (shaped_decorateClass hd ht)

/-- Whatever word a statement starts with, it has the parts that its form calls for. -/
theorem gives_statement (h : self.IsSound) (nested : Bool) :
    Gives (statement self mode nested) (Shaped IsStatement) := by
  refine .skip fun next => ?_
  split
  · exact gives_ifStatement h
  · exact gives_forStatement h
  · exact gives_whileStatement h
  · exact gives_doStatement h
  · exact (gives_withStatement h).ofInert
  · exact gives_switchStatement h
  · exact gives_tryStatement h
  · exact (gives_returnStatement h).ofInert
  · exact (gives_throwStatement h).ofInert
  · exact (gives_jumpStatement _).ofInert
  · exact (gives_jumpStatement _).ofInert
  · exact .skip fun _ => .skip fun _ => .pure ((Shaped.node rfl (by simp)).imp IsInert.isStatement)
  · exact (gives_functionStatement h nested).ofDeclaration
  · exact gives_asyncStatement h nested
  · exact .skip fun _ => (gives_classDeclaration h true).ofClass
  · exact gives_variableOrOther h nested
  · exact .orElse (.skip fun _ => (gives_enumOf h).ofInert) (gives_variableOrOther h nested)
  -- the words that declare variables only if something to bind follows
  iterate 3 exact gives_variableOrOther h nested
  · exact gives_otherStatement h
  · refine .skip fun _ => .ite (gives_block h) (.skip fun _ => .ite ?_ (.skip fun _ => .ite ?_ ?_))
    · exact .pure ((Shaped.node rfl (by simp)).imp IsInert.isStatement)
    · exact .skip fun _ => (gives_decoratedDeclaration h true).ofDeclaration
    · exact gives_otherStatement h

end Source

end JsxLowering
