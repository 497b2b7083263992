import JsxLowering.Proofs.TypeShapes

/-!
# Shapes of bindings and functions

What a declaration binds is a pattern, a parameter list holds parameters, and the body of a function
holds statements. So a function that is read has the parts that `Node.IsFunction` asks for.
-/

namespace JsxLowering

open JsxLowering.Tree (IsInert IsPattern IsStatement)

/-! ## Functions as trees -/

/-- A pattern, or the word `this` in place of one. -/
def Tree.IsBound (tree : Tree) : Prop := tree.IsPattern ∨ tree.IsReceiver

/-- Each part of a parameter list is a parameter. -/
def Tree.HoldsParameters (inputs : Tree) : Prop :=
  ∀ parameter ∈ inputs.parameterItems, parameter.IsParameter

/-- A function of a kind, with a name or without. -/
inductive Tree.IsFunctionOf (kind : FunctionKind) : Tree → Prop
  | mk {async generator : Bool} {own inputs content : Tree} (h : own.IsOptionalName) :
    IsFunctionOf kind (.node (.function kind async generator) [own, inputs, content])

/-- An arrow function. -/
inductive Tree.IsArrow : Tree → Prop
  | mk {async parenthesized : Bool} {inputs content : Tree} :
    IsArrow (.node (.arrow async parenthesized) [inputs, content])

section
variable {kind : FunctionKind} {tree own inputs content : Tree} {statements : List Tree}

theorem Tree.IsBound.isParameter (h : tree.IsBound) : tree.IsParameter :=
  h.elim .pattern .receiver

theorem Tree.IsFunctionOf.isDeclaration (h : tree.IsFunctionOf .declaration) :
    tree.IsDeclaration := by
  obtain ⟨h⟩ := h
  exact .function h

/-- A function that is no declaration gives its name to nothing around it. -/
theorem Tree.IsFunctionOf.isInert (h : tree.IsFunctionOf kind) (hk : kind ≠ .declaration) :
    tree.IsInert := by
  obtain ⟨h⟩ := h
  cases kind with
  | declaration => exact absurd rfl hk
  | expression => exact .node rfl
  | method => exact .node rfl

/-- An arrow function is a value. -/
theorem Tree.IsArrow.isInert (h : tree.IsArrow) : tree.IsInert := by
  obtain ⟨⟩ := h
  exact .node rfl

/-- Annotations around a parameter list leave its parameters as they are. -/
theorem Tree.HoldsParameters.annotated {types result : Tree} (h : inputs.HoldsParameters) :
    (Tree.node .signature [types, inputs, result]).HoldsParameters := by
  unfold Tree.HoldsParameters Tree.parameterItems
  split
  case h_1 heq => cases heq
  case h_2 heq =>
    cases heq
    exact h
  case h_3 => exact List.forall_mem_nil _

theorem Shaped.identifier {name : String} : Shaped IsPattern (.identifier name) :=
  ⟨.identifier, Tree.isShaped_leaf⟩

/-- A property of an object pattern binds what its pattern binds. -/
theorem Shaped.patternProperty {short computed : Bool} {key pattern : Tree} (hk : key.IsShaped)
    (hp : Shaped IsPattern pattern) :
    Shaped IsPattern (.node (.patternProperty short computed) [key, pattern]) :=
  ⟨.property hp.is, Tree.isShaped_of_isFree rfl (by simp [hk, hp.shaped])⟩

theorem Shaped.unnamed : Shaped Tree.IsOptionalName .absent := ⟨.absent, Tree.isShaped_leaf⟩

theorem Shaped.named {name : String} : Shaped Tree.IsOptionalName (.identifier name) :=
  ⟨.named .plain, Tree.isShaped_leaf⟩

/-- A body is shaped if it holds shaped statements. -/
theorem Tree.isShaped_body (h : ∀ statement ∈ statements, Shaped IsStatement statement) :
    (Tree.node .body statements).IsShaped := by
  refine Tree.isShaped_node.mpr ⟨⟨List.forall_mem_nil _, ?_, nofun, nofun⟩, Shaped.all h⟩
  exact fun _ statement hm => (h statement hm).is

/-- The statements in a shaped body are statements. -/
theorem Tree.isStatement_of_mem_body (h : (Tree.node .body statements).IsShaped) :
    ∀ statement ∈ statements, statement.IsStatement :=
  (Tree.isShaped_node.mp h).1.body rfl

/-- A function is shaped if its name, its parameters and its content are. -/
theorem Shaped.function {async generator : Bool} (ho : Shaped Tree.IsOptionalName own)
    (hi : Shaped Tree.HoldsParameters inputs) (hc : content.IsShaped) :
    Shaped (Tree.IsFunctionOf kind) (.node (.function kind async generator)
      [own, inputs, content]) := by
  refine ⟨.mk ho.is, Tree.isShaped_node.mpr ⟨⟨?_, nofun, ?_, nofun⟩, ?_⟩⟩
  · -- the statements of a function are those of its body
    unfold Node.statements
    split
    case h_3 heq =>
      cases heq
      exact Tree.isStatement_of_mem_body hc
    case h_7 => exact List.forall_mem_nil _
    all_goals
      next heq =>
      cases heq
  · exact fun _ => .function ho.is hi.is
  · simp [ho.shaped, hi.shaped, hc]

/-- An arrow function is shaped if its parameters and its content are, whether that is a body or an
expression. -/
theorem Shaped.arrow {async parenthesized : Bool} (hi : Shaped Tree.HoldsParameters inputs)
    (hc : content.IsShaped) :
    Shaped Tree.IsArrow (.node (.arrow async parenthesized) [inputs, content]) := by
  refine ⟨.mk, Tree.isShaped_node.mpr ⟨⟨?_, nofun, fun _ => .arrow hi.is, nofun⟩, ?_⟩⟩
  · unfold Node.statements
    -- an expression holds no statements, unlike a body
    split
    case h_4 heq =>
      cases heq
      exact Tree.isStatement_of_mem_body hc
    case h_7 => exact List.forall_mem_nil _
    all_goals
      next heq =>
      cases heq
  · simp [hi.shaped, hc]

end

namespace Source

variable {self : Grammar} {mode : Mode}

/-! ## Patterns -/

/-- A name is read as an identifier. -/
theorem gives_valueName : Gives (valueName mode) fun tree => ∃ name, tree = .identifier name :=
  .skip fun name => .skip fun _ => .pure ⟨name, rfl⟩

theorem gives_valueName_pattern : Gives (valueName mode) (Shaped IsPattern) := by
  refine gives_valueName.imp fun tree hn => ?_
  obtain ⟨name, rfl⟩ := hn
  exact .identifier

/-- A name may be the name of a function or a class. -/
theorem gives_valueName_own : Gives (valueName mode) (Shaped Tree.IsOptionalName) := by
  refine gives_valueName.imp fun tree hn => ?_
  obtain ⟨name, rfl⟩ := hn
  exact .named

theorem gives_valueName_value : Gives (valueName mode) (Shaped IsInert) :=
  gives_valueName_pattern.weaken fun _ => IsPattern.isInert

/-- A default keeps what the pattern before it is. -/
theorem gives_withDefault {kind : Tree → Prop} {pattern : Tree} (h : self.IsSound)
    (hp : Shaped kind pattern)
    (hd : ∀ value, kind pattern → kind (.node .defaultPattern [pattern, value])) :
    Gives (withDefault self mode pattern) (Shaped kind) := by
  refine .skip fun _ => .ite (.bind (h.value _ _ rfl) fun value hv => .pure ?_) (.pure hp)
  exact ⟨hd value hp.is, Tree.isShaped_of_isFree rfl (by simp [hp.shaped, hv.shaped])⟩

/-- Three dots keep what the pattern after them is. -/
theorem gives_restBinding {kind : Tree → Prop} {binding : Reader Tree}
    (hb : Gives binding (Shaped kind))
    (hr : ∀ pattern, kind pattern → kind (.node .rest [pattern])) :
    Gives (restBinding binding) (Shaped kind) := by
  refine .bind hb fun pattern hp => .skip fun _ => .skip fun _ => .pure ?_
  exact ⟨hr pattern hp.is, Tree.isShaped_of_isFree rfl (by simp [hp.shaped])⟩

/-- An element of an array pattern is a hole, a rest, or a pattern with a default. -/
theorem gives_elementBinding (h : self.IsSound) :
    Gives (elementBinding self mode) (Shaped IsPattern) := by
  refine .skip fun _ => .ite (.pure ⟨.absent, Tree.isShaped_leaf⟩) (.skip fun _ => .ite ?_ ?_)
  · exact gives_restBinding (h.binding mode) fun _ => .rest
  · exact .bind (h.binding mode) fun pattern hp => gives_withDefault h hp fun _ => .withDefault

/-- A key is inert, whether it is a name, a text, a number or computed. -/
theorem gives_propertyKey (h : self.IsSound) :
    Gives (propertyKey self mode) fun found => Shaped IsInert found.1 := by
  refine .skip fun _ => .ite (.bind (h.value _ _ rfl) fun key hk => ?_) (.skip fun _ => .ite ?_ ?_)
  · exact .skip fun _ => .pure hk
  · exact .bind gives_quotedValue fun key hk => .pure hk
  · refine .skip fun cs => ?_
    split
    · exact .skip fun _ => .pure .leaf
    · exact .bind gives_numeric fun key hk => .pure hk

/-- A property of an object pattern is a rest, a key with a pattern, or a name that is its own
key. -/
theorem gives_propertyBinding (h : self.IsSound) :
    Gives (propertyBinding self mode) (Shaped IsPattern) := by
  refine .skip fun _ => .ite ?_ (.skip fun start => .bind (gives_propertyKey h) fun found hk => ?_)
  · exact gives_restBinding gives_valueName_pattern fun _ => .rest
  · refine .skip fun _ => .ite (.bind (h.binding mode) fun bound hb => ?_) (.skip fun _ => ?_)
    · refine .bind (gives_withDefault h hb fun _ => .withDefault) fun pattern hp => ?_
      exact .pure (Shaped.patternProperty hk.shaped hp)
    · refine .bind gives_valueName_pattern fun name hn => ?_
      refine .bind (gives_withDefault h hn fun _ => .withDefault) fun pattern hp => ?_
      exact .pure (Shaped.patternProperty hn.shaped hp)

/-- What a declaration binds is a pattern. -/
theorem gives_binding (h : self.IsSound) : Gives (binding self mode) (Shaped IsPattern) := by
  refine .skip fun _ => .ite (.bind (.list _ (gives_elementBinding h)) fun elements he => ?_) ?_
  · exact .pure ⟨.array fun element hm => (he element hm).is,
      Tree.isShaped_of_isFree rfl (Shaped.all he)⟩
  · refine .skip fun _ => .ite ?_ gives_valueName_pattern
    refine .bind (.list _ (gives_propertyBinding h)) fun properties hp => ?_
    exact .pure ⟨.object fun property hm => (hp property hm).is,
      Tree.isShaped_of_isFree rfl (Shaped.all hp)⟩

/-! ## Parameters -/

/-- What a parameter binds is a pattern or the word `this`, with an annotation or without. -/
theorem gives_typedBinding (h : self.IsSound) :
    Gives (typedBinding self mode) (Shaped Tree.IsBound) := by
  have receiver : Gives (do let _ ← anyName; pure .this) (Shaped Tree.IsBound) :=
    .skip fun _ => .pure ⟨.inr .plain, Tree.isShaped_leaf⟩
  have pattern : Gives (self mode .binding) (Shaped Tree.IsBound) :=
    (h.binding mode).weaken fun _ => Or.inl
  refine .skip fun _ => .choose receiver pattern fun bound hb => .ite (.skip fun _ => ?_) (.pure hb)
  refine .bind (gives_typeAfterColon h) fun type ht => .ite (.pure ⟨?_, ?_⟩) (.pure hb)
  · exact hb.is.imp .typed .typed
  · exact Tree.isShaped_of_isFree rfl (by simp [hb.shaped, ht.shaped])

/-- Decorators keep a parameter what it is. -/
theorem shaped_decorateParameter {decorators : List Tree} {parameter : Tree}
    (hd : AreDecorators decorators) (hp : Shaped Tree.IsParameter parameter) :
    Shaped Tree.IsParameter (decorate decorators parameter) := by
  unfold decorate
  split
  · exact hp
  · have parts := List.forall_mem_append.mpr
      ⟨Shaped.all hd.shaped, List.forall_mem_singleton.mpr hp.shaped⟩
    obtain ⟨values, rfl, -⟩ := hd
    exact ⟨.decorated hp.is, Tree.isShaped_of_isFree rfl parts⟩

/-- A parameter keeps to one order: decorators, words, the pattern with its annotation, the
default. -/
theorem gives_parameter (h : self.IsSound) :
    Gives (parameter self mode) (Shaped Tree.IsParameter) := by
  refine .bind (gives_decorators h) fun decorators hd => .skip fun _ => .ite ?_ ?_
  · refine .skip fun _ => ?_
    refine (gives_restBinding (gives_typedBinding h) fun _ hp => ?_).weaken
      fun _ => Tree.IsBound.isParameter
    exact hp.imp .rest .rest
  · refine .skipEither fun found => .bind (gives_typedBinding h) fun bound hb => ?_
    refine .bind (gives_withDefault h hb fun _ hp => ?_) fun pattern hp => ?_
    · exact hp.imp .withDefault .withDefault
    refine .pure (shaped_decorateParameter hd ?_)
    have plain := hp.imp Tree.IsBound.isParameter
    split
    · exact plain
    · exact ⟨.modified plain.is, Tree.isShaped_of_isFree rfl (by simp [plain.shaped])⟩

/-- A list in parentheses holds parameters. -/
theorem gives_parameters (h : self.IsSound) :
    Gives (parameters self mode) (Shaped Tree.HoldsParameters) := by
  refine .skip fun _ => .bind (.list _ (gives_parameter h)) fun parameters hp => .pure ?_
  exact ⟨fun parameter hm => (hp parameter hm).is,
    Tree.isShaped_of_isFree rfl (Shaped.all hp)⟩

/-- A signature holds the parameters that stand in its parentheses. -/
theorem gives_signature (h : self.IsSound) :
    Gives (signature self mode) (Shaped Tree.HoldsParameters) := by
  refine .skip fun _ => .choose (gives_typeParameters h) (.pure .leaf) fun types ht => ?_
  refine .bind (gives_parameters h) fun inputs hi => ?_
  refine .bind (gives_typeAfterColon h) fun result hr => ?_
  refine .ite (.pure ⟨hi.is.annotated, ?_⟩) (.pure hi)
  exact Tree.isShaped_of_isFree rfl (by simp [ht.shaped, hi.shaped, hr.shaped])

/-! ## Bodies -/

/-- A list of statements holds what its reader gives, or a directive in place of a lone text. -/
theorem gives_statementsFrom {isEnd : Reader Bool} {statement : Reader Tree}
    (hs : Gives statement (Shaped IsStatement)) (leading : Bool) (fuel : Nat) :
    Gives (statementsFrom isEnd statement leading fuel) fun found =>
      ∀ tree ∈ found, Shaped IsStatement tree := by
  -- whether directives may still come changes on the way
  induction fuel generalizing leading with
  | zero => exact .failure
  | succ fuel ih =>
    refine .skip fun _ => .ite (.pure (List.forall_mem_nil _)) ?_
    refine .skip fun cs => .bind hs fun first hf => ?_
    split
    · refine .bind (ih leading) fun rest hr => .pure (List.forall_mem_cons.mpr ⟨?_, hr⟩)
      split
      · exact (Shaped.node rfl (by simp)).imp IsInert.isStatement
      · exact hf
    · exact .bind (ih false) fun rest hr => .pure (List.forall_mem_cons.mpr ⟨hf, hr⟩)

/-- The body of a function is shaped. -/
theorem gives_functionBody (h : self.IsSound) :
    Gives (functionBody self mode) Tree.IsShaped := by
  refine .skip fun _ => ?_
  refine .bind (fun cs => gives_statementsFrom (h.statement _ _) true (cs.length + 1) cs) ?_
  exact fun statements hs => .pure (Tree.isShaped_body hs)

/-! ## Functions -/

/-- A function has its name, its parameters, and a body unless it is only declared. -/
theorem gives_functionFrom (h : self.IsSound) (kind : FunctionKind) (async generator : Bool)
    {name : Tree} (hn : Shaped Tree.IsOptionalName name) :
    Gives (functionFrom self mode kind async generator name)
      (Shaped (Tree.IsFunctionOf kind)) := by
  refine .bind (gives_signature h) fun inputs hi => .skip fun _ => .ite (.skip fun _ => ?_) ?_
  · exact .pure (.function hn hi Tree.isShaped_leaf)
  · exact .bind (gives_functionBody h) fun body hb => .pure (.function hn hi hb)

/-- A function from its word on is one of the given kind. -/
theorem gives_functionOf (h : self.IsSound) (kind : FunctionKind) (async named : Bool) :
    Gives (functionOf self mode kind async named) (Shaped (Tree.IsFunctionOf kind)) := by
  refine .skip fun _ => .skip fun generator => .skip fun _ => ?_
  refine .choose gives_valueName_own (.pure .unnamed) fun name hn => ?_
  exact gives_functionFrom h kind async generator hn

end Source

end JsxLowering
