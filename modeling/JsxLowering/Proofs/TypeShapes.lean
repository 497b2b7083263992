import JsxLowering.Proofs.Readers

/-!
# Shapes of types and arguments

Types, template literals, arguments and decorators are inert: none of them is a declaration. Each
reader is treated on its own, given a sound reader for the goals it refers to.
-/

namespace JsxLowering

open JsxLowering.Tree (IsInert)

section
variable {kind : Tree → Prop} {trees : List Tree}

/-- Of the parts of a node only that they are shaped is needed. -/
theorem Shaped.all (h : ∀ tree ∈ trees, Shaped kind tree) : ∀ tree ∈ trees, tree.IsShaped :=
  fun tree hm => (h tree hm).shaped

/-- Text on its own has no parts. -/
theorem Shaped.verse {text : String} : Shaped IsInert (.verse text) :=
  .node rfl (List.forall_mem_nil _)

/-- A listing is text around its trees, or text on its own if there are none. -/
theorem Shaped.listing {start separator finish : String} (h : ∀ tree ∈ trees, tree.IsShaped) :
    Shaped IsInert (.listing start separator finish trees) := by
  cases trees with
  | nil => exact .verse
  | cons first rest => exact .node rfl h

end

namespace Source

variable {self : Grammar} {mode : Mode}

/-! ## Literals -/

/-- A number is read as a leaf. -/
theorem gives_numeric : Gives numeric (Shaped IsInert) := by
  intro cs value rest h
  obtain ⟨found, -, heq⟩ := Option.map_eq_some_iff.mp h
  cases heq
  exact .leaf

/-- A number that is kept as it is written is a leaf, too. -/
theorem gives_rawNumeric : Gives rawNumeric (Shaped IsInert) := by
  intro cs value rest h
  obtain ⟨found, -, heq⟩ := Option.map_eq_some_iff.mp h
  cases heq
  exact .leaf

/-- A string literal is read as a leaf with its text. -/
theorem gives_quoted : Gives quoted fun tree => ∃ text, tree = .string text := by
  intro cs value rest h
  obtain ⟨found, -, heq⟩ := Option.map_eq_some_iff.mp h
  cases heq
  exact ⟨_, rfl⟩

theorem gives_quotedValue : Gives quoted (Shaped IsInert) := by
  refine gives_quoted.imp fun tree hq => ?_
  obtain ⟨text, rfl⟩ := hq
  exact .leaf

/-- What stands between the pieces of a template literal is what the given reader gives. -/
theorem gives_templateFrom {between : Reader Tree} (hb : Gives between (Shaped IsInert))
    (fuel : Nat) : Gives (templateFrom between fuel) fun found =>
      ∀ value ∈ found.2, Shaped IsInert value := by
  induction fuel with
  | zero => exact .failure
  | succ fuel ih =>
    refine .skip fun cs => ?_
    split
    · exact .skip fun _ => .pure (List.forall_mem_nil _)
    · refine .skip fun _ => .bind hb fun value hv => .skip fun _ => .bind ih fun others ho => ?_
      exact .pure (List.forall_mem_cons.mpr ⟨hv, ho⟩)
    · exact .failure

/-- A template literal holds inert values between its pieces. -/
theorem gives_templateOf {between : Reader Tree} (hb : Gives between (Shaped IsInert))
    (tagged : Bool) : Gives (templateOf between tagged) (Shaped IsInert) := by
  refine .skip fun _ => ?_
  refine .bind (fun cs => gives_templateFrom hb (cs.length + 1) cs) fun found hf => ?_
  exact .skip fun _ => .pure (.node rfl (Shaped.all hf))

/-! ## Types -/

/-- Type arguments are a listing of types. -/
theorem gives_typeArguments (h : self.IsSound) :
    Gives (typeArguments self mode) (Shaped IsInert) := by
  refine .skip fun _ => .bind (.list _ (h.value _ _ rfl)) fun arguments ha => ?_
  exact .pure (.listing (Shaped.all ha))

/-- A type parameter is text around its bound and its default, of which either may be absent. -/
theorem gives_typeParameter (h : self.IsSound) :
    Gives (typeParameter self mode) (Shaped IsInert) := by
  refine .skip fun words => .skip fun name => .skip fun _ => ?_
  refine .choose (h.value _ _ rfl) (.pure .leaf) fun bound hb => .skip fun _ => ?_
  refine .choose (h.value _ _ rfl) (.pure .leaf) fun default hd => ?_
  beta_reduce
  split
  · exact .pure .verse
  · exact .pure (.node rfl (by simp [hb.shaped]))
  · exact .pure (.node rfl (by simp [hd.shaped]))
  · exact .pure (.node rfl (by simp [hb.shaped, hd.shaped]))

/-- Type parameters are a node of their own, with at least one part. -/
theorem gives_typeParameters (h : self.IsSound) :
    Gives (typeParameters self mode) (Shaped IsInert) := by
  refine .skip fun _ => .bind (.list _ (gives_typeParameter h)) fun parameters hp => ?_
  exact .skip fun _ => .pure (.node rfl (Shaped.all hp))

theorem gives_typeReference (h : self.IsSound) :
    Gives (typeReference self mode) (Shaped IsInert) := by
  refine .skip fun name => .skip fun _ => .skip fun _ => .ite ?_ (.pure .verse)
  refine .bind (gives_typeArguments h) fun arguments ha => ?_
  exact .pure (.node rfl (by simp [ha.shaped]))

/-- A parameter of a function type is a pattern or the word `this`, perhaps with a type. -/
theorem gives_typeInput (h : self.IsSound) : Gives (typeInput self mode) (Shaped IsInert) := by
  refine .skip fun rest => .skip fun _ => ?_
  refine .choose (.pure .leaf) ((h.binding _).weaken fun _ => Tree.IsPattern.isInert)
    fun pattern hp => .skip fun _ => .skip fun _ => .ite ?_ ?_
  · refine .bind (h.value _ _ rfl) fun type ht => ?_
    exact .pure (.node rfl (by simp [hp.shaped, ht.shaped]))
  · exact .pure (.node rfl (by simp [hp.shaped]))

theorem gives_indexKey (h : self.IsSound) : Gives (indexKey self mode) (Shaped IsInert) := by
  refine .skip fun _ => .skip fun name => .skip fun _ => .bind (h.value _ _ rfl) fun type ht => ?_
  exact .skip fun _ => .pure (.listing (by simp [ht.shaped]))

/-- Brackets hold an index with its type or the key itself. -/
theorem gives_bracketedKey (h : self.IsSound) :
    Gives (bracketedKey self mode) (Shaped IsInert) := by
  refine .orElse (gives_indexKey h) (.skip fun _ => .bind (h.value _ _ rfl) fun key hk => ?_)
  exact .skip fun _ => .pure (.listing (by simp [hk.shaped]))

theorem gives_typeMemberKey (h : self.IsSound) :
    Gives (typeMemberKey self mode) (Shaped IsInert) := by
  refine .skip fun _ => .ite (gives_bracketedKey h) (.skip fun _ => .ite gives_quotedValue ?_)
  refine .skip fun _ => .ite gives_rawNumeric (.skip fun _ => .skip fun _ => .ite ?_ ?_)
  · exact .pure .verse
  · exact .skip fun name => .pure .verse

/-- A member of an object type is text around its key and what follows it: parameters, a type, or
nothing. -/
theorem gives_typeMember (h : self.IsSound) : Gives (typeMember self mode) (Shaped IsInert) := by
  refine .skip fun writable => .skip fun getter => .skipEither fun setter => .skip fun _ => ?_
  refine .bind (gives_typeMemberKey h) fun key hk => .skip fun _ => .skip fun _ => ?_
  refine .choose (gives_typeParameters h) (.pure .verse) fun generic hg => ?_
  refine .bind ?_ fun member (hm : Shaped IsInert member) => .skip fun _ => .pure hm
  refine .skip fun _ => .ite (.bind (.list _ (gives_typeInput h)) fun inputs hi => ?_) ?_
  · have given : Shaped IsInert (.listing "(" ", " ")" inputs) := .listing (Shaped.all hi)
    refine .skip fun _ => .choose (h.value _ _ rfl) (.pure .leaf) fun result hr => ?_
    beta_reduce
    split
    · exact .pure (.node rfl (by simp [hk.shaped, hg.shaped, given.shaped]))
    · exact .pure (.node rfl (by simp [hk.shaped, hg.shaped, given.shaped, hr.shaped]))
  · refine .skip fun _ => .ite (.bind (h.value _ _ rfl) fun type ht => ?_) ?_
    · exact .pure (.node rfl (by simp [hk.shaped, ht.shaped]))
    · exact .pure (.node rfl (by simp [hk.shaped]))

/-! ## Mapped types -/

/-- A mapped type lists its keys and its type, each of which may be cut short. -/
theorem gives_mappedType (h : self.IsSound) : Gives (mappedType self mode) (Shaped IsInert) := by
  refine .skip fun _ => .skip fun writable => .skip fun _ => .skip fun name => .skip fun _ => ?_
  refine .bind (h.value _ _ rfl) fun range hr => .skip fun _ => ?_
  refine .choose (h.value _ _ rfl) (.pure .leaf) fun renamed hn => ?_
  refine .skip fun _ => .skip fun optional => .skip fun _ => ?_
  refine .choose (h.value _ _ rfl) (.pure .leaf) fun type ht => ?_
  refine .skip fun _ => .skip fun _ => .pure ?_
  have keys (lead : String) : Shaped IsInert (if renamed.isPresent
      then .listing lead " as " ("]" ++ optional) [range, renamed]
      else .listing lead "" ("]" ++ optional) [range]) := by
    split
    · exact .listing (by simp [hr.shaped, hn.shaped])
    · exact .listing (by simp [hr.shaped])
  split
  · exact .listing (by simp [(keys _).shaped, ht.shaped])
  · exact .listing (by simp [(keys _).shaped])

/-- An object type with one member is a listing, one with more a fenced list. -/
theorem gives_typeMembers (h : self.IsSound) : Gives (typeMembers self mode) (Shaped IsInert) := by
  refine .skip fun _ => .bind (.items _ (gives_typeMember h)) fun members hm => ?_
  split
  · exact .pure (.listing (Shaped.all hm))
  · exact .pure (.node rfl (Shaped.all hm))

/-- A function type is text around type parameters, parameters and the result. -/
theorem gives_functionType (h : self.IsSound) :
    Gives (functionType self mode) (Shaped IsInert) := by
  refine .skip fun _ => .skip fun _ => .skip fun _ => ?_
  refine .choose (gives_typeParameters h) (.pure .verse) fun generic hg => .skip fun _ => ?_
  refine .bind (.list _ (gives_typeInput h)) fun inputs hi => .skip fun _ => .skip fun _ => ?_
  refine .bind (h.value _ _ rfl) fun result hr => ?_
  have given : Shaped IsInert (.listing "(" ", " ")" inputs) := .listing (Shaped.all hi)
  exact .pure (.node rfl (by simp [hg.shaped, given.shaped, hr.shaped]))

theorem gives_tupleElement (h : self.IsSound) :
    Gives (tupleElement self mode) (Shaped IsInert) := by
  refine .skip fun _ => .skip fun named => .bind (h.value _ _ rfl) fun type ht => ?_
  exact .skip fun optional => .pure (.listing (by simp [ht.shaped]))

/-- A type of another module is text around the name of the module. -/
theorem gives_importedType (h : self.IsSound) :
    Gives (importedType self mode) (Shaped IsInert) := by
  refine .skip fun _ => .skip fun _ => .bind gives_quotedValue fun source hs => .skip fun _ => ?_
  refine .skip fun _ => .skipEither fun path => .skip fun _ => .skip fun _ => ?_
  refine .choose (gives_typeArguments h) (.pure .verse) fun arguments ha => ?_
  exact .pure (.node rfl (by simp [hs.shaped, ha.shaped]))

/-- The bound of an inferred type is a type, or absent. -/
theorem gives_inferredBound (h : self.IsSound) :
    Gives (inferredBound self mode) (Shaped IsInert) := by
  have bound : Gives (do
      word "extends"
      let bound ← self { mode with inExtends := true } .typeExpression
      ensure (mode.inExtends || !(← isNext '?'))
      pure bound) (Shaped IsInert) :=
    .skip fun _ => .bind (h.value _ _ rfl) fun bound hb => .skip fun _ => .skip fun _ => .pure hb
  refine .bind (.attempt bound) fun found hf => ?_
  cases found with
  | none => exact .pure .leaf
  | some bound => exact .pure (hf bound rfl)

theorem gives_inferredType (h : self.IsSound) :
    Gives (inferredType self mode) (Shaped IsInert) := by
  refine .skip fun _ => .skip fun name => .bind (gives_inferredBound h) fun bound hb => .pure ?_
  split
  · exact .listing (by simp [hb.shaped])
  · exact .verse

/-- Whatever word a type starts with, it is text around types. -/
theorem gives_namedType (h : self.IsSound) (name : String) :
    Gives (namedType self mode name) (Shaped IsInert) := by
  unfold namedType
  split
  · exact gives_functionType h
  · exact .orElse (gives_functionType h) (gives_typeReference h)
  · exact gives_importedType h
  -- the words that are types by themselves
  iterate 5 exact .skip fun _ => .pure .verse
  · exact .orElse (gives_inferredType h) (gives_typeReference h)
  -- the words that stand before another type
  iterate 5
    refine .orElse (.skip fun name => .skip fun _ => .skip fun _ => ?_) (gives_typeReference h)
    refine .bind (h.value _ _ rfl) fun type ht => ?_
    exact .pure (.listing (by simp [ht.shaped]))
  · exact .skip fun _ => gives_typeReference h

theorem gives_typeOperand (h : self.IsSound) :
    Gives (typeOperand self mode) (Shaped IsInert) := by
  refine .skip fun cs => ?_
  split
  · refine .orElse (gives_functionType h) (.skip fun _ => ?_)
    refine .bind (h.value _ _ rfl) fun type ht => ?_
    exact .skip fun _ => .pure (.listing (by simp [ht.shaped]))
  · exact gives_functionType h
  · refine .skip fun _ => .bind (.list _ (gives_tupleElement h)) fun types ht => ?_
    exact .pure (.listing (Shaped.all ht))
  · exact .orElse (gives_mappedType h) (gives_typeMembers h)
  · exact gives_templateOf (h.value _ _ rfl) false
  · refine .skip fun _ => .bind gives_rawNumeric fun value hv => ?_
    exact .pure (.listing (by simp [hv.shaped]))
  · refine .skip fun _ => .ite gives_quotedValue (.skip fun _ => .ite gives_rawNumeric ?_)
    refine .skip fun name => ?_
    split
    · exact gives_namedType h _
    · exact .failure

/-- Index and array marks go around the type that stands before them. -/
theorem gives_typeSuffixFrom (h : self.IsSound) (fuel : Nat) (type : Tree)
    (ht : Shaped IsInert type) : Gives (typeSuffixFrom self mode fuel type) (Shaped IsInert) := by
  -- the type grows from mark to mark, so the claim is made for any type
  induction fuel generalizing type with
  | zero => exact .failure
  | succ fuel ih =>
    refine .skip fun _ => .skip fun _ => .ite (.skip fun _ => .skip fun _ => .ite ?_ ?_) (.pure ht)
    · exact ih _ (.listing (by simp [ht.shaped]))
    · refine .bind (h.value _ _ rfl) fun index hi => .skip fun _ => ?_
      exact ih _ (.node rfl (by simp [ht.shaped, hi.shaped]))

/-- A type with the marks after it is inert. -/
theorem gives_typeOperator (h : self.IsSound) :
    Gives (typeOperator self mode) (Shaped IsInert) :=
  .bind (gives_typeOperand h) fun type ht cs => gives_typeSuffixFrom h (cs.length + 1) type ht cs

/-- Operators between types make a listing of them. -/
theorem gives_typeExpression (h : self.IsSound) :
    Gives (typeExpression self mode) (Shaped IsInert) := by
  refine .skip fun _ => .skipIf (.skip fun _ => .skipIf ?_)
  refine .bind (gives_typeOperator h) fun type ht => .skip fun cs => ?_
  split
  · exact .pure ht
  · exact .pure ht
  -- a union and an intersection
  iterate 2
    refine .skip fun _ => .bind (h.value _ _ rfl) fun other ho => ?_
    exact .pure (.listing (by simp [ht.shaped, ho.shaped]))
  refine .skip fun _ => .ite (.pure ht) (.skip fun _ => .ite ?_ (.skip fun _ => .ite ?_ (.pure ht)))
  · refine .bind (h.value _ _ rfl) fun bound hb => .skip fun _ => ?_
    refine .bind (h.value _ _ rfl) fun first hf => .skip fun _ => ?_
    refine .bind (h.value _ _ rfl) fun second hs => ?_
    exact .pure (.node rfl (by simp [ht.shaped, hb.shaped, hf.shaped, hs.shaped]))
  · refine .bind (h.value _ _ rfl) fun other ho => ?_
    exact .pure (.listing (by simp [ht.shaped, ho.shaped]))

/-- An annotation is a type, or absent. -/
theorem gives_typeAfterColon (h : self.IsSound) :
    Gives (typeAfterColon self mode) (Shaped IsInert) :=
  .ite (.skip fun _ => .ite (h.value _ _ rfl) (.pure .leaf)) (.pure .leaf)

/-! ## Arguments and decorators -/

theorem gives_spreadFrom (h : self.IsSound) (close : Char) :
    Gives (spreadFrom self mode close) (Shaped IsInert) := by
  refine .bind (h.value _ _ rfl) fun argument ha => .skip fun _ => ?_
  exact .pure (.node rfl (by simp [ha.shaped]))

/-- An argument is a value or a spread of one. -/
theorem gives_spreadable (h : self.IsSound) (close : Char) :
    Gives (spreadable self mode close) (Shaped IsInert) :=
  .skip fun _ => .ite (gives_spreadFrom h close) (h.value _ _ rfl)

/-- All arguments of a call are inert. -/
theorem gives_arguments (h : self.IsSound) :
    Gives (arguments self mode) fun found => ∀ argument ∈ found, Shaped IsInert argument :=
  .skip fun _ => .list _ (gives_spreadable h _)

/-- Accesses and calls go around the name that a decorator starts with. -/
theorem gives_decoratorFrom (h : self.IsSound) (fuel : Nat) (tree : Tree)
    (ht : Shaped IsInert tree) : Gives (decoratorFrom self mode fuel tree) (Shaped IsInert) := by
  induction fuel generalizing tree with
  | zero => exact .failure
  | succ fuel ih =>
    refine .skip fun _ => .ite (.skip fun name => ?_) (.skip fun _ => .ite ?_ (.pure ht))
    · exact ih _ (.node rfl (by simp [ht.shaped]))
    · refine .bind (gives_arguments h) fun inputs hi => ?_
      exact ih _ (.node rfl (List.forall_mem_cons.mpr ⟨ht.shaped, Shaped.all hi⟩))

/-- A decorator has one part. -/
theorem gives_decorator (h : self.IsSound) : Gives (decorator self mode)
    fun tree => ∃ value : Tree, tree = .node .decorator [value] ∧ value.IsShaped := by
  refine .skip fun _ => .ite (.bind (h.value _ _ rfl) fun value hv => .skip fun _ => ?_) ?_
  · exact .pure ⟨_, rfl, (Shaped.node rfl (by simp [hv.shaped])).shaped⟩
  · refine .skip fun name => ?_
    refine .bind (fun cs => gives_decoratorFrom h (cs.length + 1) _ .leaf cs) fun value hv => ?_
    exact .pure ⟨value, rfl, hv.shaped⟩

/-- Trees are decorators of values. -/
def AreDecorators (trees : List Tree) : Prop :=
  ∃ values : List Tree, trees = values.map (fun value => .node .decorator [value])
    ∧ ∀ value ∈ values, value.IsShaped

theorem gives_decoratorsFrom (h : self.IsSound) (fuel : Nat) :
    Gives (decoratorsFrom self mode fuel) AreDecorators := by
  induction fuel with
  | zero => exact .failure
  | succ fuel ih =>
    refine .skip fun _ => .ite ?_ (.pure ⟨[], rfl, List.forall_mem_nil _⟩)
    refine .bind (gives_decorator h) fun first hf => .bind ih fun rest hr => .pure ?_
    obtain ⟨value, rfl, hv⟩ := hf
    obtain ⟨values, rfl, hs⟩ := hr
    exact ⟨value :: values, rfl, List.forall_mem_cons.mpr ⟨hv, hs⟩⟩

/-- Decorators are read one after the other, each with its value. -/
theorem gives_decorators (h : self.IsSound) : Gives (decorators self mode) AreDecorators :=
  fun cs => gives_decoratorsFrom h (cs.length + 1) cs

/-- Decorators are inert. -/
theorem AreDecorators.shaped {trees : List Tree} (h : AreDecorators trees) :
    ∀ tree ∈ trees, Shaped IsInert tree := by
  obtain ⟨values, rfl, hv⟩ := h
  refine List.forall_mem_map.mpr fun value hm => ?_
  exact .node rfl (List.forall_mem_singleton.mpr (hv value hm))

end Source

end JsxLowering
