import JsxLowering.Proofs.FunctionShapes
import JsxLowering.Source.Element
import JsxLowering.Source.Expression

/-!
# Shapes of expressions and markup

Expressions are inert, and the functions in them have the parts of functions. Where parentheses turn
out to hold the parameters of an arrow function, the expressions in them are turned into patterns.
-/

namespace JsxLowering

open JsxLowering.Tree (IsInert IsPattern IsStatement)

section
variable {form : Form} {name : String} {rest : List Tree} {tree : Tree}

/-- A property that is its own key has a name for it. -/
theorem Shaped.ownKey (hf : form.isOwnKey) (h : ∀ child ∈ rest, child.IsShaped) :
    Shaped IsInert (.node form (.identifier name :: rest)) := by
  have parts : ∀ child ∈ Tree.identifier name :: rest, child.IsShaped :=
    List.forall_mem_cons.mpr ⟨Tree.isShaped_leaf, h⟩
  unfold Form.isOwnKey at hf
  split at hf
  · exact ⟨.node rfl, Tree.isShaped_node.mpr
      ⟨⟨List.forall_mem_nil _, nofun, nofun, fun _ => ⟨name, rest, rfl⟩⟩, parts⟩⟩
  · exact ⟨.node rfl, Tree.isShaped_node.mpr
      ⟨⟨List.forall_mem_nil _, nofun, nofun, fun _ => ⟨name, rest, rfl⟩⟩, parts⟩⟩
  · cases hf

/-- The mark of a function in parentheses changes none of its parts. -/
theorem Shaped.inParentheses (h : Shaped IsInert tree) :
    Shaped IsInert (Source.inParentheses tree) := by
  unfold Source.inParentheses
  split
  next async generator parts =>
    obtain ⟨own, hp⟩ := Tree.isShaped_node.mp h.shaped
    cases own.function rfl with
    | function ho hi =>
      simp only [List.forall_mem_cons] at hp
      exact (Shaped.function ⟨ho, hp.1⟩ ⟨hi, hp.2.1⟩ hp.2.2.1).imp fun h => h.isInert nofun
  next async parenthesized parts =>
    obtain ⟨own, hp⟩ := Tree.isShaped_node.mp h.shaped
    cases own.function rfl with
    | arrow hi =>
      simp only [List.forall_mem_cons] at hp
      exact (Shaped.arrow ⟨hi, hp.1⟩ hp.2.1).imp Tree.IsArrow.isInert
  next => exact h

end

namespace Source

variable {self : Grammar} {mode : Mode}

/-- The elements of an array are holes, values and spreads. -/
theorem gives_arrayLiteral (h : self.IsSound) :
    Gives (arrayLiteral self mode) (Shaped IsInert) := by
  have element : Gives (do if ← isNext ',' then pure .absent else spreadable self mode ']')
      (Shaped IsInert) := .skip fun _ => .ite (.pure .leaf) (gives_spreadable h _)
  refine .skip fun _ => .bind (.list _ element) fun elements he => ?_
  exact .pure (.node rfl (Shaped.all he))

/-! ## Object literals -/

/-- A function without a name that is the value of a property. -/
theorem gives_method (h : self.IsSound) {async generator : Bool} :
    Gives (functionFrom self mode .method async generator .absent) (Shaped IsInert) :=
  (gives_functionFrom h .method async generator .unnamed).weaken fun _ hv => hv.isInert nofun

/-- An accessor is a function without a name. -/
theorem gives_accessorFrom (h : self.IsSound) (kind : MemberKind) :
    Gives (accessorFrom self mode kind) (Shaped IsInert) := by
  exact .bind (gives_method h) fun value hv => .skip fun _ => .pure hv

/-- After its key a property has a value, or the key is a name and stands for it. -/
theorem gives_propertyValue (h : self.IsSound) {key : Tree} (hk : Shaped IsInert key)
    (computed : Bool) : Gives (propertyValue self mode key computed) (Shaped IsInert) := by
  refine .skip fun _ => .ite (.bind (h.value _ _ rfl) fun value hv => ?_) ?_
  · exact .pure (.node rfl (by simp [hk.shaped, hv.shaped]))
  · split
    · refine .skip fun _ => .skip fun _ => .ite (.bind (h.value _ _ rfl) fun value hv => ?_) ?_
      · exact .pure (.ownKey rfl (by simp [hv.shaped]))
      · exact .pure (.ownKey rfl (by simp))
    · exact .failure

/-- A property of an object is a spread, an accessor, a method or a value. -/
theorem gives_property (h : self.IsSound) : Gives (property self mode) (Shaped IsInert) := by
  refine .skip fun _ => .ite (gives_spreadFrom h _) (.skip fun found => ?_)
  split
  · refine .bind (gives_propertyKey h) fun key hk => ?_
    refine .bind (gives_accessorFrom h _) fun value hv => ?_
    exact .pure (.node rfl (by simp [hk.shaped, hv.shaped]))
  · refine .skip fun marks => .bind (gives_propertyKey h) fun key hk => .skip fun _ => .ite ?_ ?_
    · refine .bind (gives_method h) fun value hv => ?_
      exact .pure (.node rfl (by simp [hk.shaped, hv.shaped]))
    · exact gives_propertyValue h hk _

theorem gives_objectLiteral (h : self.IsSound) :
    Gives (objectLiteral self mode) (Shaped IsInert) := by
  refine .skip fun _ => .bind (.list _ (gives_property h)) fun properties hp => ?_
  exact .pure (.node rfl (Shaped.all hp))

/-! ## Parentheses -/

/-- Parentheses hold values, and perhaps a rest pattern that comes last. -/
theorem gives_parenFrom (h : self.IsSound) (fuel : Nat) :
    Gives (parenFrom self mode fuel) fun found => ∀ tree ∈ found.1, Shaped IsInert tree := by
  induction fuel with
  | zero => exact .failure
  | succ fuel ih =>
    refine .skip fun _ => .ite (.pure (List.forall_mem_nil _)) (.skip fun _ => .ite ?_ ?_)
    · refine .bind (gives_restBinding (h.binding mode) fun _ => .rest) fun rest hr => ?_
      exact .skip fun _ => .pure (List.forall_mem_singleton.mpr (hr.imp IsPattern.isInert))
    · refine .bind (h.value _ _ rfl) fun first hf => .skip fun _ => .ite ?_ ?_
      · exact .bind ih fun others ho => .pure (List.forall_mem_cons.mpr ⟨hf, ho⟩)
      · exact .skip fun _ => .pure (List.forall_mem_singleton.mpr hf)

theorem gives_parenItems (h : self.IsSound) :
    Gives (parenItems self mode) fun found => ∀ tree ∈ found.1, Shaped IsInert tree :=
  .skip fun _ cs => gives_parenFrom h (cs.length + 1) cs

/-- Parentheses are kept around a value; before an arrow what they hold waits for it. -/
theorem gives_parenthesized (h : self.IsSound) :
    Gives (parenthesized self mode) (Shaped IsInert) := by
  refine .bind (gives_parenItems h) fun found hf => .skip fun _ => .ite ?_ (.skip fun _ => ?_)
  · exact .pure (.node rfl (Shaped.all hf))
  · split
    · -- the only part may be a function, which is marked then
      next heq =>
      rw [heq] at hf
      exact .pure (.node rfl (by simp [(List.forall_mem_singleton.mp hf).inParentheses.shaped]))
    · have sequence : Shaped IsInert (.node .sequence found.1) := .node rfl (Shaped.all hf)
      exact .pure (.node rfl (by simp [sequence.shaped]))

/-! ## Operands -/

theorem gives_importCall (h : self.IsSound) (phase : String) :
    Gives (importCall self mode phase) (Shaped IsInert) := by
  refine .skip fun _ => .bind (.list _ (h.value _ _ rfl)) fun inputs hi => .skip fun _ => ?_
  exact .pure (.node rfl (Shaped.all hi))

theorem gives_importExpression (h : self.IsSound) :
    Gives (importExpression self mode) (Shaped IsInert) := by
  refine .skip fun _ => .skip fun _ => .ite ?_ (gives_importCall h _)
  refine .skip fun _ => .ite (.pure .leaf) (.skip fun phase => .skip fun _ => ?_)
  exact gives_importCall h phase

/-- The parts of `new` are what it is applied to and the arguments. -/
theorem gives_construct (h : self.IsSound) : Gives (construct self mode) (Shaped IsInert) := by
  refine .skip fun _ => .skip fun _ => .ite (.skip fun _ => .pure .leaf) ?_
  refine .bind (h.value _ _ rfl) fun callee hc => .skip fun _ => .skip fun _ => ?_
  refine .choose (gives_arguments h) (.pure (List.forall_mem_nil _)) fun inputs hi => .pure ?_
  exact .node rfl (List.forall_mem_cons.mpr ⟨hc.shaped, Shaped.all hi⟩)

/-- A function that is an operand is a value. -/
theorem gives_functionExpression (h : self.IsSound) (async : Bool) :
    Gives (functionOf self mode (.expression false) async false) (Shaped IsInert) :=
  (gives_functionOf h _ async false).weaken fun _ hf => hf.isInert nofun

/-- Whatever word an operand starts with, it is a value. -/
theorem gives_namedOperand (h : self.IsSound) (name : String) :
    Gives (namedOperand self mode name) (Shaped IsInert) := by
  unfold namedOperand
  split
  · exact gives_functionExpression h false
  · exact h.value _ _ rfl
  · exact gives_construct h
  · exact gives_importExpression h
  -- `this`, `null` and the truth values
  iterate 4 exact .skip fun _ => .pure .leaf
  · exact .skip fun _ => .skip fun _ => .skip fun _ => .skip fun _ => .skip fun _ => .pure .leaf
  · refine .orElse (.skip fun _ => .skip fun _ => .skip fun _ => .skip fun _ => ?_)
      (.orElse (.skip fun _ => .skip fun _ => .skip fun _ => ?_) gives_valueName_value)
    · exact gives_functionExpression h true
    · refine .bind (gives_parenItems h) fun found hf => .skip fun _ => .skip fun _ => ?_
      exact .pure (.node rfl (Shaped.all hf))
  · exact gives_valueName_value

theorem gives_privateOperand : Gives privateOperand (Shaped IsInert) :=
  .skip fun _ => .skip fun _ => .skip fun _ => .skip fun _ => .pure .leaf

theorem gives_patternLiteral : Gives patternLiteral (Shaped IsInert) := by
  intro cs value rest h
  obtain ⟨found, -, heq⟩ := Option.map_eq_some_iff.mp h
  cases heq
  exact .leaf

/-- Decorators keep a value a value. -/
theorem shaped_decorateValue {decorators : List Tree} {value : Tree}
    (hd : AreDecorators decorators) (hv : Shaped IsInert value) :
    Shaped IsInert (decorate decorators value) := by
  unfold decorate
  split
  · exact hv
  · have parts := List.forall_mem_append.mpr ⟨hd.shaped, List.forall_mem_singleton.mpr hv⟩
    exact ⟨.decorated fun part hm => (parts part hm).is,
      Tree.isShaped_of_isFree rfl (Shaped.all parts)⟩

theorem gives_decoratedClass (h : self.IsSound) :
    Gives (decoratedClass self mode) (Shaped IsInert) := by
  refine .bind (gives_decorators h) fun decorators hd => .bind (h.value _ _ rfl) fun value hv => ?_
  exact .pure (shaped_decorateValue hd hv)

/-- An operand is inert, by its first character or its first word. -/
theorem gives_primary (h : self.IsSound) : Gives (primary self mode) (Shaped IsInert) := by
  refine .skip fun cs => ?_
  split
  · exact gives_namedOperand h _
  · split
    · exact gives_parenthesized h
    · exact gives_arrayLiteral h
    · exact gives_objectLiteral h
    · exact gives_quotedValue
    · exact gives_quotedValue
    · exact gives_templateOf (h.value _ _ rfl) false
    · exact gives_patternLiteral
    · exact h.value _ _ rfl
    · exact gives_privateOperand
    · exact gives_decoratedClass h
    · exact .ite gives_valueName_value gives_numeric
    · exact .failure

/-! ## Accesses and calls -/

section
variable {object tree left : Tree}

/-- An access has the object for its only part. -/
theorem gives_memberOf (ho : Shaped IsInert object) (optional : Bool) :
    Gives (memberOf object optional) (Shaped IsInert) := by
  refine .skip fun _ => .ite (.skip fun name => ?_) (.skip fun name => ?_)
  · exact .pure (.node rfl (by simp [ho.shaped]))
  · exact .pure (.node rfl (by simp [ho.shaped]))

theorem gives_optionalOf (h : self.IsSound) (ho : Shaped IsInert object) :
    Gives (optionalOf self mode object) (Shaped IsInert) := by
  refine .skip fun _ => .ite (.bind (h.value _ _ rfl) fun index hi => .skip fun _ => ?_) ?_
  · exact .pure (.node rfl (by simp [ho.shaped, hi.shaped]))
  · refine .skip fun _ => .ite ?_ (gives_memberOf ho true)
    refine .bind (gives_arguments h) fun inputs hi => ?_
    exact .pure (.node rfl (List.forall_mem_cons.mpr ⟨ho.shaped, Shaped.all hi⟩))

/-- An assertion and type arguments go around the operand. -/
theorem gives_annotatedSuffix (h : self.IsSound) (ht : Shaped IsInert tree) :
    Gives (annotatedSuffix self mode tree) (Shaped IsInert) := by
  refine .skip fun cs => ?_
  split
  · refine .skip fun _ => .skip fun _ => .skip fun _ => ?_
    exact .pure (.node rfl (by simp [ht.shaped]))
  · refine .bind (gives_typeArguments h) fun types hy => .skip fun _ => .skip fun _ => ?_
    exact .pure (.node rfl (by simp [ht.shaped, hy.shaped]))
  · exact .failure

/-- Each access or call goes around the operand that is read so far. -/
theorem gives_suffixesFrom (h : self.IsSound) (calls : Bool) (fuel : Nat) (tree : Tree)
    (chained : Bool) (ht : Shaped IsInert tree) :
    Gives (suffixesFrom self mode calls fuel tree chained) fun found => Shaped IsInert found.1 := by
  -- the operand grows from suffix to suffix
  induction fuel generalizing tree chained with
  | zero => exact .failure
  | succ fuel ih =>
    refine .skip fun cs => ?_
    split
    · refine .ite (.pure ht) (.skip fun _ => .bind (gives_memberOf ht false) fun tree hm => ?_)
      exact ih tree chained hm
    · refine .skip fun _ => .bind (h.value _ _ rfl) fun index hi => .skip fun _ => ?_
      exact ih _ chained (.node rfl (by simp [ht.shaped, hi.shaped]))
    · refine .ite (.bind (gives_arguments h) fun inputs hi => ?_) (.pure ht)
      exact ih _ chained (.node rfl (List.forall_mem_cons.mpr ⟨ht.shaped, Shaped.all hi⟩))
    · refine .ite (.pure ht) (.skip fun _ => .skip fun _ => ?_)
      exact .bind (gives_optionalOf h ht) fun tree ho => ih tree true ho
    · refine .ite (.skip fun _ => ?_) (.ite ?_ (.pure ht))
      · refine .bind (gives_templateOf (h.value _ _ rfl) true) fun template hq => ?_
        exact ih _ chained (.node rfl (by simp [ht.shaped, hq.shaped]))
      · refine .bind (.attempt (gives_annotatedSuffix h ht)) fun found hf => ?_
        cases found with
        | none => exact .pure ht
        | some tree => exact ih tree chained (hf tree rfl)
    · exact .pure ht

/-- Parentheses that wait for an arrow have no access after them; all other operands may. -/
theorem gives_leftHand (h : self.IsSound) (calls : Bool) :
    Gives (leftHand self mode calls) (Shaped IsInert) := by
  refine .bind (gives_primary h) fun start hs => ?_
  split
  · exact .pure hs
  · refine .bind (fun cs => gives_suffixesFrom h calls (cs.length + 1) start false hs cs) ?_
    intro found hf
    refine .pure ?_
    split
    · exact .node rfl (by simp [hf.shaped])
    · exact hf

/-! ## Operators -/

theorem gives_updated (h : self.IsSound) : Gives (updated self mode) (Shaped IsInert) := by
  refine .bind (gives_leftHand h true) fun tree ht => .skip fun _ => .ite (.pure ht) ?_
  refine .skip fun cs => ?_
  split
  · refine .skip fun _ => .skip fun _ => ?_
    exact .pure (.node rfl (by simp [ht.shaped]))
  · exact .pure ht

/-- An operator before its operand has the operand for its only part. -/
theorem gives_unary (h : self.IsSound) : Gives (unary self mode) (Shaped IsInert) := by
  refine .skip fun cs => ?_
  split
  · refine .skip fun _ => .bind (h.value _ _ rfl) fun argument ha => .skip fun _ => ?_
    exact .pure (.node rfl (by simp [ha.shaped]))
  · split
    · refine .skip fun _ => .bind (h.value _ _ rfl) fun argument ha => ?_
      exact .pure (.node rfl (by simp [ha.shaped]))
    · refine .skip fun _ => .ite (.bind (h.value _ _ rfl) fun argument ha => ?_) (gives_updated h)
      exact .pure (.node rfl (by simp [ha.shaped]))

/-- A cast has a value and a type. -/
theorem gives_castOf (h : self.IsSound) (ht : Shaped IsInert tree) :
    Gives (castOf self mode tree) (Shaped IsInert) := by
  refine .skip fun _ => .skip fun _ => .skip fun name => .skip fun _ => .skip fun _ => ?_
  refine .choose (.pure .verse) (h.value _ _ rfl) fun type hy => ?_
  exact .pure (.node rfl (by simp [ht.shaped, hy.shaped]))

/-- Each operator goes around what stands to its left. -/
theorem gives_operatorsFrom (h : self.IsSound) (level fuel : Nat) (left : Tree)
    (hl : Shaped IsInert left) :
    Gives (operatorsFrom self mode level fuel left) (Shaped IsInert) := by
  induction fuel generalizing left with
  | zero => exact .failure
  | succ fuel ih =>
    refine .skip fun cs => ?_
    split
    · refine .ite (.pure hl) (.skip fun _ => ?_)
      refine .bind (h.value _ _ rfl) fun right hr => .skip fun _ => ?_
      exact ih _ (.node rfl (by simp [hl.shaped, hr.shaped]))
    · refine .ite (.bind (.attempt (gives_castOf h hl)) fun found hf => ?_) (.pure hl)
      cases found with
      | none => exact .pure hl
      | some tree => exact ih tree (hf tree rfl)

theorem gives_operand (h : self.IsSound) (level : Nat) :
    Gives (operand self mode level) (Shaped IsInert) :=
  .bind (h.value _ _ rfl) fun left hl cs => gives_operatorsFrom h level (cs.length + 1) left hl cs

/-! ## Arrows and assignments -/

/-- An arrow function has its parameters and a body or a value. -/
theorem gives_arrowFrom (h : self.IsSound) (async : Bool) {inputs : Tree}
    (hi : Shaped Tree.HoldsParameters inputs) :
    Gives (arrowFrom self mode async inputs) (Shaped IsInert) := by
  refine .skip fun _ => .ite (.bind (gives_functionBody h) fun body hb => ?_) ?_
  · exact .pure ((Shaped.arrow hi hb).imp Tree.IsArrow.isInert)
  · refine .bind (h.value _ _ rfl) fun value hv => ?_
    exact .pure ((Shaped.arrow hi hv.shaped).imp Tree.IsArrow.isInert)

/-- Patterns are the parameters of a list. -/
theorem shaped_parameters {inputs : List Tree} (h : ∀ input ∈ inputs, Shaped IsPattern input) :
    Shaped Tree.HoldsParameters (.node .parameters inputs) :=
  ⟨fun input hm => .pattern (h input hm).is, Tree.isShaped_of_isFree rfl (Shaped.all h)⟩

/-- A single name before an arrow is the only parameter. -/
theorem gives_namedArrow :
    Gives namedArrow fun found => Shaped Tree.HoldsParameters found.2 := by
  have single (name : String) :
      Shaped Tree.HoldsParameters (.node .parameters [.identifier name]) :=
    shaped_parameters (List.forall_mem_singleton.mpr .identifier)
  refine .skip fun cs => ?_
  split
  · exact .skip fun _ => .pure (single _)
  · refine .skip fun _ => .skip fun _ => .skip fun _ => .skip fun cs => ?_
    split
    · exact .skip fun _ => .pure (single _)
    · exact .failure

/-- Annotated parameters before an arrow are a signature. -/
theorem gives_annotatedArrow (h : self.IsSound) :
    Gives (annotatedArrow self mode) fun found => Shaped Tree.HoldsParameters found.2 := by
  refine .skip fun _ => .skip fun async => .skip fun _ => .skip fun _ => .skip fun _ => ?_
  refine .skip fun _ => .bind (gives_signature h) fun inputs hi => .skip fun _ => ?_
  exact .pure hi

theorem gives_yieldOf (h : self.IsSound) : Gives (yieldOf self mode) (Shaped IsInert) := by
  refine .skip fun _ => .ite (.pure (.node rfl (by simp))) (.skip fun delegate => ?_)
  refine .bind (h.value _ _ rfl) fun argument ha => ?_
  exact .pure (.node rfl (by simp [ha.shaped]))

/-- What is assigned to stays inert. -/
theorem shaped_targetOf {op : String} {target : Tree} (hl : Shaped IsInert left)
    (ht : targetOf op left = some target) : Shaped IsInert target := by
  unfold targetOf at ht
  split at ht
  · exact hl.asTarget? ht
  · split at ht
    · cases ht
      exact hl
    · cases ht

/-- After an operand comes an assignment, a conditional, or nothing. -/
theorem gives_assignmentFrom (h : self.IsSound) (hl : Shaped IsInert left) :
    Gives (assignmentFrom self mode left) (Shaped IsInert) := by
  refine .skip fun cs => ?_
  split
  · split
    · next target ht =>
      refine .skip fun _ => .bind (h.value _ _ rfl) fun value hv => ?_
      exact .pure (.node rfl (by simp [(shaped_targetOf hl ht).shaped, hv.shaped]))
    · exact .failure
  · split
    · refine .skip fun _ => .bind (h.value _ _ rfl) fun first hf => .skip fun _ => ?_
      refine .bind (h.value _ _ rfl) fun second hs => ?_
      exact .pure (.node rfl (by simp [hl.shaped, hf.shaped, hs.shaped]))
    · exact .pure hl

/-- Expressions that turn out to be parameters are turned into patterns. -/
theorem gives_coveredArrow (h : self.IsSound) (async : Bool) {inner : List Tree}
    (hi : ∀ tree ∈ inner, tree.IsShaped) :
    Gives (coveredArrow self mode async inner) (Shaped IsInert) := by
  unfold coveredArrow
  split
  · next inputs ht =>
    exact .skip fun _ => gives_arrowFrom h async (shaped_parameters (shaped_of_asTargets? hi ht))
  · exact .failure

theorem gives_branchArrow (h : self.IsSound) :
    Gives (branchArrow self mode) (Shaped IsInert) := by
  refine .bind (gives_annotatedArrow h) fun found hi => .skip fun _ => ?_
  refine .bind (gives_arrowFrom h found.1 hi) fun tree ht => .skip fun _ => .skip fun _ => ?_
  exact .pure ht

/-- Before an arrow stand parameters, however they are written. -/
theorem gives_arrowStart (h : self.IsSound) :
    Gives (arrowStart self mode) fun found => Shaped Tree.HoldsParameters found.2 := by
  refine .orElse gives_namedArrow (.bind (gives_annotatedArrow h) fun found hi => ?_)
  exact .skip fun _ => .pure hi

theorem gives_plainArrow? (h : self.IsSound) :
    Gives (plainArrow? self mode) fun found => ∀ tree ∈ found, Shaped IsInert tree := by
  have branch : Gives (ensure mode.inBranch *> branchArrow self mode) (Shaped IsInert) :=
    .skip fun _ => gives_branchArrow h
  refine .bind (.attempt branch) fun found hf => ?_
  cases found with
  | some tree => exact .pure hf
  | none =>
    refine .bind (.attempt (gives_arrowStart h)) fun start hs => ?_
    cases start with
    | none => exact .pure nofun
    | some start =>
      refine .map (gives_arrowFrom h start.1 (hs start rfl)) fun tree ht => ?_
      intro same hm
      cases hm
      exact ht

/-- An expression without commas is inert: an arrow function, `yield`, or what starts with an
operand. -/
theorem gives_assignment (h : self.IsSound) : Gives (assignment self mode) (Shaped IsInert) := by
  refine .bind (gives_plainArrow? h) fun found hf => ?_
  cases found with
  | some tree => exact .pure (hf tree rfl)
  | none =>
    refine .skip fun _ => .ite (gives_yieldOf h) (.bind (h.value _ _ rfl) fun left hl => ?_)
    split
    · exact gives_coveredArrow h _ (Tree.isShaped_node.mp hl.shaped).2
    · exact gives_assignmentFrom h hl

/-- Expressions between commas are a sequence. -/
theorem gives_expression (h : self.IsSound) : Gives (expression self mode) (Shaped IsInert) := by
  refine .bind (.commas (h.value _ _ rfl)) fun parts hp => ?_
  split
  · exact .pure (List.forall_mem_singleton.mp hp)
  · exact .pure (.node rfl (Shaped.all hp))

end

/-! ## Markup -/

/-- Markup that is a part of other markup has shaped nodes. -/
theorem gives_innerMarkup (h : self.IsSound) :
    Gives (innerMarkup self mode) fun value => AreShaped value.nodes := by
  refine .bind (h.value mode .markup rfl) fun tree ht => ?_
  split
  · exact .pure ht.shaped
  · exact .failure

/-- An attribute holds the nodes of its value, if it has one. -/
theorem gives_attributeValue (h : self.IsSound) (name : String) :
    Gives (attributeValue self mode name) fun item => AreShaped item.nodes := by
  refine .skip fun _ => .ite (.skip fun _ => .ite ?_ (.skip fun _ => .ite ?_ ?_)) ?_
  · exact .bind (h.value _ _ rfl) fun value hv => .skip fun _ => .pure hv.shaped
  · exact .bind (gives_innerMarkup h) fun value hv => .pure hv
  · exact .skip fun raw => .pure areShaped_nil
  · exact .pure areShaped_nil

theorem gives_attributeOf (h : self.IsSound) :
    Gives (attributeOf self mode) fun item => AreShaped item.nodes := by
  refine .skip fun _ => .ite (.skip fun _ => .skip fun _ => ?_) (.skip fun name => ?_)
  · exact .bind (h.value _ _ rfl) fun argument ha => .skip fun _ => .pure ha.shaped
  · exact gives_attributeValue h name

theorem gives_attributesFrom (h : self.IsSound) (fuel : Nat) :
    Gives (attributesFrom self mode fuel) fun found => ∀ item ∈ found, AreShaped item.nodes := by
  induction fuel with
  | zero => exact .failure
  | succ fuel ih =>
    refine .skip fun _ => .skip fun _ => .ite (.pure (List.forall_mem_nil _)) ?_
    refine .bind (gives_attributeOf h) fun first hf => .bind ih fun rest hr => ?_
    exact .pure (List.forall_mem_cons.mpr ⟨hf, hr⟩)

/-- Braces hold a value, a spread or nothing. -/
theorem gives_containerChild (h : self.IsSound) :
    Gives (containerChild self mode) fun item => AreShaped item.nodes := by
  refine .skip fun _ => .ite (.pure areShaped_nil) (.skip fun _ => .ite ?_ ?_)
  · exact .bind (h.value _ _ rfl) fun argument ha => .skip fun _ => .pure ha.shaped
  · exact .bind (h.value _ _ rfl) fun value hv => .skip fun _ => .pure hv.shaped

/-- Children are texts, braces and markup. -/
theorem gives_childrenFrom (h : self.IsSound) (fuel : Nat) :
    Gives (childrenFrom self mode fuel) fun found => ∀ item ∈ found, AreShaped item.nodes := by
  induction fuel with
  | zero => exact .failure
  | succ fuel ih =>
    refine .skip fun cs => ?_
    split
    · refine .skip fun _ => .bind ih fun others ho => ?_
      exact .pure (List.forall_mem_cons.mpr ⟨areShaped_nil, ho⟩)
    · refine .skip fun _ => .bind (gives_containerChild h) fun first hf => ?_
      refine .bind ih fun others ho => ?_
      exact .pure (List.forall_mem_cons.mpr ⟨hf, ho⟩)
    · refine .ite (.pure (List.forall_mem_nil _)) ?_
      refine .bind (gives_innerMarkup h) fun first hf => .bind ih fun others ho => ?_
      exact .pure (List.forall_mem_cons.mpr ⟨hf, ho⟩)
    · exact .failure

theorem gives_childrenOf (h : self.IsSound) :
    Gives (childrenOf self mode) fun found => ∀ item ∈ found, AreShaped item.nodes := by
  refine .bind (fun cs => gives_childrenFrom h (cs.length + 1) cs) fun children hc => ?_
  exact .skip fun _ => .skip fun _ => .pure hc

/-- An element holds the nodes of its attributes and its children. Type arguments are not kept. -/
theorem gives_elementFrom (h : self.IsSound) (start : Nat) :
    Gives (elementFrom self mode start) fun value => AreShaped value.nodes := by
  refine .skip fun tag => .skip fun _ => .skipIf ?_
  refine .bind (fun cs => gives_attributesFrom h (cs.length + 1) cs) fun attributes ha => ?_
  have given := Attribute.areShaped_nodesIn.mpr ha
  refine .skip fun _ => .ite (.skip fun _ => .pure ?_) (.skip fun _ => ?_)
  · exact areShaped_append.mpr ⟨given, areShaped_nil⟩
  · refine .bind (gives_childrenOf h) fun children hc => .skip fun _ => .skip fun _ => ?_
    exact .skip fun _ => .pure (areShaped_append.mpr ⟨given, Child.areShaped_nodesIn.mpr hc⟩)

/-- Markup contributes no names, and all nodes in it are shaped. -/
theorem gives_markup (h : self.IsSound) : Gives (markup self mode) (Shaped IsInert) := by
  refine .skip fun cs => .skip fun _ => .skip fun _ => .ite ?_ ?_
  · refine .bind (gives_childrenOf h) fun children hc => .skip fun _ => ?_
    exact .pure ⟨.markup, Child.areShaped_nodesIn.mpr hc⟩
  · exact .bind (gives_elementFrom h _) fun value hv => .pure ⟨.markup, hv⟩

end Source

end JsxLowering
