import JsxLowering.Proofs.MemberPaths
import JsxLowering.Proofs.Reading

/-!
# What expressions are read as

An expression without annotations is read from the inside out: an operand that no access follows, an
operand that no operator follows, and so on up to whole assignments. Each fact says which part of
the grammar reads the next larger one, and what must not come after it.
-/

namespace JsxLowering.Source

/-- A mode without annotations in which `in` is an operator and `yield` is a name. -/
structure Mode.IsPlain (mode : Mode) : Prop where
  typescript : mode.typescript = false
  inOperator : mode.inOperator = true
  yields : mode.yields = false
  inBranch : mode.inBranch = false

theorem Mode.IsPlain.inside_eq {mode : Mode} (hm : mode.IsPlain) : mode.inside = mode := by
  cases mode
  obtain ⟨rfl, rfl, rfl, rfl⟩ := hm
  rfl

/-- Whether no access, call or update follows an operand. -/
def endsOperand (cs : List Char) : Bool :=
  match skip cs with
  | [] => true
  | '+' :: cs => cs.head? ≠ some '+'
  | '?' :: cs => cs.head? ≠ some '.'
  | c :: _ => [')', ';', ',', ':', '='].contains c

/-- Whether no operator that binds more tightly than a level comes next. -/
def endsOperators (level : Nat) (cs : List Char) : Bool :=
  match binaryOf true (skip cs) with
  | some (_, opLevel, _) => opLevel ≤ level
  | none => true

/-- Whether neither an assignment nor a conditional comes next. -/
def endsAssignment (cs : List Char) : Bool :=
  (assignOf (skip cs)).isNone && (skip cs).head? ≠ some '?'

/-- Whether a tree is what stands before an arrow. -/
def isArrowHead : Tree → Bool
  | .node (.arrowHead _) _ => true
  | _ => false

section
variable {self : Grammar} {mode : Mode} {tree : Tree} {cs rest : List Char} {n : Nat}

/-! ## Operands -/

/-- What may follow an operand. -/
theorem endsOperand_cases (h : endsOperand rest) :
    skip rest = []
      ∨ (∃ cs, skip rest = '+' :: cs ∧ cs.head? ≠ some '+')
      ∨ (∃ cs, skip rest = '?' :: cs ∧ cs.head? ≠ some '.')
      ∨ ∃ c cs, skip rest = c :: cs ∧ (c = ')' ∨ c = ';' ∨ c = ',' ∨ c = ':' ∨ c = '=') := by
  unfold endsOperand at h
  generalize skip rest = next at h
  split at h
  · exact .inl rfl
  · next cs => exact .inr (.inl ⟨cs, rfl, of_decide_eq_true h⟩)
  · next cs => exact .inr (.inr (.inl ⟨cs, rfl, of_decide_eq_true h⟩))
  · next c cs _ _ =>
    simp only [List.contains_iff_mem, List.mem_cons, List.not_mem_nil, or_false] at h
    exact .inr (.inr (.inr ⟨c, cs, rfl, h⟩))

theorem suffixesFrom_of_end (hm : mode.IsPlain) (hr : endsOperand rest) (calls : Bool)
    (fuel : Nat) (tree : Tree) (chained : Bool) :
    suffixesFrom self mode calls (fuel + 1) tree chained rest = some ((tree, chained), rest) := by
  have plain := hm.typescript
  rw [suffixesFrom, bind_of_some (ahead_apply rest)]
  rcases endsOperand_cases hr with hs | ⟨cs, hs, hh⟩ | ⟨cs, hs, hh⟩ | ⟨c, cs, hs, hc⟩
  · rw [hs]
    rfl
  · rw [hs]
    simp [plain, pure_apply]
  · rw [hs]
    cases cs with
    | nil => simp [plain, pure_apply]
    | cons d ds =>
      -- a dot after the question mark would be an optional access
      rw [List.head?_cons, ne_eq, Option.some.injEq] at hh
      simp [hh, plain, pure_apply]
  · rw [hs]
    rcases hc with rfl | rfl | rfl | rfl | rfl <;> simp [plain, pure_apply]

theorem updateOf_of_end (hr : endsOperand rest) : updateOf (skip rest) = none := by
  rcases endsOperand_cases hr with hs | ⟨cs, hs, hh⟩ | ⟨cs, hs, hh⟩ | ⟨c, cs, hs, hc⟩
  · rw [hs]
    rfl
  · rw [hs]
    unfold updateOf
    split <;> simp_all
  · rw [hs]
    rfl
  · rw [hs]
    rcases hc with rfl | rfl | rfl | rfl | rfl <;> rfl

theorem nameOf_of_end (hr : endsOperand rest) : nameOf (skip rest) = none := by
  rcases endsOperand_cases hr with hs | ⟨cs, hs, -⟩ | ⟨cs, hs, -⟩ | ⟨c, cs, hs, hc⟩
  · rw [hs]
    rfl
  · rw [hs]
    rfl
  · rw [hs]
    rfl
  · rw [hs]
    rcases hc with rfl | rfl | rfl | rfl | rfl <;> rfl

theorem head?_of_end (hr : endsOperand rest) : (skip rest).head? ≠ some '(' := by
  rcases endsOperand_cases hr with hs | ⟨cs, hs, -⟩ | ⟨cs, hs, -⟩ | ⟨c, cs, hs, hc⟩
  · rw [hs]
    nofun
  · rw [hs, List.head?_cons]
    decide
  · rw [hs, List.head?_cons]
    decide
  · rw [hs, List.head?_cons]
    rcases hc with rfl | rfl | rfl | rfl | rfl <;> decide

/-- What is read up to the accesses after an operand, and no update follows. -/
theorem updated_of_suffixes {start : Tree} {more : List Char}
    (h : primary self mode cs = some (start, more)) (ht : isArrowHead start = false)
    (hs : suffixesFrom self mode true (more.length + 1) start false more
      = some ((tree, false), rest)) (hr : endsOperand rest) :
    updated self mode cs = some (tree, rest) := by
  have left : leftHand self mode true cs = some (tree, rest) := by
    rw [leftHand, bind_of_some h]
    split
    · cases ht
    · rw [bind_of_some (x := fun cs => suffixesFrom self mode true (cs.length + 1) start false cs)
        hs]
      rfl
  rw [updated, bind_of_some left, bind_of_some (onNewLine_apply rest)]
  -- an update on a new line would belong to the next statement
  cases breaks rest with
  | true => rfl
  | false =>
    rw [if_neg Bool.false_ne_true, bind_of_some (ahead_apply rest), updateOf_of_end hr]
    rfl

/-- An operand that no operator stands before, and what may follow it. -/
theorem unary_eq_updated (hu : updateOf (skip cs) = none) (ho : unaryOf (skip cs) = none)
    (hw : takeWordIf mode.awaits "await" cs = some (false, cs)) :
    grammar (n + 1) mode .unary cs = updated (grammar n) mode cs := by
  rw [grammar_succ, goalReader, unary, bind_of_some (ahead_apply cs), hu, ho]
  simp only
  rw [bind_of_some hw, if_neg Bool.false_ne_true]

/-- An operand that no operator stands before. -/
theorem unary_of_updated (hu : updateOf (skip cs) = none) (ho : unaryOf (skip cs) = none)
    (hw : takeWordIf mode.awaits "await" cs = some (false, cs))
    (h : updated (grammar n) mode cs = some (tree, rest)) :
    grammar (n + 1) mode .unary cs = some (tree, rest) := by
  rw [unary_eq_updated hu ho hw, h]

/-- An operand that nothing stands before and nothing follows. -/
theorem unary_of_primary (hm : mode.IsPlain) (hu : updateOf (skip cs) = none)
    (ho : unaryOf (skip cs) = none)
    (hw : takeWordIf mode.awaits "await" cs = some (false, cs))
    (h : primary (grammar n) mode cs = some (tree, rest)) (ht : isArrowHead tree = false)
    (hr : endsOperand rest) : grammar (n + 1) mode .unary cs = some (tree, rest) :=
  unary_of_updated hu ho hw
    (updated_of_suffixes h ht (suffixesFrom_of_end hm hr true _ tree false) hr)

/-! ## Operators -/

theorem operatorsFrom_of_end {level : Nat} (hm : mode.IsPlain) (hr : endsOperators level rest)
    (fuel : Nat) : operatorsFrom self mode level (fuel + 1) tree rest = some (tree, rest) := by
  rw [operatorsFrom, bind_of_some (ahead_apply rest), hm.inOperator]
  unfold endsOperators at hr
  cases hb : binaryOf true (skip rest) with
  | none => simp [hm.typescript, pure_apply]
  | some found =>
    obtain ⟨op, opLevel, more⟩ := found
    rw [hb] at hr
    simp only [decide_eq_true_eq] at hr
    simp [hr, pure_apply]

/-- An operand, and then the operators after it. -/
theorem operand_eq (level : Nat) (h : grammar n mode .unary cs = some (tree, rest)) :
    grammar (n + 1) mode (.operand level) cs
      = operatorsFrom (grammar n) mode level (rest.length + 1) tree rest := by
  rw [grammar_succ, goalReader, operand, bind_of_some h]

/-- An operand that no operator follows. -/
theorem operand_of_unary {level : Nat} (hm : mode.IsPlain)
    (h : grammar n mode .unary cs = some (tree, rest)) (hr : endsOperators level rest) :
    grammar (n + 1) mode (.operand level) cs = some (tree, rest) := by
  rw [operand_eq level h, operatorsFrom_of_end hm hr]

/-- An operator, its right operand and the operators after it. -/
theorem operatorsFrom_of_operand {level opLevel fuel : Nat} {op : String} {right : Tree}
    {more : List Char} (hm : mode.IsPlain) (hb : binaryOf true (skip cs) = some (op, opLevel, more))
    (hl : level < opLevel) (ha : isRightAssociative op = false)
    (h : self mode (.operand opLevel) more = some (right, rest)) (hj : mayJoin op tree right) :
    operatorsFrom self mode level (fuel + 1) tree cs
      = operatorsFrom self mode level fuel (.node (.binary op) [tree, right]) rest := by
  rw [operatorsFrom, bind_of_some (ahead_apply cs), hm.inOperator, hb]
  simp only [if_neg (Nat.not_le.mpr hl), ha, Bool.false_eq_true, if_false]
  rw [bind_of_some (set_apply more cs), bind_of_some h, hj]
  rfl

/-! ## Assignments -/

theorem plainArrow?_of_none (hm : mode.IsPlain) (h : namedArrow cs = none) :
    plainArrow? self mode cs = some (none, cs) := by
  have branch : (ensure mode.inBranch *> branchArrow self mode) cs = none := by
    rw [hm.inBranch]
    rfl
  have annotated : annotatedArrow self mode cs = none := by
    rw [annotatedArrow, hm.typescript]
    rfl
  -- parameters in parentheses are read as an operand first, so only annotated ones start here
  have start : arrowStart self mode cs = none := by
    rw [arrowStart, orElse_of_none h, bind_of_none annotated]
  rw [plainArrow?, bind_of_some (attempt_of_none branch)]
  simp only
  rw [bind_of_some (attempt_of_none start)]
  rfl

/-- An operand, and then what may follow it. -/
theorem assignment_of_operand (hm : mode.IsPlain) (hn : namedArrow cs = none)
    (h : grammar n mode (.operand 0) cs = some (tree, rest)) (ht : isArrowHead tree = false) :
    grammar (n + 1) mode .assignment cs = assignmentFrom (grammar n) mode tree rest := by
  have word : takeWordIf mode.yields "yield" cs = some (false, cs) := by
    rw [hm.yields]
    rfl
  rw [grammar_succ, goalReader, assignment, bind_of_some (plainArrow?_of_none hm hn)]
  simp only
  rw [bind_of_some word, if_neg Bool.false_ne_true, bind_of_some h]
  split
  · cases ht
  · rfl

theorem assignmentFrom_of_end (hr : endsAssignment rest) :
    assignmentFrom self mode tree rest = some (tree, rest) := by
  simp only [endsAssignment, Bool.and_eq_true, Option.isNone_iff_eq_none, decide_eq_true_eq] at hr
  rw [assignmentFrom, bind_of_some (ahead_apply rest), hr.1]
  obtain ⟨-, hq⟩ := hr
  cases hs : skip rest with
  | nil => rfl
  | cons c cs =>
    rw [hs] at hq
    simp only [List.head?_cons, ne_eq, Option.some.injEq] at hq
    simp [hq, pure_apply]

/-- An operand that nothing follows. -/
theorem assignment_of_unary (hm : mode.IsPlain) (hn : namedArrow cs = none)
    (h : grammar n mode .unary cs = some (tree, rest)) (ht : isArrowHead tree = false)
    (ho : endsOperators 0 rest) (hr : endsAssignment rest) :
    grammar (n + 2) mode .assignment cs = some (tree, rest) := by
  rw [assignment_of_operand hm hn (operand_of_unary hm h ho) ht, assignmentFrom_of_end hr]

/-- An assignment to what was read. -/
theorem assignmentFrom_assign {op : String} {target value : Tree} {more : List Char}
    (ho : assignOf (skip cs) = some (op, more)) (ht : targetOf op tree = some target)
    (h : self mode .assignment more = some (value, rest)) :
    assignmentFrom self mode tree cs = some (.node (.assign op) [target, value], rest) := by
  rw [assignmentFrom, bind_of_some (ahead_apply cs), ho]
  simp only [ht]
  rw [bind_of_some (set_apply more cs), bind_of_some h]
  rfl

/-- A conditional whose condition was read. -/
theorem assignmentFrom_conditional {first second : Tree} {more other : List Char}
    (hm : mode.IsPlain) (hq : skip cs = '?' :: more) (hn : assignOf ('?' :: more) = none)
    (h : self mode .assignment more = some (first, ':' :: other))
    (h' : self mode .assignment other = some (second, rest)) :
    assignmentFrom self mode tree cs = some (.node .conditional [tree, first, second], rest) := by
  have branch : ({ mode with inOperator := true, inBranch := mode.typescript } : Mode) = mode := by
    cases mode
    obtain ⟨rfl, rfl, rfl, rfl⟩ := hm
    rfl
  rw [assignmentFrom, bind_of_some (ahead_apply cs), hq, hn]
  simp only [branch]
  rw [bind_of_some (set_apply more cs), bind_of_some h,
    bind_of_some (mark_of_skip (skip_cons other rfl)),
    bind_of_some h']
  rfl

/-- What starts with a mark is no arrow function of one name. -/
theorem namedArrow_mark {c : Char} (cs : List Char) (hg : startsGap c = false)
    (hn : Text.isNameStart c = false) (he : c ≠ '\\') : namedArrow (c :: cs) = none := by
  have none : namedArrowOf (c :: cs) = none := by
    rw [namedArrowOf, anyNameOf_cons cs hn he]
    rfl
  rw [namedArrow, bind_of_some (ahead_apply _), skip_cons cs hg, none]
  refine bind_of_none ?_ _
  rw [word, bind_of_some (takeWord?_mark cs hg hn "async")]
  rfl

/-- An expression without commas. -/
theorem expression_of_assignment (h : grammar n mode .assignment cs = some (tree, rest))
    (hr : (skip rest).head? ≠ some ',') :
    grammar (n + 1) mode .expression cs = some (tree, rest) := by
  have single : commas (grammar n mode .assignment) cs = some ([tree], rest) := by
    rw [commas, commaFrom, bind_of_some h, bind_of_some (take?_of_head hr)]
    rfl
  rw [grammar_succ, goalReader, expression, bind_of_some single]
  rfl

/-! ## Quoted text and parentheses -/

theorem primary_quoted (text rest : List Char) :
    primary self mode ('\'' :: (Text.escapeChars text ++ '\'' :: rest))
      = some (.string (String.ofList text), rest) := by
  rw [primary, bind_of_some (ahead_apply _), skip_cons _ rfl, nameOf_cons _ rfl]
  show quoted ('\'' :: (Text.escapeChars text ++ '\'' :: rest)) = _
  rw [quoted, skip_cons _ rfl, quotedOf, if_pos (by decide), quotedFrom_escapeChars]
  rfl

/-- An expression in parentheses. -/
theorem primary_paren {after : List Char} (hm : mode.IsPlain) (hc : (skip cs).head? ≠ some ')')
    (hd : (skip cs).head? ≠ some '.') (h : self mode .assignment cs = some (tree, after))
    (hs : skip after = ')' :: rest) (ha : afterArrow rest = none) :
    primary self mode ('(' :: cs) = some (.node .paren [inParentheses tree], rest) := by
  have comma : take? ',' after = some (false, after) := by
    refine take?_of_head ?_
    rw [hs, List.head?_cons]
    decide
  have inner : parenFrom self mode (cs.length + 1) cs = some (([tree], false), rest) := by
    rw [parenFrom, bind_of_some (take?_of_head hc), if_neg Bool.false_ne_true,
      bind_of_some (takeAll?_of_head _ hd), if_neg Bool.false_ne_true, hm.inside_eq,
      bind_of_some h, bind_of_some comma, if_neg Bool.false_ne_true,
      bind_of_some (mark_of_skip hs)]
    rfl
  have items : parenItems self mode ('(' :: cs) = some (([tree], false), rest) := by
    rw [parenItems, bind_of_some (mark_of_skip (skip_cons cs rfl))]
    exact inner
  rw [primary, bind_of_some (ahead_apply _), skip_cons _ rfl, nameOf_cons _ rfl]
  show parenthesized self mode ('(' :: cs) = _
  have arrow : isArrowNext rest = some (false, rest) := by
    show some ((afterArrow rest).isSome, rest) = _
    rw [ha]
    rfl
  rw [parenthesized, bind_of_some items]
  simp only
  rw [bind_of_some arrow]
  rfl

/-- What neither an operator nor a name starts with. -/
theorem unary_mark {c : Char} (hm : mode.IsPlain) (hg : startsGap c = false)
    (hn : Text.isNameStart c = false) (ho : ['+', '-', '~', '!'].contains c = false)
    (h : primary (grammar n) mode (c :: cs) = some (tree, rest)) (ht : isArrowHead tree = false)
    (hr : endsOperand rest) : grammar (n + 1) mode .unary (c :: cs) = some (tree, rest) := by
  have update : updateOf (skip (c :: cs)) = none := by
    rw [skip_cons cs hg]
    unfold updateOf
    split
    · next heq =>
      rw [(List.cons.inj heq).1] at ho
      exact absurd ho (by decide)
    · next heq =>
      rw [(List.cons.inj heq).1] at ho
      exact absurd ho (by decide)
    · rfl
  have operator : unaryOf (skip (c :: cs)) = none := by
    rw [skip_cons cs hg]
    unfold unaryOf
    rw [nameOf_cons cs hn]
    simp only [ho, Bool.false_eq_true, if_false]
  have word : takeWordIf mode.awaits "await" (c :: cs) = some (false, c :: cs) := by
    cases mode.awaits with
    | true => exact takeWord?_mark cs hg hn "await"
    | false => rfl
  exact unary_of_primary hm update operator word h ht hr

theorem unary_quoted (hm : mode.IsPlain) (text : List Char) (hr : endsOperand rest) :
    grammar (n + 1) mode .unary ('\'' :: (Text.escapeChars text ++ '\'' :: rest))
      = some (.string (String.ofList text), rest) :=
  unary_mark hm rfl rfl rfl (primary_quoted text rest) rfl hr

theorem unary_paren {after : List Char} (hm : mode.IsPlain) (hc : (skip cs).head? ≠ some ')')
    (hd : (skip cs).head? ≠ some '.') (h : grammar n mode .assignment cs = some (tree, after))
    (hs : skip after = ')' :: rest) (ha : afterArrow rest = none) (hr : endsOperand rest) :
    grammar (n + 1) mode .unary ('(' :: cs) = some (.node .paren [inParentheses tree], rest) :=
  unary_mark hm rfl rfl rfl (primary_paren hm hc hd h hs ha) rfl hr

/-! ## Names and member paths -/

theorem valueName_of_skip {name : List Char} (hs : skip cs = name ++ rest)
    (hn : Text.isNameChars name) (hw : isReserved (String.ofList name) = false)
    (ha : mode.awaits = false) (hy : mode.yields = false) (hr : endsName rest) :
    valueName mode cs = some (.identifier (String.ofList name), rest) := by
  have plain : plainName cs = some (String.ofList name, rest) := by
    rw [plainName, bind_of_some (anyName_of_skip hs hn hr), hw]
    rfl
  rw [valueName, bind_of_some plain, ha, hy]
  simp [ensure, pure_apply, bind_apply]

/-- A name that is not reserved. Nothing may follow that an arrow function could start with. -/
theorem primary_name {name : List Char} (hs : skip cs = name ++ rest) (hn : Text.isNameChars name)
    (hw : isReserved (String.ofList name) = false) (ha : mode.awaits = false)
    (hy : mode.yields = false) (hr : endsName rest) (hx : nameOf (skip rest) = none)
    (hp : (skip rest).head? ≠ some '(') :
    primary self mode cs = some (.identifier (String.ofList name), rest) := by
  have value := valueName_of_skip hs hn hw ha hy hr
  have taken := word_of_skip hs hn hr
  rw [primary, bind_of_some (ahead_apply _), hs, nameOf_append hn hr]
  show namedOperand self mode (String.ofList name) cs = _
  generalize String.ofList name = found at *
  unfold namedOperand
  split
  case h_10 =>
    -- neither a function nor parameters follow `async`
    refine (orElse_of_none ?_).trans ((orElse_of_none ?_).trans value)
    · rw [bind_of_some taken, bind_of_some (onNewLine_apply rest),
        bind_of_some (nextName_apply rest), hx]
      simp only [Option.map_none, reduceCtorEq, decide_false, Bool.and_false]
      exact bind_of_none (ensure_false rest) _
    · have items : parenItems self mode rest = none := by
        rw [parenItems, bind_of_none]
        rw [mark, bind_of_some (take?_of_head hp), ensure_false]
      rw [bind_of_some taken, bind_of_some (onNewLine_apply rest)]
      cases breaks rest with
      | true => rfl
      | false => exact (bind_of_some (ensure_true rest) _).trans (bind_of_none items _)
  case h_11 => exact value
  all_goals exact absurd hw (by decide)

theorem ne_of_isNameStart {c d : Char} (hc : Text.isNameStart c) (hd : Text.isNameStart d = false) :
    c ≠ d := by
  rintro rfl
  rw [hc] at hd
  cases hd

theorem isDigit_of_isNameStart {c : Char} (h : Text.isNameStart c) : c.isDigit = false := by
  have apart : ∀ code ∈ List.range' 48 10, Text.isNameStart (Char.ofNat code) = false := by decide
  by_contra hd
  simp only [Char.isDigit, Bool.not_eq_false, Bool.and_eq_true, decide_eq_true_eq] at hd
  have hc := apart c.toNat (List.mem_range'_1.mpr ⟨hd.1, Nat.lt_succ_of_le hd.2⟩)
  rw [Char.ofNat_toNat, h] at hc
  cases hc

theorem head?_skip_name {name : List Char} {m : Char} (hn : Text.isNameChars name)
    (hm : Text.isNameStart m = false) : (skip (name ++ rest)).head? ≠ some m := by
  rw [skip_name rest hn]
  cases name with
  | nil => cases hn
  | cons c more =>
    simp only [Text.isNameChars, Bool.and_eq_true] at hn
    rintro ⟨⟩
    exact ne_of_isNameStart hn.1 hm rfl

theorem joinsDot_name {name : List Char} (hn : Text.isNameChars name) :
    joinsDot (name ++ rest) = false := by
  cases name with
  | nil => cases hn
  | cons c more =>
    simp only [Text.isNameChars, Bool.and_eq_true] at hn
    have hdot : c ≠ '.' := ne_of_isNameStart hn.1 rfl
    rw [List.cons_append, joinsDot.eq_2 _ _ fun _ heq _ => hdot heq]
    exact isDigit_of_isNameStart hn.1

/-- An access by name. -/
theorem suffixesFrom_access {property : String} (hn : Text.isIdentifierName property)
    (hr : endsName rest) (fuel : Nat) (tree : Tree) :
    suffixesFrom self mode true (fuel + 1) tree false ('.' :: (property.toList ++ rest))
      = suffixesFrom self mode true fuel (.node (.member property false) [tree]) false rest := by
  have name : anyName (property.toList ++ rest) = some (property, rest) := by
    rw [anyName_of_skip (skip_name rest hn) hn hr, String.ofList_toList]
  have member : memberOf tree false (property.toList ++ rest)
      = some (.node (.member property false) [tree], rest) := by
    rw [memberOf, bind_of_some (take?_of_head (head?_skip_name hn rfl)),
      if_neg Bool.false_ne_true, bind_of_some name]
    rfl
  rw [suffixesFrom, bind_of_some (ahead_apply _), skip_cons _ rfl]
  simp only [joinsDot_name hn, Bool.false_eq_true, if_false]
  rw [bind_of_some (set_apply _ _), bind_of_some member]

/-- All accesses of a member path. -/
theorem suffixesFrom_accesses {p : MemberName} (hp : p.isLegal) (fuel : Nat) :
    ∀ {rest : List Char}, endsName rest →
    suffixesFrom self mode true (p.depth + fuel) p.root.reference false (p.accesses ++ rest)
      = suffixesFrom self mode true fuel p.reference false rest := by
  -- accesses are read from the left, and the path has its last one outermost
  induction p generalizing fuel with
  | base root property =>
    intro rest hr
    rw [MemberName.isLegal, Bool.and_eq_true] at hp
    rw [MemberName.depth, Nat.add_comm, MemberName.accesses, List.cons_append,
      suffixesFrom_access hp.2 hr, MemberName.reference, Tree.access_of_isIdentifierName hp.2]
    rfl
  | step object property ih =>
    intro rest hr
    rw [MemberName.isLegal, Bool.and_eq_true] at hp
    rw [MemberName.depth, Nat.add_assoc, Nat.add_comm 1, MemberName.accesses, List.append_assoc,
      MemberName.root, ih hp.1 (fuel + 1) rfl, List.cons_append, suffixesFrom_access hp.2 hr,
      MemberName.reference, Tree.access_of_isIdentifierName hp.2]

/-- The root of a path. Nothing may follow that an arrow function could start with. -/
theorem primary_root {root : MemberRoot} (hl : root.isLegal) (ha : mode.awaits = false)
    (hy : mode.yields = false) (hs : skip cs = root.text.toList ++ rest) (hr : endsName rest)
    (hx : nameOf (skip rest) = none) (hp : (skip rest).head? ≠ some '(') :
    primary self mode cs = some (root.reference, rest) := by
  have hn := MemberRoot.isNameChars_text hl
  cases root with
  | this =>
    rw [primary, bind_of_some (ahead_apply _), hs, nameOf_append hn hr]
    have taken : word "this" cs = some ((), rest) := word_of_skip hs hn hr
    exact bind_of_some taken _
  | name word =>
    rw [MemberRoot.reference_name hl]
    simp only [MemberRoot.isLegal, Bool.and_eq_true, Bool.not_eq_true'] at hl
    rw [MemberRoot.text] at hs hn
    have plain : isReserved (String.ofList word.toList) = false := by
      rw [String.ofList_toList, hl.2]
    rw [primary_name hs hn plain ha hy hr hx hp, String.ofList_toList]

theorem updateOf_name {name : List Char} (hn : Text.isNameChars name) :
    updateOf (name ++ rest) = none := by
  cases name with
  | nil => cases hn
  | cons c more =>
    simp only [Text.isNameChars, Bool.and_eq_true] at hn
    have hplus : c ≠ '+' := ne_of_isNameStart hn.1 rfl
    have hminus : c ≠ '-' := ne_of_isNameStart hn.1 rfl
    unfold updateOf
    split
    · next heq => exact absurd (List.cons.inj heq).1 hplus
    · next heq => exact absurd (List.cons.inj heq).1 hminus
    · rfl

theorem unaryOf_name {name : List Char} (hn : Text.isNameChars name) (hr : endsName rest)
    (hw : ["delete", "void", "typeof"].contains (String.ofList name) = false) :
    unaryOf (name ++ rest) = none := by
  unfold unaryOf
  rw [nameOf_append hn hr]
  exact if_neg (by rw [hw]; exact Bool.false_ne_true)

theorem contains_root {root : MemberRoot} (hl : root.isLegal) :
    ["delete", "void", "typeof"].contains root.text = false := by
  cases root with
  | this => rfl
  | name word =>
    simp only [MemberRoot.isLegal, Bool.and_eq_true, Bool.not_eq_true'] at hl
    by_contra hc
    simp only [MemberRoot.text, Bool.not_eq_false, List.contains_iff_mem, List.mem_cons,
      List.not_mem_nil, or_false] at hc
    rcases hc with rfl | rfl | rfl <;> exact absurd hl.2 (by decide)

/-- A name that nothing follows. -/
theorem unary_name {name : List Char} (hm : mode.IsPlain) (ha : mode.awaits = false)
    (hs : skip cs = name ++ rest) (hn : Text.isNameChars name)
    (hw : isReserved (String.ofList name) = false)
    (ho : ["delete", "void", "typeof"].contains (String.ofList name) = false)
    (hr : endsName rest) (he : endsOperand rest) :
    grammar (n + 1) mode .unary cs = some (.identifier (String.ofList name), rest) := by
  have word : takeWordIf mode.awaits "await" cs = some (false, cs) := by
    rw [ha]
    rfl
  exact unary_of_primary hm (hs ▸ updateOf_name hn) (hs ▸ unaryOf_name hn hr ho) word
    (primary_name hs hn hw ha hm.yields hr (nameOf_of_end he) (head?_of_end he)) rfl he

/-- A name that neither an arrow nor another arrow function follows is not the parameter of an arrow
function, also not after `async`. -/
theorem namedArrow_name {name : List Char} (hs : skip cs = name ++ rest)
    (hn : Text.isNameChars name) (hr : endsName rest) (ha : afterArrow rest = none)
    (hx : namedArrowOf (skip rest) = none) : namedArrow cs = none := by
  have first : namedArrowOf (name ++ rest) = none := by
    rw [namedArrowOf, anyNameOf_append hn hr]
    simp [ha]
  rw [namedArrow, bind_of_some (ahead_apply cs), hs, first]
  simp only
  by_cases hw : String.ofList name = "async"
  · -- the name could be a modifier, but then a parameter would have to follow it
    rw [← hw, bind_of_some (word_of_skip hs hn hr), bind_of_some (onNewLine_apply _)]
    cases breaks rest with
    | true => rfl
    | false =>
      rw [Bool.not_false, bind_of_some (ensure_true _), bind_of_some (ahead_apply _), hx]
      rfl
  · refine bind_of_none ?_ _
    rw [word, bind_of_some ((takeWord?_of_skip hs hn hr _).trans (if_neg hw))]
    rfl

/-- The root of a path that nothing follows. -/
theorem assignment_root {root : MemberRoot} (hm : mode.IsPlain) (ha : mode.awaits = false)
    (hl : root.isLegal) (hs : skip cs = root.text.toList ++ rest) (hr : endsName rest)
    (ho : endsOperand rest) (hx : endsOperators 0 rest) (he : endsAssignment rest)
    (hn : afterArrow rest = none) (hw : namedArrowOf (skip rest) = none) :
    grammar (n + 3) mode .assignment cs = some (root.reference, rest) := by
  have name := MemberRoot.isNameChars_text hl
  have word : takeWordIf mode.awaits "await" cs = some (false, cs) := by
    rw [ha]
    rfl
  have plain : ["delete", "void", "typeof"].contains (String.ofList root.text.toList) = false := by
    rw [String.ofList_toList, contains_root hl]
  have start : isArrowHead root.reference = false := by
    obtain ⟨content, h⟩ := root.exists_leaf
    rw [h]
    rfl
  have unary : grammar (n + 1) mode .unary cs = some (root.reference, rest) :=
    unary_of_primary hm (hs ▸ updateOf_name name) (hs ▸ unaryOf_name name hr plain) word
      (primary_root hl ha hm.yields hs hr (nameOf_of_end ho) (head?_of_end ho)) start ho
  exact assignment_of_unary hm (namedArrow_name hs name hr hn hw) unary start hx he

/-- A member path that nothing follows. -/
theorem assignment_path {p : MemberName} (hm : mode.IsPlain) (ha : mode.awaits = false)
    (hl : p.isLegal) (hs : skip cs = p.dotted.toList ++ rest) (hr : endsName rest)
    (ho : endsOperand rest) (hx : endsOperators 0 rest) (he : endsAssignment rest) :
    grammar (n + 3) mode .assignment cs = some (p.reference, rest) := by
  obtain ⟨more, hd⟩ := p.exists_accesses
  have hroot := p.isLegal_root hl
  have hn := MemberRoot.isNameChars_text hroot
  have hs' : skip cs = p.root.text.toList ++ '.' :: (more ++ rest) := by
    rw [hs, p.toList_dotted, hd, List.append_assoc, List.cons_append]
  have suffixes : suffixesFrom (grammar n) mode true (('.' :: (more ++ rest)).length + 1)
      p.root.reference false ('.' :: (more ++ rest)) = some ((p.reference, false), rest) := by
    -- each access takes one turn of the loop, and at least one character
    obtain ⟨fuel, hf⟩ : ∃ fuel, ('.' :: (more ++ rest)).length + 1 = p.depth + (fuel + 1) := by
      have := p.depth_le_length
      rw [hd] at this
      exact ⟨('.' :: (more ++ rest)).length - p.depth, by simp at this ⊢; omega⟩
    rw [hf, ← List.cons_append, ← hd, suffixesFrom_accesses hl _ hr,
      suffixesFrom_of_end hm ho]
  have word : takeWordIf mode.awaits "await" cs = some (false, cs) := by
    rw [ha]
    rfl
  have path : isArrowHead p.reference = false := by
    obtain ⟨object, property, h⟩ := p.exists_member hl
    rw [h]
    rfl
  have start : isArrowHead p.root.reference = false := by
    obtain ⟨content, h⟩ := p.root.exists_leaf
    rw [h]
    rfl
  have root : ["delete", "void", "typeof"].contains (String.ofList p.root.text.toList) = false := by
    rw [String.ofList_toList, contains_root hroot]
  have unary : grammar (n + 1) mode .unary cs = some (p.reference, rest) :=
    unary_of_updated (hs' ▸ updateOf_name hn) (hs' ▸ unaryOf_name hn rfl root) word
      (updated_of_suffixes
        (primary_root hroot ha hm.yields hs' rfl rfl (head?_skip_cons rfl (by decide))) start
        suffixes ho)
  have arrowless : namedArrow cs = none := by
    refine namedArrow_name hs' hn rfl rfl ?_
    rw [skip_cons _ rfl, namedArrowOf, anyNameOf_cons _ rfl (by decide)]
    rfl
  exact assignment_of_unary hm arrowless unary path hx he

/-! ## Declarations -/

/-- A name that is bound. -/
theorem binding_name {name : List Char} (hs : skip cs = name ++ rest) (hn : Text.isNameChars name)
    (hw : isReserved (String.ofList name) = false) (ha : mode.awaits = false)
    (hy : mode.yields = false) (hr : endsName rest) :
    grammar (n + 1) mode .binding cs = some (.identifier (String.ofList name), rest) := by
  have head {m : Char} (hm : Text.isNameStart m = false) : (skip cs).head? ≠ some m := by
    rw [hs, ← skip_name rest hn]
    exact head?_skip_name hn hm
  rw [grammar_succ, goalReader, binding, bind_of_some (take?_of_head (head rfl)),
    if_neg Bool.false_ne_true, bind_of_some (take?_of_head (head rfl)), if_neg Bool.false_ne_true,
    valueName_of_skip hs hn hw ha hy hr]

theorem definiteMark_of_plain (hm : mode.IsPlain) (cs : List Char) :
    definiteMark mode cs = some ("", cs) := by
  rw [definiteMark, hm.typescript]
  rfl

theorem typeAfterColon_of_plain (hm : mode.IsPlain) (cs : List Char) :
    typeAfterColon self mode cs = some (.absent, cs) := by
  rw [typeAfterColon, hm.typescript]
  rfl

theorem takeEquals?_of_none (h : afterEquals (skip cs) = none) :
    takeEquals? cs = some (false, cs) := by
  rw [takeEquals?, h]

/-- A variable without a value. -/
theorem declarator_of_none (hm : mode.IsPlain) (h : self mode .binding cs = some (tree, rest))
    (he : afterEquals (skip rest) = none) :
    declarator self mode cs = some (.node .declarator [tree, .absent], rest) := by
  rw [declarator, bind_of_some h, bind_of_some (definiteMark_of_plain hm rest),
    bind_of_some (typeAfterColon_of_plain hm rest)]
  refine (bind_of_some (takeEquals?_of_none he) _).trans ?_
  rfl

/-- A variable with a value. -/
theorem declarator_of_value {more after : List Char} {value : Tree} (hm : mode.IsPlain)
    (h : self mode .binding cs = some (tree, more)) (he : afterEquals (skip more) = some after)
    (hv : self mode .assignment after = some (value, rest)) :
    declarator self mode cs = some (.node .declarator [tree, value], rest) := by
  have equals : takeEquals? more = some (true, after) := by
    rw [takeEquals?, he]
  rw [declarator, bind_of_some h, bind_of_some (definiteMark_of_plain hm more),
    bind_of_some (typeAfterColon_of_plain hm more)]
  refine (bind_of_some equals _).trans ?_
  rw [if_pos rfl, bind_of_some hv]
  rfl

end

end JsxLowering.Source
