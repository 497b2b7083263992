import JsxLowering.Proofs.Escapes
import JsxLowering.Proofs.ReadingExpressions
import JsxLowering.Template.Compile

/-!
# How a template is read back

A template compiles, whatever its texts are, if the code of each hole is a whole expression: the
source written for it is read up to its end, as the function that joins its texts and the values of
its holes. Member paths are such code.
-/

namespace JsxLowering.Template

open Source

/-! ## The function -/

/-- A hole as it is read: its code, the value that the code spells, and the text after the hole. -/
structure Slot where
  code : List Char
  value : Tree
  text : List Char

/-- The hole without its value. -/
def Slot.hole (slot : Slot) : List Char × List Char := (slot.code, slot.text)

/-- The variable for the value of a hole. -/
def valueVariable : Tree := .identifier "__t"

/-- The variable for what is joined. -/
def resultVariable : Tree := .identifier "__p"

/-- The expression for a hole: its value, or nothing if that is `null` or undefined. -/
def holeTree (value : Tree) : Tree :=
  .node .paren [.node .conditional
    [.node (.binary "==")
      [.node .paren [.node (.assign "=") [valueVariable, .node .paren [value]]], .null],
     .string "", valueVariable]]

/-- A hole and the text after it, joined to what stands before. -/
def joinHole (left : Tree) (slot : Slot) : Tree :=
  .node (.binary "+")
    [.node (.binary "+") [left, holeTree slot.value], .string (String.ofList slot.text)]

/-- The expression that joins all parts of a template. -/
def joinTree (head : List Char) (slots : List Slot) : Tree :=
  slots.foldl joinHole (.string (String.ofList head))

/-- The function with the given name for a template. -/
def functionTree (name : Tree) (head : List Char) (slots : List Slot) : Tree :=
  .node (.function (.expression false) false false)
    [name, .node .parameters [.identifier dataName],
     .node .body
       [.node (.variableList .var)
          [.node .declarator [valueVariable, .absent],
           .node .declarator [resultVariable, .string ""]],
        .node .expression [.node (.assign "+=") [resultVariable, joinTree head slots]],
        .node .returns [resultVariable]]]

/-! ## Its source -/

/-- The template with the code and the texts of some holes. -/
def ofSlots (head : List Char) (slots : List Slot) : Template := ⟨head, slots.map Slot.hole⟩

/-- A text between quotes, and what comes after. -/
def quotedSource (text rest : List Char) : List Char :=
  '\'' :: (Text.escapeChars text ++ '\'' :: rest)

/-- The line break after a part of the source, if these are kept. -/
def lineBreak (kept : Bool) : List Char := if kept then ['\n'] else []

/-- The source of a hole and the text after it, with its line breaks or without, and what comes
after. -/
def holeLayout (kept : Bool) (hole : List Char × List Char) (rest : List Char) : List Char :=
  '+' :: (lineBreak kept ++ ("((__t=(".toList
    ++ (hole.1 ++ ("))==null?'':__t)".toList
      ++ '+' :: (lineBreak kept ++ quotedSource hole.2 rest)))))

/-- The source of holes with the texts after them. -/
def holesLayout (kept : Bool) (holes : List (List Char × List Char)) (rest : List Char) :
    List Char := holes.foldr (holeLayout kept) rest

/-- The source of the body after its opening brace. -/
def bodyLayout (kept : Bool) (t : Template) : List Char :=
  lineBreak kept ++ ("var __t,__p='';".toList
    ++ (lineBreak kept ++ ("__p+=".toList
      ++ quotedSource t.head (holesLayout kept t.holes (';' :: (lineBreak kept
        ++ ("return __p;".toList ++ (lineBreak kept ++ ['\x7d']))))))))

/-- The source of the function. -/
def functionLayout (kept : Bool) (t : Template) : List Char :=
  "function tmpl(data)".toList ++ '\x7b' :: bodyLayout kept t

theorem quotedSource_suffix_holeLayout (kept : Bool) (hole : List Char × List Char)
    (rest : List Char) : quotedSource hole.2 rest <:+ holeLayout kept hole rest := by
  have text : quotedSource hole.2 rest <:+ '+' :: (lineBreak kept ++ quotedSource hole.2 rest) :=
    (List.suffix_append _ _).trans (List.suffix_cons _ _)
  have hole : '+' :: (lineBreak kept ++ quotedSource hole.2 rest)
      <:+ "((__t=(".toList ++ (hole.1 ++ ("))==null?'':__t)".toList
        ++ '+' :: (lineBreak kept ++ quotedSource hole.2 rest))) :=
    (List.suffix_append _ _).trans ((List.suffix_append _ _).trans (List.suffix_append _ _))
  exact text.trans (hole.trans ((List.suffix_append _ _).trans (List.suffix_cons _ _)))

/-- Whether the code of a hole, in parentheses, is read as its value whatever comes after the
hole. -/
def Slot.IsRead (self : Grammar) (mode : Mode) (slot : Slot) : Prop :=
  ∀ more, self mode .unary ('(' :: (slot.code ++ ')' :: ')' :: more))
    = some (.node .paren [slot.value], ')' :: more)

section
variable {mode : Mode} {rest : List Char} {n : Nat} (kept : Bool)

/-! ## Parts of the function -/

/-- A line break before a parenthesis or a quote is skipped. -/
theorem operand_lineBreak {c : Char} (hc : c = '(' ∨ c = '\'') (level : Nat) (cs : List Char) :
    grammar (n + 2) mode (.operand level) (lineBreak kept ++ c :: cs)
      = grammar (n + 2) mode (.operand level) (c :: cs) := by
  -- no operator can start with these characters, so both texts are left to the first operand
  have update : updateOf (c :: cs) = none := by rcases hc with rfl | rfl <;> rfl
  have operator : unaryOf (c :: cs) = none := by rcases hc with rfl | rfl <;> rfl
  have nameless : nameOf (c :: cs) = none := by rcases hc with rfl | rfl <;> rfl
  have word {text : List Char} (ht : skip text = c :: cs) :
      takeWordIf mode.awaits "await" text = some (false, text) := by
    cases mode.awaits with
    | false => rfl
    | true => rw [takeWordIf, if_pos rfl, takeWord?, ht, nameless]
  have unary {text : List Char} (ht : skip text = c :: cs) :
      grammar (n + 1) mode .unary text = updated (grammar n) mode text :=
    unary_eq_updated (ht ▸ update) (ht ▸ operator) (word ht)
  have first : primary (grammar n) mode (lineBreak kept ++ c :: cs)
      = primary (grammar n) mode (c :: cs) := by
    cases kept <;> rcases hc with rfl | rfl <;> rfl
  have skipped : skip (lineBreak kept ++ c :: cs) = c :: cs ∧ skip (c :: cs) = c :: cs := by
    cases kept <;> rcases hc with rfl | rfl <;> exact ⟨rfl, rfl⟩
  rw [grammar_succ, goalReader, operand, bind_apply, bind_apply, unary skipped.1, unary skipped.2,
    updated, leftHand, bind_apply, bind_apply, bind_apply, bind_apply, first]

/-- The variable for the value of a hole, before what ends an expression. -/
theorem assignment_value (hm : mode.IsPlain) (ha : mode.awaits = false) (more : List Char) :
    grammar (n + 3) mode .assignment ("__t".toList ++ ')' :: more)
      = some (valueVariable, ')' :: more) := by
  have unary : grammar (n + 1) mode .unary ("__t".toList ++ ')' :: more)
      = some (valueVariable, ')' :: more) := unary_name hm ha (skip_name _ rfl) rfl rfl rfl rfl rfl
  exact assignment_of_unary hm rfl unary rfl rfl rfl

/-- The value of a hole, kept in a variable, in parentheses. -/
theorem unary_kept (hm : mode.IsPlain) (ha : mode.awaits = false) {slot : Slot}
    (hs : slot.IsRead (grammar (n + 4)) mode) (more : List Char) :
    grammar (n + 8) mode .unary
        ("(__t=(".toList ++ (slot.code ++ ')' :: ')' :: '=' :: '=' :: more))
      = some (.node .paren [.node (.assign "=") [valueVariable, .node .paren [slot.value]]],
          '=' :: '=' :: more) := by
  -- from the inside out: the code in parentheses, the variable before it, and the assignment
  have value : grammar (n + 6) mode .assignment
      ('(' :: (slot.code ++ ')' :: ')' :: '=' :: '=' :: more))
        = some (.node .paren [slot.value], ')' :: '=' :: '=' :: more) :=
    assignment_of_unary hm (namedArrow_mark _ rfl rfl (by decide)) (hs _) rfl rfl rfl
  have target : grammar (n + 5) mode .unary
      ("__t".toList ++ '=' :: '(' :: (slot.code ++ ')' :: ')' :: '=' :: '=' :: more))
        = some (valueVariable, '=' :: '(' :: (slot.code ++ ')' :: ')' :: '=' :: '=' :: more)) :=
    unary_name hm ha (skip_name _ rfl) rfl rfl rfl rfl rfl
  have assigned : grammar (n + 7) mode .assignment
      ("__t".toList ++ '=' :: '(' :: (slot.code ++ ')' :: ')' :: '=' :: '=' :: more))
        = some (.node (.assign "=") [valueVariable, .node .paren [slot.value]],
            ')' :: '=' :: '=' :: more) := by
    rw [assignment_of_operand hm rfl (operand_of_unary hm target rfl) rfl,
      assignmentFrom_assign rfl rfl value]
    rfl
  exact unary_paren hm (head?_skip_cons rfl (by decide)) (head?_skip_cons rfl (by decide)) assigned
    rfl rfl rfl

/-- Whether the value of a hole is there. -/
theorem operand_test (hm : mode.IsPlain) (ha : mode.awaits = false) {slot : Slot}
    (hs : slot.IsRead (grammar (n + 4)) mode) (more : List Char) :
    grammar (n + 9) mode (.operand 0)
        ("(__t=(".toList ++ (slot.code ++ ("))==null?'".toList ++ more)))
      = some (.node (.binary "==")
          [.node .paren [.node (.assign "=") [valueVariable, .node .paren [slot.value]]], .null],
          '?' :: '\'' :: more) := by
  have word : takeWordIf mode.awaits "await" ("null?'".toList ++ more)
      = some (false, "null?'".toList ++ more) := by
    rw [ha]
    rfl
  have null : grammar (n + 7) mode .unary ("null?'".toList ++ more)
      = some (.null, '?' :: '\'' :: more) := unary_of_primary hm rfl rfl word rfl rfl rfl
  refine (operand_eq 0 (unary_kept hm ha hs _)).trans ?_
  refine (operatorsFrom_of_operand hm rfl (by decide) rfl (operand_of_unary hm null rfl) rfl).trans
    ?_
  exact operatorsFrom_of_end hm rfl _

/-- A hole, before what is joined to it. -/
theorem operand_hole (hm : mode.IsPlain) (ha : mode.awaits = false) {slot : Slot}
    (hs : slot.IsRead (grammar (n + 4)) mode) {more : List Char} (ho : endsOperand ('+' :: more))
    (hx : endsOperators 10 ('+' :: more)) :
    grammar (n + 12) mode (.operand 10)
        ("((__t=(".toList ++ (slot.code ++ ("))==null?'':__t)".toList ++ '+' :: more)))
      = some (holeTree slot.value, '+' :: more) := by
  -- the two branches of the conditional are the empty string and the variable
  have empty : grammar (n + 9) mode .assignment ("'':__t)".toList ++ '+' :: more)
      = some (.string "", ":__t)".toList ++ '+' :: more) := by
    have unary : grammar (n + 7) mode .unary ("'':__t)".toList ++ '+' :: more)
        = some (.string "", ":__t)".toList ++ '+' :: more) := unary_quoted hm [] rfl
    exact assignment_of_unary hm rfl unary rfl rfl rfl
  have choice : grammar (n + 10) mode .assignment
      ("(__t=(".toList ++ (slot.code ++ ("))==null?'':__t)".toList ++ '+' :: more)))
        = some (.node .conditional
            [.node (.binary "==")
              [.node .paren [.node (.assign "=") [valueVariable, .node .paren [slot.value]]],
               .null],
             .string "", valueVariable], ')' :: '+' :: more) := by
    refine (assignment_of_operand hm (namedArrow_mark _ rfl rfl (by decide))
      (operand_test hm ha hs _) rfl).trans ?_
    exact assignmentFrom_conditional hm rfl rfl empty (assignment_value hm ha _)
  have arrowless : afterArrow ('+' :: more) = none := rfl
  have hole := unary_paren hm (head?_skip_cons rfl (by decide)) (head?_skip_cons rfl (by decide))
    choice rfl arrowless ho
  exact operand_of_unary hm hole hx

/-! ## The joined expression -/

theorem endsOperand_holesLayout (holes : List (List Char × List Char)) (more : List Char) :
    endsOperand (holesLayout kept holes (';' :: more)) := by
  cases holes <;> cases kept <;> rfl

theorem endsOperators_holesLayout (holes : List (List Char × List Char)) (more : List Char) :
    endsOperators 10 (holesLayout kept holes (';' :: more)) := by
  cases holes <;> cases kept <;> rfl

/-- The holes and texts after what is joined already, one after the other. -/
theorem operatorsFrom_holes (hm : mode.IsPlain) (ha : mode.awaits = false) {slots : List Slot}
    (hs : ∀ slot ∈ slots, slot.IsRead (grammar (n + 4)) mode) (fuel : Nat) (left : Tree)
    (more : List Char) :
    operatorsFrom (grammar (n + 12)) mode 0 (2 * slots.length + (fuel + 1)) left
        (holesLayout kept (slots.map Slot.hole) (';' :: more))
      = some (slots.foldl joinHole left, ';' :: more) := by
  -- sums nest to the left, so the operand on the left grows from slot to slot
  induction slots generalizing left with
  | nil =>
    rw [List.length_nil, Nat.mul_zero, Nat.zero_add]
    exact operatorsFrom_of_end hm rfl fuel
  | cons slot slots ih =>
    have ends := endsOperand_holesLayout kept (slots.map Slot.hole) more
    have loosens := endsOperators_holesLayout kept (slots.map Slot.hole) more
    have others := ih fun slot h => hs slot (List.mem_cons_of_mem _ h)
    show operatorsFrom _ mode 0 _ left (holeLayout kept slot.hole
      (holesLayout kept (slots.map Slot.hole) (';' :: more))) = _
    -- of what comes after the hole only these facts are used, so its text can be anything
    generalize holesLayout kept (slots.map Slot.hole) (';' :: more) = after at ends loosens others ⊢
    have sum : endsOperand ('+' :: (lineBreak kept ++ quotedSource slot.text after))
        ∧ endsOperators 10 ('+' :: (lineBreak kept ++ quotedSource slot.text after)) := by
      cases kept <;> exact ⟨rfl, rfl⟩
    have first := (operand_lineBreak kept (.inl rfl) 10 _).trans
      (operand_hole hm ha (hs slot List.mem_cons_self) sum.1 sum.2)
    have text : grammar (n + 12) mode (.operand 10) (quotedSource slot.text after)
        = some (.string (String.ofList slot.text), after) :=
      operand_of_unary hm (unary_quoted hm slot.text ends) loosens
    have second := (operand_lineBreak kept (.inr rfl) 10 _).trans text
    have joins (c : Char) (hc : c = '(' ∨ c = '\'') (cs : List Char) :
        binaryOf true (skip ('+' :: (lineBreak kept ++ c :: cs)))
          = some ("+", 10, lineBreak kept ++ c :: cs) := by
      cases kept <;> rcases hc with rfl | rfl <;> rfl
    -- each hole takes two turns of the loop, one for its value and one for the text after it
    have count : 2 * (slot :: slots).length + (fuel + 1)
        = 2 * slots.length + (fuel + 1) + 1 + 1 := by
      rw [List.length_cons]
      omega
    rw [count]
    refine (operatorsFrom_of_operand hm (joins _ (.inl rfl) _) (by decide) rfl first rfl).trans ?_
    refine (operatorsFrom_of_operand hm (joins _ (.inr rfl) _) (by decide) rfl second rfl).trans ?_
    exact others _

theorem length_holesLayout (holes : List (List Char × List Char)) (rest : List Char) :
    2 * holes.length ≤ (holesLayout kept holes rest).length := by
  induction holes with
  | nil => exact Nat.zero_le _
  | cons hole holes ih =>
    -- the two quotes of each text are enough
    have hle := (quotedSource_suffix_holeLayout kept hole (holesLayout kept holes rest)).length_le
    rw [quotedSource, List.length_cons, List.length_append, List.length_cons] at hle
    rw [List.length_cons]
    show _ ≤ (holeLayout kept hole (holesLayout kept holes rest)).length
    omega

theorem isArrowHead_joined {left : Tree} (h : isArrowHead left = false) (slots : List Slot) :
    isArrowHead (slots.foldl joinHole left) = false := by
  induction slots generalizing left with
  | nil => exact h
  | cons slot slots ih => exact ih rfl

/-- The expression that joins all parts of a template. -/
theorem assignment_joined (hm : mode.IsPlain) (ha : mode.awaits = false) (head : List Char)
    {slots : List Slot} (hs : ∀ slot ∈ slots, slot.IsRead (grammar (n + 4)) mode)
    (more : List Char) :
    grammar (n + 14) mode .assignment
        (quotedSource head (holesLayout kept (slots.map Slot.hole) (';' :: more)))
      = some (joinTree head slots, ';' :: more) := by
  have ends := endsOperand_holesLayout kept (slots.map Slot.hole) more
  have length := length_holesLayout kept (slots.map Slot.hole) (';' :: more)
  have others (fuel : Nat) := operatorsFrom_holes kept hm ha hs fuel
    (.string (String.ofList head)) more
  rw [List.length_map] at length
  generalize holesLayout kept (slots.map Slot.hole) (';' :: more) = after at ends length others ⊢
  have unary : grammar (n + 12) mode .unary (quotedSource head after)
      = some (.string (String.ofList head), after) := unary_quoted hm head ends
  -- the loop is granted as many turns as there are characters left, so two for each hole remain
  have turns : after.length + 1 = 2 * slots.length + (after.length - 2 * slots.length + 1) := by
    omega
  have joined : grammar (n + 13) mode (.operand 0) (quotedSource head after)
      = some (joinTree head slots, ';' :: more) := by
    rw [operand_eq 0 unary, turns, others]
    rfl
  have arrowless : namedArrow (quotedSource head after) = none :=
    namedArrow_mark _ rfl rfl (by decide)
  rw [assignment_of_operand hm arrowless joined (isArrowHead_joined rfl slots),
    assignmentFrom_of_end rfl]

/-! ## Statements -/

/-- The statement that declares the variables. -/
theorem statement_variables (hm : mode.IsPlain) (ha : mode.awaits = false) (more : List Char) :
    grammar (n + 4) mode (.statement false) (lineBreak kept ++ ("var __t,__p='';".toList ++ more))
      = some (.node (.variableList .var)
          [.node .declarator [valueVariable, .absent],
           .node .declarator [resultVariable, .string ""]], more) := by
  have gap : skip (" __t,__p='';".toList ++ more) = "__t".toList ++ (",__p='';".toList ++ more) :=
    rfl
  have first : declarator (grammar (n + 3)) mode (" __t,__p='';".toList ++ more)
      = some (.node .declarator [valueVariable, .absent], ",__p='';".toList ++ more) :=
    declarator_of_none hm (binding_name gap rfl rfl ha hm.yields rfl) rfl
  have empty : grammar (n + 3) mode .assignment ("'';".toList ++ more)
      = some (.string "", ';' :: more) := by
    have unary : grammar (n + 1) mode .unary ("'';".toList ++ more)
        = some (.string "", ';' :: more) := unary_quoted hm [] rfl
    exact assignment_of_unary hm rfl unary rfl rfl rfl
  have name : skip ("__p='';".toList ++ more) = "__p".toList ++ ("='';".toList ++ more) := rfl
  have second : declarator (grammar (n + 3)) mode ("__p='';".toList ++ more)
      = some (.node .declarator [resultVariable, .string ""], ';' :: more) :=
    declarator_of_value hm (binding_name name rfl rfl ha hm.yields rfl) rfl empty
  have list : variableList (grammar (n + 3)) mode .var (" __t,__p='';".toList ++ more)
      = some (.node (.variableList .var)
          [.node .declarator [valueVariable, .absent],
           .node .declarator [resultVariable, .string ""]], ';' :: more) := by
    have both := commas_of_pair (by simp) first rfl second rfl
    rw [variableList, bind_of_some both]
    rfl
  have word : variableWord? mode (lineBreak kept ++ ("var __t,__p='';".toList ++ more))
      = some (some .var, " __t,__p='';".toList ++ more) := by cases kept <;> rfl
  have next : skip (lineBreak kept ++ ("var __t,__p='';".toList ++ more))
      = "var __t,__p='';".toList ++ more := by cases kept <;> rfl
  -- the word `var` leads to the declaration, and each declarator is read up to its mark
  rw [grammar_succ, goalReader, statement, bind_of_some (nextName_apply _), next]
  show variableOrOther (grammar (n + 3)) mode false _ = _
  rw [variableOrOther, bind_of_some word]
  show variableStatement (grammar (n + 3)) mode .var (" __t,__p='';".toList ++ more) = _
  rw [variableStatement, bind_of_some list]
  cases mode.ambient <;> rfl

/-- The statement that joins all parts. -/
theorem statement_joined (hm : mode.IsPlain) (ha : mode.awaits = false) (head : List Char)
    {slots : List Slot} (hs : ∀ slot ∈ slots, slot.IsRead (grammar (n + 4)) mode)
    (more : List Char) :
    grammar (n + 17) mode (.statement false) (lineBreak kept ++ ("__p+=".toList
        ++ quotedSource head (holesLayout kept (slots.map Slot.hole) (';' :: more))))
      = some (.node .expression [.node (.assign "+=") [resultVariable, joinTree head slots]],
          more) := by
  have joined := assignment_joined kept hm ha head hs more
  generalize quotedSource head (holesLayout kept (slots.map Slot.hole) (';' :: more)) = line
    at joined ⊢
  have gap : skip (lineBreak kept ++ ("__p+=".toList ++ line))
      = "__p".toList ++ '+' :: '=' :: line := by cases kept <;> rfl
  have target : grammar (n + 13) mode .unary (lineBreak kept ++ ("__p+=".toList ++ line))
      = some (resultVariable, '+' :: '=' :: line) :=
    unary_name hm ha gap rfl rfl rfl rfl rfl
  have arrowless : namedArrow (lineBreak kept ++ ("__p+=".toList ++ line)) = none := by
    cases kept <;> rfl
  have value : grammar (n + 15) mode .assignment (lineBreak kept ++ ("__p+=".toList ++ line))
      = some (.node (.assign "+=") [resultVariable, joinTree head slots], ';' :: more) := by
    refine (assignment_of_operand hm arrowless (operand_of_unary hm target rfl) rfl).trans ?_
    exact assignmentFrom_assign rfl rfl joined
  have expression := expression_of_assignment value (head?_skip_cons rfl (by decide))
  have stated : expressionStatement (grammar (n + 16)) mode
      (lineBreak kept ++ ("__p+=".toList ++ line))
        = some (.node .expression [.node (.assign "+=") [resultVariable, joinTree head slots]],
            more) := by
    rw [expressionStatement, hm.inside_eq, bind_of_some expression]
    rfl
  -- a name that starts no other statement starts an expression
  rw [grammar_succ, goalReader, statement, bind_of_some (nextName_apply _), gap]
  show otherStatement (grammar (n + 16)) mode _ = _
  rw [otherStatement, bind_of_some (ahead_apply _), gap, hm.typescript]
  exact stated

/-- The statement that gives the result. -/
theorem statement_returns (hm : mode.IsPlain) (ha : mode.awaits = false) (hr : mode.returns = true)
    (more : List Char) :
    grammar (n + 5) mode (.statement false) (lineBreak kept ++ ("return __p;".toList ++ more))
      = some (.node .returns [resultVariable], more) := by
  have gap : skip (" __p;".toList ++ more) = "__p".toList ++ ';' :: more := rfl
  have value : grammar (n + 4) mode .expression (" __p;".toList ++ more)
      = some (resultVariable, ';' :: more) := by
    have unary : grammar (n + 1) mode .unary (" __p;".toList ++ more)
        = some (resultVariable, ';' :: more) :=
      unary_name hm ha gap rfl rfl rfl rfl rfl
    refine expression_of_assignment ?_ (head?_skip_cons rfl (by decide))
    exact assignment_of_unary hm rfl unary rfl rfl rfl
  have word : Source.word "return" (lineBreak kept ++ ("return __p;".toList ++ more))
      = some ((), " __p;".toList ++ more) := by cases kept <;> rfl
  have next : skip (lineBreak kept ++ ("return __p;".toList ++ more))
      = "return __p;".toList ++ more := by cases kept <;> rfl
  have goes : isStatementEnd (" __p;".toList ++ more) = some (false, " __p;".toList ++ more) := rfl
  rw [grammar_succ, goalReader, statement, bind_of_some (nextName_apply _), next]
  show returnStatement (grammar (n + 4)) mode _ = _
  rw [returnStatement, bind_of_some word, hr, bind_of_some (ensure_true _), bind_of_some goes,
    if_neg Bool.false_ne_true, hm.inside_eq, bind_of_some value]
  rfl

/-! ## The whole function -/

theorem statementsFrom_cons {isEnd : Reader Bool} {statement : Reader Tree}
    {cs rest after : List Char}
    {first : Tree} {others : List Tree} {fuel : Nat} (leading : Bool)
    (he : isEnd cs = some (false, cs)) (h : statement cs = some (first, rest))
    (hf : ∀ value, first ≠ .node .expression [.string value])
    (ho : statementsFrom isEnd statement false fuel rest = some (others, after)) :
    statementsFrom isEnd statement leading (fuel + 1) cs = some (first :: others, after) := by
  rw [statementsFrom, bind_of_some he, if_neg Bool.false_ne_true, bind_of_some (ahead_apply cs),
    bind_of_some h]
  split
  · -- a string that is a statement of its own would be a directive
    exact absurd rfl (hf _)
  · rw [bind_of_some ho]
    rfl

theorem functionBody_layout (hm : mode.IsPlain) (ha : mode.awaits = false)
    (hr : mode.returns = true) (head : List Char) {slots : List Slot}
    (hs : ∀ slot ∈ slots, slot.IsRead (grammar (n + 4)) mode) :
    functionBody (grammar (n + 17)) mode ('\x7b' :: bodyLayout kept (ofSlots head slots))
      = some (.node .body
          [.node (.variableList .var)
             [.node .declarator [valueVariable, .absent],
              .node .declarator [resultVariable, .string ""]],
           .node .expression [.node (.assign "+=") [resultVariable, joinTree head slots]],
           .node .returns [resultVariable]], []) := by
  have statements (fuel : Nat) :
      statementsFrom (take? '\x7d') (grammar (n + 17) mode (.statement false)) true (fuel + 4)
          (bodyLayout kept (ofSlots head slots))
        = some ([.node (.variableList .var)
             [.node .declarator [valueVariable, .absent],
              .node .declarator [resultVariable, .string ""]],
           .node .expression [.node (.assign "+=") [resultVariable, joinTree head slots]],
           .node .returns [resultVariable]], []) := by
    refine statementsFrom_cons true (by cases kept <;> rfl) (statement_variables kept hm ha _)
      nofun ?_
    refine statementsFrom_cons false (by cases kept <;> rfl) (statement_joined kept hm ha head hs _)
      nofun ?_
    refine statementsFrom_cons false (by cases kept <;> rfl) (statement_returns kept hm ha hr _)
      nofun ?_
    cases kept <;> rfl
  -- three statements and the closing brace
  obtain ⟨fuel, hf⟩ : ∃ fuel, (bodyLayout kept (ofSlots head slots)).length + 1 = fuel + 4 := by
    have size : "var __t,__p='';".toList.length = 15 := by decide
    have hle : 15 ≤ (bodyLayout kept (ofSlots head slots)).length := by
      show 15 ≤ (lineBreak kept ++ ("var __t,__p='';".toList ++ _)).length
      rw [List.length_append, List.length_append, size]
      omega
    exact ⟨(bodyLayout kept (ofSlots head slots)).length - 3, by omega⟩
  rw [functionBody, bind_of_some (mark_of_skip (skip_cons _ rfl))]
  refine (bind_of_some (x := fun cs => statementsFrom (take? '\x7d')
    (grammar (n + 17) mode (.statement false)) true (cs.length + 1) cs) ?_ _).trans rfl
  show statementsFrom _ _ _ ((bodyLayout kept (ofSlots head slots)).length + 1) _ = _
  rw [hf, statements]

/-- The parameter of the function. -/
theorem signature_data (hm : mode.IsPlain) (ha : mode.awaits = false) (more : List Char) :
    signature (grammar (n + 1)) mode ("(data)".toList ++ '\x7b' :: more)
      = some (.node .parameters [.identifier dataName], '\x7b' :: more) := by
  have name : skip ("data)".toList ++ '\x7b' :: more) = "data".toList ++ ')' :: '\x7b' :: more :=
    rfl
  have data : grammar (n + 1) mode .binding ("data)".toList ++ '\x7b' :: more)
      = some (.identifier dataName, ')' :: '\x7b' :: more) :=
    binding_name name rfl rfl ha hm.yields rfl
  have typed : typedBinding (grammar (n + 1)) mode ("data)".toList ++ '\x7b' :: more)
      = some (.identifier dataName, ')' :: '\x7b' :: more) := by
    rw [typedBinding, hm.typescript]
    refine (bind_of_some (nextName_apply _) _).trans ?_
    exact (bind_of_some data _).trans rfl
  have none : decorators (grammar (n + 1)) mode ("data)".toList ++ '\x7b' :: more)
      = some ([], "data)".toList ++ '\x7b' :: more) := rfl
  have dots : takeAll? ['.', '.', '.'] ("data)".toList ++ '\x7b' :: more)
      = some (false, "data)".toList ++ '\x7b' :: more) := rfl
  have single : parameter (grammar (n + 1)) mode ("data)".toList ++ '\x7b' :: more)
      = some (.identifier dataName, ')' :: '\x7b' :: more) := by
    rw [parameter, hm.typescript, bind_of_some none, bind_of_some dots, if_neg Bool.false_ne_true]
    refine (bind_of_some (pure_apply _ _) _).trans ?_
    exact (bind_of_some typed _).trans rfl
  have inputs : parameters (grammar (n + 1)) mode ("(data)".toList ++ '\x7b' :: more)
      = some (.node .parameters [.identifier dataName], '\x7b' :: more) := by
    have opened : mark '(' ("(data)".toList ++ '\x7b' :: more)
        = some ((), "data)".toList ++ '\x7b' :: more) := rfl
    rw [parameters, bind_of_some opened, bind_of_some (list_of_single rfl single rfl rfl)]
    rfl
  have angle : isNext '<' ("(data)".toList ++ '\x7b' :: more)
      = some (false, "(data)".toList ++ '\x7b' :: more) := rfl
  -- no type parameters come before the list, and no type comes after it
  rw [signature, hm.typescript]
  refine (bind_of_some angle _).trans ?_
  refine (bind_of_some (pure_apply _ _) _).trans ?_
  refine (bind_of_some inputs _).trans ?_
  exact (bind_of_some (typeAfterColon_of_plain hm _) _).trans rfl

/-- The function, whose name is read as well. -/
theorem functionOf_layout (hm : mode.IsPlain) (head : List Char) {slots : List Slot}
    (hs : ∀ slot ∈ slots, slot.IsRead (grammar (n + 4)) (mode.inFunction false false)) :
    functionOf (grammar (n + 17)) mode (.expression false) false false
        (functionLayout kept (ofSlots head slots))
      = some (functionTree (.identifier "tmpl") head slots, []) := by
  -- the name, the parameter and the body are read in the mode inside the function
  have inner : (mode.inFunction false false).IsPlain := ⟨hm.typescript, rfl, rfl, rfl⟩
  have body := functionBody_layout (n := n) kept inner rfl rfl head hs
  show functionOf _ mode _ false false
    ("function tmpl(data)".toList ++ '\x7b' :: bodyLayout kept (ofSlots head slots)) = _
  generalize bodyLayout kept (ofSlots head slots) = more at body ⊢
  have word : Source.word "function" ("function tmpl(data)".toList ++ '\x7b' :: more)
      = some ((), " tmpl(data)".toList ++ '\x7b' :: more) := rfl
  have star : take? '*' (" tmpl(data)".toList ++ '\x7b' :: more)
      = some (false, " tmpl(data)".toList ++ '\x7b' :: more) := rfl
  have named : isPlainNameNext (" tmpl(data)".toList ++ '\x7b' :: more)
      = some (true, " tmpl(data)".toList ++ '\x7b' :: more) := rfl
  have name : valueName (mode.inFunction false false) (" tmpl(data)".toList ++ '\x7b' :: more)
      = some (.identifier "tmpl", "(data)".toList ++ '\x7b' :: more) := rfl
  have brace : isNext '\x7b' ('\x7b' :: more) = some (true, '\x7b' :: more) := rfl
  rw [functionOf, bind_of_some word, bind_of_some star]
  refine (bind_of_some named _).trans ?_
  refine (bind_of_some name _).trans ?_
  show functionFrom (grammar (n + 17)) mode (.expression false) false false (.identifier "tmpl")
    ("(data)".toList ++ '\x7b' :: more) = _
  rw [functionFrom, bind_of_some (signature_data inner rfl _), hm.typescript, bind_of_some brace]
  refine (bind_of_some body _).trans ?_
  rfl

/-- The function is what the whole source is read as. -/
theorem expression_layout (hm : mode.IsPlain) (head : List Char) {slots : List Slot}
    (hs : ∀ slot ∈ slots, slot.IsRead (grammar (n + 4)) (mode.inFunction false false)) :
    grammar (n + 21) mode .expression (functionLayout kept (ofSlots head slots))
      = some (functionTree (.identifier "tmpl") head slots, []) := by
  -- also where `await` is an operator, the source does not start with it
  have word : takeWordIf mode.awaits "await" (functionLayout kept (ofSlots head slots))
      = some (false, functionLayout kept (ofSlots head slots)) := by
    cases mode.awaits <;> rfl
  have unary : grammar (n + 18) mode .unary (functionLayout kept (ofSlots head slots))
      = some (functionTree (.identifier "tmpl") head slots, []) :=
    unary_of_primary hm rfl rfl word (functionOf_layout kept hm head hs) rfl rfl
  refine expression_of_assignment ?_ nofun
  exact assignment_of_unary hm rfl unary rfl rfl rfl

end

/-! ## Code that is closed -/

/-- Whether the code of a hole is a whole expression: inside a function and in parentheses it is
read as its value whatever comes after the hole, and the value is complete and holds no markup. -/
structure Slot.IsClosed (slot : Slot) : Prop where
  read (size n : Nat) :
    slot.IsRead (grammar (n + depthOf slot.code)) (({ size } : Mode).inFunction false false)
  complete : slot.value.isComplete
  plain : slot.value.isPlain

/-- Code that can be read with four goals is read at the depth of any text it stands in. -/
theorem Slot.isClosed_of_isRead {slot : Slot}
    (read : ∀ {mode : Mode} {n : Nat}, mode.IsPlain → mode.awaits = false →
      slot.IsRead (grammar (n + 4)) mode)
    (complete : slot.value.isComplete) (plain : slot.value.isPlain) : slot.IsClosed := by
  refine ⟨fun size n => ?_, complete, plain⟩
  obtain ⟨m, hm⟩ : ∃ m, n + depthOf slot.code = m + 4 :=
    ⟨n + depthOf slot.code - 4, by rw [depthOf]; omega⟩
  rw [hm]
  exact read ⟨rfl, rfl, rfl, rfl⟩ rfl

/-- What is joined is complete and holds no markup if what stands before is so. -/
theorem isComplete_joined {left : Tree} (hl : left.isComplete ∧ left.isPlain)
    {slots : List Slot} (hs : ∀ slot ∈ slots, slot.IsClosed) :
    (slots.foldl joinHole left).isComplete ∧ (slots.foldl joinHole left).isPlain := by
  induction slots generalizing left with
  | nil => exact hl
  | cons slot slots ih =>
    refine ih ?_ fun slot h => hs slot (List.mem_cons_of_mem _ h)
    obtain ⟨-, complete, plain⟩ := hs slot List.mem_cons_self
    obtain ⟨leftComplete, leftPlain⟩ := hl
    unfold Tree.isComplete at complete leftComplete ⊢
    constructor
    · simp only [joinHole, holeTree, Tree.allForms, Tree.allFormsIn, complete, leftComplete]
      rfl
    · simp only [joinHole, holeTree, Tree.isPlain, Tree.arePlain, plain, leftPlain]
      rfl

theorem isComplete_functionTree (head : List Char) {slots : List Slot}
    (hs : ∀ slot ∈ slots, slot.IsClosed) :
    (functionTree (.identifier "tmpl") head slots).isComplete
      ∧ (functionTree (.identifier "tmpl") head slots).isPlain := by
  obtain ⟨complete, plain⟩ : (joinTree head slots).isComplete ∧ (joinTree head slots).isPlain :=
    isComplete_joined ⟨rfl, rfl⟩ hs
  unfold Tree.isComplete at complete ⊢
  constructor
  · simp only [functionTree, Tree.allForms, Tree.allFormsIn, complete]
    rfl
  · simp only [functionTree, Tree.isPlain, Tree.arePlain, plain]
    rfl

theorem quotedSource_suffix (text rest : List Char) : rest <:+ quotedSource text rest :=
  (List.suffix_cons '\'' rest).trans ((List.suffix_append _ _).trans (List.suffix_cons _ _))

/-- The code of a hole stands in parentheses in the source. -/
theorem paren_infix_holesLayout (kept : Bool) {hole : List Char × List Char}
    {holes : List (List Char × List Char)} (h : hole ∈ holes) (rest : List Char) :
    '(' :: (hole.1 ++ [')']) <:+: holesLayout kept holes rest := by
  induction holes with
  | nil => cases h
  | cons first holes ih =>
    rcases List.mem_cons.mp h with rfl | hm
    · refine ⟨'+' :: (lineBreak kept ++ "((__t=".toList), ")==null?'':__t)".toList
        ++ '+' :: (lineBreak kept ++ quotedSource hole.2 (holesLayout kept holes rest)), ?_⟩
      simp only [List.append_assoc, List.cons_append]
      rfl
    · exact (ih hm).trans ((quotedSource_suffix first.2 _).trans
        (quotedSource_suffix_holeLayout kept first _)).isInfix

theorem length_code (kept : Bool) {slot : Slot} {slots : List Slot} (h : slot ∈ slots)
    (head : List Char) :
    slot.code.length + 2 ≤ (functionLayout kept (ofSlots head slots)).length := by
  have body : quotedSource head _ <:+ bodyLayout kept (ofSlots head slots) :=
    (List.suffix_append _ _).trans ((List.suffix_append _ _).trans
      ((List.suffix_append _ _).trans (List.suffix_append _ _)))
  have whole : bodyLayout kept (ofSlots head slots) <:+ functionLayout kept (ofSlots head slots) :=
    (List.suffix_cons _ _).trans (List.suffix_append _ _)
  have inside := (paren_infix_holesLayout kept (List.mem_map_of_mem (f := Slot.hole) h) _).trans
    ((quotedSource_suffix head _).trans (body.trans whole)).isInfix
  have hle := inside.length_le
  rw [List.length_cons, List.length_append, List.length_singleton] at hle
  exact hle

/-- A template whose holes are closed is read up to the end of its source, as its function, whether
the line breaks between the parts of the source are kept or not. -/
theorem expression_functionLayout (kept : Bool) (size : Nat) (head : List Char)
    {slots : List Slot} (hs : ∀ slot ∈ slots, slot.IsClosed) :
    grammar (depthOf (functionLayout kept (ofSlots head slots))) { size } .expression
        (functionLayout kept (ofSlots head slots))
      = some (functionTree (.identifier "tmpl") head slots, []) := by
  -- a hole is read 17 goals below the function
  obtain ⟨n, hn⟩ : ∃ n, depthOf (functionLayout kept (ofSlots head slots)) = n + 21 :=
    ⟨16 * ((functionLayout kept (ofSlots head slots)).length + 4) - 21, by rw [depthOf]; omega⟩
  have read (slot : Slot) (h : slot ∈ slots) :
      slot.IsRead (grammar (n + 4)) (({ size } : Mode).inFunction false false) := by
    obtain ⟨m, hm⟩ : ∃ m, n + 4 = m + depthOf slot.code := by
      have code := length_code kept h head
      refine ⟨n + 4 - depthOf slot.code, ?_⟩
      rw [depthOf] at hn ⊢
      omega
    rw [hm]
    exact (hs slot h).read size m
  rw [hn]
  exact expression_layout kept ⟨rfl, rfl, rfl, rfl⟩ head read

theorem read?_layout (kept : Bool) (head : List Char) {slots : List Slot}
    (hs : ∀ slot ∈ slots, slot.IsClosed) :
    read? (String.ofList (functionLayout kept (ofSlots head slots)))
      = some (functionTree (.identifier "tmpl") head slots) := by
  obtain ⟨complete, plain⟩ := isComplete_functionTree head hs
  have found : expression? (String.ofList (functionLayout kept (ofSlots head slots)))
      = some (functionTree (.identifier "tmpl") head slots) := by
    simp only [expression?, String.toList_ofList, Option.bind_eq_bind]
    rw [expression_functionLayout kept _ head hs, Option.bind_some, complete]
    rfl
  rw [read?, found]
  simp [plain]

/-! ## The source on one line -/

/-- The template with the line breaks in its code left out. -/
def onOneLine (t : Template) : Template :=
  ⟨t.head, t.holes.map fun hole => (unbroken hole.1, hole.2)⟩

/-- Code without line breaks stays as it is. -/
theorem onOneLine_ofSlots (head : List Char) {slots : List Slot}
    (h : ∀ slot ∈ slots, unbroken slot.code = slot.code) :
    (ofSlots head slots).onOneLine = ofSlots head slots := by
  have same : slots.map (fun slot => (unbroken slot.code, slot.text)) = slots.map Slot.hole :=
    List.map_congr_left fun slot hs => by rw [h slot hs, Slot.hole]
  rw [onOneLine, ofSlots, List.map_map, ← same]
  rfl

theorem joinSource_cons (head code text : List Char) (holes : List (List Char × List Char)) :
    joinSource ⟨head, (code, text) :: holes⟩
      = Text.escapeChars head ++ ("'+\n((__t=(".toList ++ (code
          ++ ("))==null?'':__t)+\n'".toList ++ joinSource ⟨text, holes⟩))) := by
  show Text.escapeChars head ++ ((_ ++ code ++ _ ++ Text.escapeChars text) ++ _) = _
  rw [List.append_assoc, List.append_assoc, List.append_assoc]
  rfl

theorem quotedSource_joined (head : List Char) (holes : List (List Char × List Char))
    (rest : List Char) :
    '\'' :: (joinSource ⟨head, holes⟩ ++ '\'' :: rest)
      = quotedSource head (holesLayout true holes rest) := by
  induction holes generalizing head with
  | nil =>
    rw [joinSource, List.flatMap_nil, List.append_nil]
    rfl
  | cons hole holes ih =>
    obtain ⟨code, text⟩ := hole
    have opening : "'+\n((__t=(".toList = '\'' :: '+' :: '\n' :: "((__t=(".toList := by decide
    have closing : "))==null?'':__t)+\n'".toList
        = "))==null?'':__t)".toList ++ '+' :: '\n' :: ['\''] := by decide
    rw [joinSource_cons, opening, closing]
    simp only [List.append_assoc, List.cons_append, List.nil_append]
    rw [ih text]
    rfl

/-- The source of the function with its name, before its line breaks are left out. -/
theorem functionSource_eq (t : Template) :
    functionSource " tmpl".toList dataName.toList t = functionLayout true t := by
  have opening : "function".toList ++ " tmpl".toList ++ "(".toList ++ dataName.toList
      ++ ")\x7b\nvar __t,__p='';\n__p+='".toList
        = "function tmpl(data)".toList ++ '\x7b' :: '\n' :: ("var __t,__p='';".toList
            ++ '\n' :: ("__p+=".toList ++ ['\''])) := by decide
  have closing : "';\nreturn __p;\n\x7d".toList
      = '\'' :: ';' :: '\n' :: ("return __p;".toList ++ '\n' :: ['\x7d']) := by decide
  show _ ++ joinSource t ++ _ = _
  rw [opening, closing]
  simp only [List.append_assoc, List.cons_append, List.nil_append]
  rw [quotedSource_joined t.head t.holes]
  rfl

theorem unbroken_quotedSource (text rest : List Char) :
    unbroken (quotedSource text rest) = quotedSource text (unbroken rest) := by
  have quote (cs : List Char) : unbroken ('\'' :: cs) = '\'' :: unbroken cs := rfl
  rw [quotedSource, quote, unbroken_append, unbroken_escapeChars, quote]
  rfl

theorem unbroken_holesLayout (holes : List (List Char × List Char)) (rest : List Char) :
    unbroken (holesLayout true holes rest)
      = holesLayout false (holes.map fun hole => (unbroken hole.1, hole.2)) (unbroken rest) := by
  induction holes with
  | nil => rfl
  | cons hole holes ih =>
    -- other line breaks stand only between the pieces, never in a text
    have opening : unbroken ('+' :: '\n' :: "((__t=(".toList) = '+' :: "((__t=(".toList := by decide
    have closing : unbroken ("))==null?'':__t)".toList ++ ['+', '\n'])
        = "))==null?'':__t)".toList ++ ['+'] := by decide
    show unbroken (('+' :: '\n' :: "((__t=(".toList) ++ (hole.1
      ++ (("))==null?'':__t)".toList ++ ['+', '\n'])
        ++ quotedSource hole.2 (holesLayout true holes rest)))) = _
    rw [unbroken_append, unbroken_append, unbroken_append, opening, closing, unbroken_quotedSource,
      ih]
    rfl

/-- The source that is compiled for a template. -/
theorem unbroken_functionSource (t : Template) :
    unbroken (functionSource " tmpl".toList dataName.toList t)
      = functionLayout false t.onOneLine := by
  have opening : unbroken ("function tmpl(data)".toList ++ '\x7b' :: '\n'
      :: ("var __t,__p='';".toList ++ '\n' :: "__p+=".toList))
        = "function tmpl(data)".toList
            ++ '\x7b' :: ("var __t,__p='';".toList ++ "__p+=".toList) := by decide
  have closing : unbroken (';' :: '\n' :: ("return __p;".toList ++ '\n' :: ['\x7d']))
      = ';' :: ("return __p;".toList ++ ['\x7d']) := by decide
  have split : functionLayout true t = ("function tmpl(data)".toList ++ '\x7b' :: '\n'
      :: ("var __t,__p='';".toList ++ '\n' :: "__p+=".toList))
        ++ quotedSource t.head (holesLayout true t.holes
          (';' :: '\n' :: ("return __p;".toList ++ '\n' :: ['\x7d']))) := rfl
  rw [functionSource_eq, split, unbroken_append, unbroken_quotedSource, unbroken_holesLayout,
    opening, closing]
  rfl

theorem toList_generated (fragment : String) :
    (generated fragment).toList = functionLayout false (ofText fragment.toList).onOneLine := by
  rw [generated, String.toList_ofList, unbroken_functionSource]

/-- A text that is split into texts and closed code compiles to the function that joins them. -/
theorem compile_ofSlots {fragment : String} {head : List Char} {slots : List Slot}
    (hs : ∀ slot ∈ slots, slot.IsClosed)
    (hf : (ofText fragment.toList).onOneLine = ofSlots head slots) :
    compile fragment = .ok (functionTree .absent head slots) := by
  have source : generated fragment =
      String.ofList (functionLayout false (ofSlots head slots)) := by
    rw [← hf, ← toList_generated, String.ofList_toList]
  rw [compile, source, read?_layout false head hs]
  rfl

/-- The same, for code without line breaks. -/
theorem compile_ofSlots_unbroken {fragment : String} {head : List Char} {slots : List Slot}
    (hs : ∀ slot ∈ slots, slot.IsClosed ∧ unbroken slot.code = slot.code)
    (hf : ofText fragment.toList = ofSlots head slots) :
    compile fragment = .ok (functionTree .absent head slots) := by
  refine compile_ofSlots (fun slot h => (hs slot h).1) ?_
  rw [hf, onOneLine_ofSlots head fun slot h => (hs slot h).2]

/-! ## Member paths -/

/-- The code of the hole for a path. -/
def pathCode (p : MemberName) : List Char := ' ' :: (p.dotted.toList ++ [' '])

/-- The hole for a path, and the text after it. -/
def pathSlot (hole : MemberName × List Char) : Slot := ⟨pathCode hole.1, hole.1.reference, hole.2⟩

/-- The template with paths in its holes. -/
def ofPaths (head : List Char) (holes : List (MemberName × List Char)) : Template :=
  ⟨head, holes.map fun (p, text) => (pathCode p, text)⟩

section
variable {mode : Mode} {n : Nat}

/-- Code between spaces that starts with a name, in parentheses. -/
theorem unary_padded {name text : List Char} {value : Tree} (hm : mode.IsPlain)
    (hn : Text.isNameChars name) (hv : inParentheses value = value)
    (h : ∀ {cs more : List Char}, skip cs = name ++ (text ++ ' ' :: ')' :: more) →
      grammar (n + 3) mode .assignment cs = some (value, ' ' :: ')' :: more)) (more : List Char) :
    grammar (n + 4) mode .unary ('(' :: (' ' :: (name ++ text ++ [' ']) ++ ')' :: ')' :: more))
      = some (.node .paren [value], ')' :: more) := by
  have gap : skip (' ' :: (name ++ text ++ [' ']) ++ ')' :: ')' :: more)
      = name ++ (text ++ ' ' :: ')' :: ')' :: more) := by
    rw [List.cons_append, skip_space, List.append_assoc, List.append_assoc, skip_name _ hn]
    rfl
  have head {m : Char} (hc : Text.isNameStart m = false) :
      (skip (' ' :: (name ++ text ++ [' ']) ++ ')' :: ')' :: more)).head? ≠ some m := by
    rw [gap, ← skip_name _ hn]
    exact head?_skip_name hn hc
  rw [unary_paren hm (head rfl) (head rfl) (h gap) rfl rfl rfl, hv]

/-- A path in parentheses. -/
theorem unary_path (hm : mode.IsPlain) (ha : mode.awaits = false) {p : MemberName}
    (hp : p.isLegal) (more : List Char) :
    grammar (n + 4) mode .unary ('(' :: (pathCode p ++ ')' :: ')' :: more))
      = some (.node .paren [p.reference], ')' :: more) := by
  -- only functions are marked when they stand in parentheses
  have same : inParentheses p.reference = p.reference := by
    obtain ⟨object, property, h⟩ := p.exists_member hp
    rw [h]
    rfl
  rw [pathCode, p.toList_dotted]
  refine unary_padded hm (MemberRoot.isNameChars_text (p.isLegal_root hp)) same (fun hs => ?_) more
  rw [← List.append_assoc, ← p.toList_dotted] at hs
  exact assignment_path hm ha hp hs rfl rfl rfl rfl

end

theorem isClosed_pathSlot {hole : MemberName × List Char} (hp : hole.1.isLegal) :
    (pathSlot hole).IsClosed := by
  obtain ⟨complete, plain⟩ := MemberName.isComplete_reference hp
  exact Slot.isClosed_of_isRead (fun hm ha => unary_path hm ha hp) complete plain

theorem unbroken_padded {text : List Char} (hn : '\n' ∉ text) (hr : '\r' ∉ text) :
    unbroken (' ' :: (text ++ [' '])) = ' ' :: (text ++ [' ']) := by
  refine unbroken_of_not_mem ?_ ?_
  · simp [hn]
  · simp [hr]

theorem unbroken_pathCode {p : MemberName} (hp : p.isLegal) :
    unbroken (pathCode p) = pathCode p :=
  unbroken_padded (MemberName.not_mem_dotted hp rfl (by decide))
    (MemberName.not_mem_dotted hp rfl (by decide))

/-- A text that is split into texts and member paths compiles to the function that joins them. -/
theorem compile_ofPaths {fragment : String} {head : List Char}
    {holes : List (MemberName × List Char)} (hh : ∀ hole ∈ holes, hole.1.isLegal)
    (hf : ofText fragment.toList = ofPaths head holes) :
    compile fragment = .ok (functionTree .absent head (holes.map pathSlot)) := by
  refine compile_ofSlots_unbroken (fun slot hs => ?_) ?_
  · obtain ⟨hole, hm, rfl⟩ := List.mem_map.mp hs
    exact ⟨isClosed_pathSlot (hh hole hm), unbroken_pathCode (hh hole hm)⟩
  · rw [hf, ofPaths, ofSlots, List.map_map]
    rfl

end JsxLowering.Template
