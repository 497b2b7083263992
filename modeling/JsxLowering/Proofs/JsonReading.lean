import JsxLowering.Proofs.JsonTexts
import JsxLowering.Proofs.Reading
import Mathlib.Data.List.TakeWhile

/-!
# Skipping JSON values

A value that is skipped is skipped exactly: what is left is the text that follows it, for numbers up
to what ends them. Each loop over the parts of a list or an object is first described by its steps,
which start at a comma, at the first part or at the closing bracket, with any blanks before.
-/

namespace JsxLowering.Json

/-! ## Blanks -/

/-- The characters of a blank text are those that the scan skips. -/
theorem AreBlank.isBlank {text : List Char} (h : AreBlank text) : ∀ c ∈ text, isBlank c := by
  intro c hc
  have known : [' ', '\t', '\n', '\r'].all Json.isBlank := by decide
  exact List.all_eq_true.mp known c (h c hc)

theorem areBlank_nil : AreBlank [] := fun _ hc => absurd hc List.not_mem_nil

/-- The scan for the next character skips all blanks before it and leaves it in place. -/
theorem next_append {ws : List Char} (hw : AreBlank ws) {c : Char} (hc : isBlank c = false)
    (cs : List Char) : next (ws ++ c :: cs) = .ok (some c, c :: cs) := by
  unfold next
  rw [List.dropWhile_append_of_pos hw.isBlank, List.dropWhile_cons_of_neg (by simp [hc])]
  rfl

/-- A blank text has no next character. -/
theorem next_of_areBlank {ws : List Char} (hw : AreBlank ws) : next ws = .ok (none, []) := by
  have none : ws.dropWhile isBlank = [] := List.dropWhile_eq_nil_iff.mpr hw.isBlank
  unfold next
  rw [none]
  rfl

/-- Whether a text goes on with what may follow a value, so that it does not go on with a number. -/
def EndsValue (text : List Char) : Prop :=
  ∀ c ∈ text.head?, c ∈ [' ', '\t', '\n', '\r', ',', ']', '\x7d']

/-- Blanks end a value, and so does what follows them. -/
theorem AreBlank.endsValue {ws rest : List Char} (hw : AreBlank ws) (hr : EndsValue rest) :
    EndsValue (ws ++ rest) := by
  cases ws with
  | nil => exact hr
  | cons c more =>
    intro d hd
    rw [← Option.some.inj hd]
    have known := hw c List.mem_cons_self
    simp only [List.mem_cons, List.not_mem_nil, or_false] at known ⊢
    tauto

/-! ## Numbers -/

/-- Membership in a list of marks rules out digits. -/
theorem isDigit_eq_false_of_mem {marks : List Char} (hm : marks.all fun m => !m.isDigit) {c : Char}
    (hc : c ∈ marks) : c.isDigit = false := by
  have other := List.all_eq_true.mp hm c hc
  rwa [Bool.not_eq_true'] at other

/-- Whether a text does not go on with a digit. -/
def EndsDigits (text : List Char) : Prop := ∀ c ∈ text.head?, c.isDigit = false

theorem EndsValue.endsDigits {rest : List Char} (h : EndsValue rest) : EndsDigits rest := by
  intro c hc
  exact isDigit_eq_false_of_mem (by decide) (h c hc)

/-- A run of digits is taken in full. -/
theorem digits_append {run rest : List Char} (h : AreDigits run) (hr : EndsDigits rest) :
    digits (run ++ rest) = .ok (run, rest) := by
  unfold digits
  rw [Source.span_append h.2 hr]

/-- A fraction starts with a point, so the digits before it end there. -/
theorem endsDigits_fraction {text rest : List Char} (h : IsFraction text) (hr : EndsDigits rest) :
    EndsDigits (text ++ rest) := by
  rcases h with rfl | ⟨run, -, rfl⟩
  · exact hr
  · intro c hc
    rw [← Option.some.inj hc]
    rfl

/-- An exponent starts with its letter, so the digits before it end there. -/
theorem endsDigits_power {text rest : List Char} (h : IsPower text) (hr : EndsDigits rest) :
    EndsDigits (text ++ rest) := by
  rcases h with rfl | ⟨mark, sign, run, known, -, -, rfl⟩
  · exact hr
  · intro c hc
    rw [← Option.some.inj hc]
    exact isDigit_eq_false_of_mem (by decide) known

/-- The whole part of a number is a zero alone or digits that start with another one. -/
theorem wholeDigits_append (atEnd : Problem) {text rest : List Char} (h : IsWhole text)
    (hr : EndsDigits rest) : ∃ run, wholeDigits atEnd (text ++ rest) = .ok (run, rest) := by
  -- after a zero the scan checks that no digit follows, so the text after it matters
  rcases h with rfl | ⟨all, first⟩
  · refine ⟨['0'], ?_⟩
    cases rest with
    | nil => rfl
    | cons c more =>
      have other : c.isDigit = false := hr c rfl
      show (if c.isDigit then _ else _ : Scan (List Char)) (c :: more) = _
      rw [other]
      rfl
  · refine ⟨text, ?_⟩
    rw [← digits_append all hr]
    cases text with
    | nil => exact absurd rfl all.1
    | cons c more =>
      have digit : c.isDigit := all.2 c List.mem_cons_self
      have other : c ≠ '0' := fun zero => first (congrArg some zero)
      rw [List.cons_append, wholeDigits, bind_of_ok (peek_cons c _)]
      simp only
      rw [if_pos digit]

/-- A fraction is taken with its point, and nothing if there is none. -/
theorem fraction_append (atEnd : Problem) {text rest : List Char} (h : IsFraction text)
    (hr : EndsDigits rest) (hp : rest.head? ≠ some '.') :
    ∃ run, fraction atEnd (text ++ rest) = .ok (run, rest) := by
  rcases h with rfl | ⟨run, all, rfl⟩
  · refine ⟨[], ?_⟩
    cases rest with
    | nil => rfl
    | cons c more =>
      have other : c ≠ '.' := fun point => hp (congrArg some point)
      rw [List.nil_append, fraction, bind_of_ok (peek_cons c _)]
      simp only [Option.some.injEq, other, imp_self]
      rfl
  · refine ⟨run, ?_⟩
    rw [List.cons_append, fraction, bind_of_ok (peek_cons '.' _)]
    simp only
    rw [bind_of_ok (eat_cons '.' _), bind_of_ok (digits_append all hr)]
    cases run with
    | nil => exact absurd rfl all.1
    | cons c more => rfl

/-- The sign of an exponent is taken if there is one. -/
theorem sign_append {text : List Char} (h : text ∈ [[], ['+'], ['-']]) {run rest : List Char}
    (hr : AreDigits run) :
    ∃ negative, sign (text ++ (run ++ rest)) = .ok (negative, run ++ rest) := by
  simp only [List.mem_cons, List.not_mem_nil, or_false] at h
  rcases h with rfl | rfl | rfl
  · cases run with
    | nil => exact absurd rfl hr.1
    | cons c more =>
      have digit : c.isDigit := hr.2 c List.mem_cons_self
      have plus : c ≠ '+' := by
        rintro rfl
        cases digit
      have minus : c ≠ '-' := by
        rintro rfl
        cases digit
      refine ⟨false, ?_⟩
      rw [List.nil_append, List.cons_append, sign, bind_of_ok (peek_cons c _)]
      simp only [Option.some.injEq, plus, minus, imp_self]
      rfl
  · exact ⟨false, rfl⟩
  · exact ⟨true, rfl⟩

/-- An exponent is taken with its letter and sign, and nothing if there is none. -/
theorem power?_append (atEnd : Problem) {text rest : List Char} (h : IsPower text)
    (hr : EndsValue rest) : ∃ power, power? atEnd (text ++ rest) = .ok (power, rest) := by
  rcases h with rfl | ⟨mark, signs, run, letter, known, all, rfl⟩
  · refine ⟨none, ?_⟩
    have other : ¬ (rest.head? = some 'e' ∨ rest.head? = some 'E') := by
      rintro (small | capital)
      · exact absurd (hr _ small) (by decide)
      · exact absurd (hr _ capital) (by decide)
    rw [List.nil_append, power?, bind_of_ok (rfl : peek rest = .ok (rest.head?, rest)),
      if_neg (by simpa using other)]
    rfl
  · obtain ⟨negative, signed⟩ :
        ∃ negative, sign (signs ++ (run ++ rest)) = .ok (negative, run ++ rest) :=
      sign_append known all
    refine ⟨some (negative, run), ?_⟩
    have start : some mark = some 'e' ∨ some mark = some 'E' := by simpa using letter
    rw [List.cons_append, List.append_assoc, power?, bind_of_ok (peek_cons mark _),
      if_pos (by simpa using start), bind_of_ok (eat_cons mark _),
      bind_of_ok signed, bind_of_ok (digits_append all hr.endsDigits)]
    cases run with
    | nil => exact absurd rfl all.1
    | cons c more => rfl

/-- A number is skipped after its sign. -/
theorem skipNumber_append {whole fractional power rest : List Char} (hw : IsWhole whole)
    (hf : IsFraction fractional) (hp : IsPower power) (hr : EndsValue rest) :
    skipNumber (whole ++ (fractional ++ (power ++ rest))) = .ok ((), rest) := by
  have afterFraction := endsDigits_power hp hr.endsDigits
  have noPoint : (power ++ rest).head? ≠ some '.' := by
    intro point
    rcases hp with rfl | ⟨mark, sign, run, letter, -, -, rfl⟩
    · exact absurd (hr _ point) (by decide)
    · rw [Option.some.inj point] at letter
      exact absurd letter (by decide)
  -- each part ends where the next one starts, and the last one where the value ends
  obtain ⟨run, first⟩ := wholeDigits_append .badNumber hw (endsDigits_fraction hf afterFraction)
  obtain ⟨more, second⟩ := fraction_append .badNumber hf afterFraction noPoint
  obtain ⟨found, third⟩ := power?_append .badNumber hp hr
  rw [skipNumber, bind_of_ok first, bind_of_ok second, bind_of_ok third]
  rfl

/-! ## Steps of the loops -/

section
variable {ws : List Char} (hw : AreBlank ws) (fuel : Nat)
include hw

/-- The run of items ends at the mark of its kind, whether an item came before or not. -/
theorem skipItems_close (kind : Enclosure) (started : Bool) (rest : List Char) :
    skipItems (fuel + 1) kind started (ws ++ kind.close :: rest) = .ok ((), rest) := by
  have filled : isBlank kind.close = false := by cases kind <;> rfl
  rw [skipItems, bind_of_ok (next_append hw filled rest)]
  simp only
  rw [if_pos trivial]
  rfl

/-- After a comma an item is skipped, then the rest. -/
theorem skipItems_comma (kind : Enclosure) (cs : List Char) :
    skipItems (fuel + 1) kind true (ws ++ ',' :: cs)
      = (kind.item (skipValue fuel) (skipMember fuel) >>= fun _ => skipItems fuel kind true)
          cs := by
  have other : ',' ≠ kind.close := by cases kind <;> decide
  rw [skipItems, bind_of_ok (next_append hw rfl cs)]
  simp only
  rw [if_neg other]
  rfl

/-- Before the first item there is no comma. -/
theorem skipItems_first {kind : Enclosure} {c : Char} (hb : isBlank c = false)
    (hc : c ≠ kind.close) (cs : List Char) :
    skipItems (fuel + 1) kind false (ws ++ c :: cs)
      = (kind.item (skipValue fuel) (skipMember fuel) >>= fun _ => skipItems fuel kind true)
          (c :: cs) := by
  rw [skipItems, bind_of_ok (next_append hw hb cs)]
  simp only
  rw [if_neg hc]
  rfl

/-- A member is skipped through its colon, and then its value is. -/
theorem skipMember_key {body after : List Char} (hk : IsStringBody body) (ha : AreBlank after)
    (cs : List Char) :
    skipMember (fuel + 1) (ws ++ (quoted body ++ (after ++ ':' :: cs))) = skipValue fuel cs := by
  have key : quoted body ++ (after ++ ':' :: cs)
      = '"' :: (body ++ '"' :: (after ++ ':' :: cs)) := by
    simp [quoted]
  rw [key, skipMember, bind_of_ok (next_append hw rfl _)]
  simp only
  rw [bind_of_ok (eat_cons '"' _), bind_of_ok (skipString_of_isStringBody hk _),
    bind_of_ok (next_append ha rfl cs)]
  rfl

theorem skipValue_list (cs : List Char) :
    skipValue (fuel + 1) (ws ++ '[' :: cs) = skipItems fuel .list false cs := by
  rw [skipValue, bind_of_ok (next_append hw rfl cs)]
  rfl

theorem skipValue_object (cs : List Char) :
    skipValue (fuel + 1) (ws ++ '\x7b' :: cs) = skipItems fuel .object false cs := by
  rw [skipValue, bind_of_ok (next_append hw rfl cs)]
  rfl

end

/-! ## Skipping -/

/-- The whole part of a number starts with a digit. -/
theorem IsWhole.exists_cons {text : List Char} (h : IsWhole text) :
    ∃ d more, text = d :: more ∧ d.isDigit := by
  rcases h with rfl | ⟨all, -⟩
  · exact ⟨'0', [], rfl, rfl⟩
  · obtain ⟨d, more, rfl⟩ := List.exists_cons_of_ne_nil all.1
    exact ⟨d, more, rfl, all.2 d List.mem_cons_self⟩

theorem ne_of_isDigit {c d : Char} (h : d.isDigit) (hc : c.isDigit = false) : d ≠ c := by
  rintro rfl
  rw [h] at hc
  cases hc

/-- A digit is no mark that a value of another kind starts with. -/
theorem ne_mark_of_isDigit {d : Char} (h : d.isDigit) :
    d ≠ 'n' ∧ d ≠ 't' ∧ d ≠ 'f' ∧ d ≠ '-' ∧ d ≠ '"' ∧ d ≠ '[' ∧ d ≠ '\x7b' := by
  refine ⟨?_, ?_, ?_, ?_, ?_, ?_, ?_⟩ <;> exact ne_of_isDigit h rfl

theorem isBlank_of_isDigit {d : Char} (h : d.isDigit) : isBlank d = false := by
  unfold isBlank
  simp [ne_of_isDigit h (c := ' ') rfl, ne_of_isDigit h (c := '\n') rfl,
    ne_of_isDigit h (c := '\t') rfl, ne_of_isDigit h (c := '\r') rfl]

/-- A number starts with a digit or a minus, and no other kind of value does. -/
theorem IsNumber.exists_cons {text : List Char} (h : IsNumber text) :
    ∃ c more, text = c :: more ∧ isBlank c = false
      ∧ ∀ mark ∈ ['n', 't', 'f', '"', '[', '\x7b', ']'], c ≠ mark := by
  obtain ⟨minus, whole, fractional, power, known, all, -, -, rfl⟩ := h
  obtain ⟨d, more, rfl, digit⟩ := all.exists_cons
  simp only [List.mem_cons, List.not_mem_nil, or_false] at known
  rcases known with rfl | rfl
  · refine ⟨d, _, rfl, isBlank_of_isDigit digit, fun mark marked => ?_⟩
    exact ne_of_isDigit digit (isDigit_eq_false_of_mem (by decide) marked)
  · refine ⟨_, _, rfl, rfl, fun mark marked => ?_⟩
    rintro rfl
    exact absurd marked (by decide)

/-- The first character of a value says of which kind it is. -/
theorem IsValue.exists_cons {text : List Char} (h : IsValue text) :
    ∃ c more, text = c :: more ∧ isBlank c = false ∧ c ≠ ']'
      ∧ (c = 'n' → text = "null".toList)
      ∧ (c = 't' ∨ c = 'f' → ∃ value : Bool, text = (if value then "true" else "false").toList)
      ∧ (c = '"' → ∃ body, IsStringBody body ∧ text = quoted body)
      ∧ (c = '[' → ∃ elements, IsList elements text ∧ ∀ element ∈ elements, IsValue element) := by
  -- for each kind of value one of the implications holds, and the others have a false premise
  cases h with
  | null =>
    exact ⟨_, _, rfl, rfl, by decide, fun _ => rfl, Not.elim (by decide), Not.elim (by decide),
      Not.elim (by decide)⟩
  | boolean value =>
    cases value with
    | true =>
      exact ⟨_, _, rfl, rfl, by decide, Not.elim (by decide), fun _ => ⟨true, rfl⟩,
        Not.elim (by decide), Not.elim (by decide)⟩
    | false =>
      exact ⟨_, _, rfl, rfl, by decide, Not.elim (by decide), fun _ => ⟨false, rfl⟩,
        Not.elim (by decide), Not.elim (by decide)⟩
  | number h =>
    obtain ⟨c, more, rfl, filled, other⟩ := h.exists_cons
    have noBoolean : ¬ (c = 't' ∨ c = 'f') := not_or.mpr ⟨other _ (by decide), other _ (by decide)⟩
    exact ⟨c, more, rfl, filled, other _ (by decide), (other _ (by decide)).elim, noBoolean.elim,
      (other _ (by decide)).elim, (other _ (by decide)).elim⟩
  | @string body h =>
    exact ⟨_, _, rfl, rfl, by decide, Not.elim (by decide), Not.elim (by decide),
      fun _ => ⟨body, h, rfl⟩, Not.elim (by decide)⟩
  | @list elements _ h values =>
    obtain ⟨inside, items, rfl⟩ := h
    exact ⟨_, _, rfl, rfl, by decide, Not.elim (by decide), Not.elim (by decide),
      Not.elim (by decide), fun _ => ⟨elements, ⟨inside, items, rfl⟩, values⟩⟩
  | object h =>
    obtain ⟨items, inside, -, -, rfl⟩ := h
    exact ⟨_, _, rfl, rfl, by decide, Not.elim (by decide), Not.elim (by decide),
      Not.elim (by decide), Not.elim (by decide)⟩

theorem IsValue.ne_nil {text : List Char} (h : IsValue text) : text ≠ [] := by
  obtain ⟨c, more, rfl, -⟩ := h.exists_cons
  exact List.cons_ne_nil c more

/-- A member starts with the quote of its key. -/
theorem IsMember.exists_cons {key value text : List Char} (h : IsMember key value text) :
    ∃ more, text = '"' :: more := by
  obtain ⟨before, after, -, -, rfl⟩ := h
  exact ⟨_, rfl⟩

/-- What follows an item of a list or an object. -/
theorem Items.endsValue {closing : Char} {items : List (List Char)} {text : List Char}
    (h : Items closing true items text) (hc : closing ∈ [']', '\x7d']) (rest : List Char) :
    EndsValue (text ++ rest) := by
  have ends (c : Char) (known : c ∈ [',', ']', '\x7d']) (more : List Char) :
      EndsValue (c :: more) := by
    intro d hd
    rw [← Option.some.inj hd]
    simp only [List.mem_cons, List.not_mem_nil, or_false] at known ⊢
    tauto
  cases h with
  | close hw =>
    rw [List.append_assoc]
    exact hw.endsValue (ends closing (List.mem_cons_of_mem _ hc) _)
  | comma hw _ _ =>
    rw [List.append_assoc]
    exact hw.endsValue (ends ',' List.mem_cons_self _)

/-- Whether a scan skips a text exactly, with blanks before it. Four steps for each of its
characters are enough. -/
def IsSkippedBy (skip : Nat → Scan Unit) (text : List Char) : Prop :=
  ∀ ⦃fuel : Nat⦄, 4 * text.length ≤ fuel → ∀ ⦃ws rest : List Char⦄, AreBlank ws → EndsValue rest →
    skip fuel (ws ++ (text ++ rest)) = .ok ((), rest)

/-- Whether a text is skipped exactly as a value. -/
abbrev IsSkipped (text : List Char) : Prop := IsSkippedBy skipValue text

/-- Whether a text starts neither with a blank nor with the mark that ends the run. -/
def StartsItem (kind : Enclosure) (text : List Char) : Prop :=
  ∃ c more, text = c :: more ∧ isBlank c = false ∧ c ≠ kind.close

/-- The items of a list or an object are skipped one after the other, and the mark at their end. -/
theorem skipItems_of_items (kind : Enclosure) {after : Bool} {items : List (List Char)}
    {text : List Char} (h : Items kind.close after items text)
    (hi : ∀ item ∈ items, StartsItem kind item)
    (hs : ∀ item ∈ items,
      IsSkippedBy (fun fuel => kind.item (skipValue fuel) (skipMember fuel)) item)
    {fuel : Nat} (hf : 4 * text.length ≤ fuel) (rest : List Char) :
    skipItems fuel kind after (text ++ rest) = .ok ((), rest) := by
  have known : kind.close ∈ [']', '\x7d'] := by cases kind <;> decide
  -- the induction is on the run of items; each step takes one turn of the loop
  induction h generalizing fuel with
  | @close after ws hw =>
    rw [List.length_append, List.length_singleton] at hf
    obtain ⟨fuel, rfl⟩ := Nat.exists_eq_add_one_of_ne_zero (show fuel ≠ 0 by omega)
    rw [List.append_assoc]
    exact skipItems_close hw fuel kind after rest
  | @first ws item text more hw later ih =>
    obtain ⟨⟨c, inside, start, filled, other⟩, starts⟩ := List.forall_mem_cons.mp hi
    obtain ⟨skip, skips⟩ := List.forall_mem_cons.mp hs
    have ends := later.endsValue known rest
    have size : 0 < item.length := by rw [start]; exact Nat.succ_pos _
    have left := later.length_pos
    simp only [List.length_append] at hf
    obtain ⟨fuel, rfl⟩ := Nat.exists_eq_add_one_of_ne_zero (show fuel ≠ 0 by omega)
    have skipped : kind.item (skipValue fuel) (skipMember fuel) (item ++ (text ++ rest))
        = .ok ((), text ++ rest) := skip (by omega) areBlank_nil ends
    rw [List.append_assoc, List.append_assoc, start, List.cons_append,
      skipItems_first hw fuel filled other, ← List.cons_append, ← start, bind_of_ok skipped]
    exact ih starts skips (by omega)
  | @comma ws gap item text more hw hg later ih =>
    obtain ⟨-, starts⟩ := List.forall_mem_cons.mp hi
    obtain ⟨skip, skips⟩ := List.forall_mem_cons.mp hs
    have ends := later.endsValue known rest
    simp only [List.length_append, List.length_cons] at hf
    obtain ⟨fuel, rfl⟩ := Nat.exists_eq_add_one_of_ne_zero (show fuel ≠ 0 by omega)
    simp only [List.append_assoc, List.cons_append]
    rw [skipItems_comma hw, bind_of_ok (skip (by omega) hg ends)]
    exact ih starts skips (by omega)

/-- A member is skipped up to the end of its value. -/
theorem IsMember.isSkippedBy {key value text : List Char} (h : IsMember key value text)
    (hk : IsStringBody key) (hs : IsSkipped value) : IsSkippedBy skipMember text := by
  intro fuel hf ws rest hw hr
  obtain ⟨before, after, hb, ha, rfl⟩ := h
  simp only [List.length_append, List.length_cons] at hf
  obtain ⟨fuel, rfl⟩ := Nat.exists_eq_add_one_of_ne_zero (show fuel ≠ 0 by omega)
  simp only [List.append_assoc, List.cons_append]
  rw [skipMember_key hw fuel hk hb]
  exact hs (by omega) ha hr

/-- A list of elements that are skipped is skipped. -/
theorem IsList.isSkipped {elements : List (List Char)} {text : List Char} (h : IsList elements text)
    (hv : ∀ element ∈ elements, IsValue element) (hs : ∀ element ∈ elements, IsSkipped element) :
    IsSkipped text := by
  intro fuel hf ws rest hw hr
  obtain ⟨inside, items, rfl⟩ := h
  rw [List.length_cons] at hf
  obtain ⟨fuel, rfl⟩ := Nat.exists_eq_add_one_of_ne_zero (show fuel ≠ 0 by omega)
  rw [List.cons_append, skipValue_list hw]
  refine skipItems_of_items .list items (fun element hm => ?_) hs (by omega) rest
  obtain ⟨c, more, start, filled, other, -⟩ := (hv element hm).exists_cons
  exact ⟨c, more, start, filled, other⟩

/-- An object of members that are skipped is skipped. -/
theorem IsObject.isSkipped {members : List (List Char × List Char)} {text : List Char}
    (h : IsObject members text) (hk : ∀ member ∈ members, IsStringBody member.1)
    (hs : ∀ member ∈ members, IsSkipped member.2) : IsSkipped text := by
  intro fuel hf ws rest hw hr
  obtain ⟨items, inside, written, inBraces, rfl⟩ := h
  rw [List.length_cons] at hf
  obtain ⟨fuel, rfl⟩ := Nat.exists_eq_add_one_of_ne_zero (show fuel ≠ 0 by omega)
  rw [List.cons_append, skipValue_object hw]
  have own : List.Forall₂ (fun member item => (IsStringBody member.1 ∧ IsSkipped member.2)
      ∧ IsMember member.1 member.2 item) members items :=
    (List.forall₂_and_left _ _).mpr ⟨fun member hm => ⟨hk member hm, hs member hm⟩, written⟩
  refine skipItems_of_items .object inBraces (forall_mem_of_forall₂ ?_ own)
    (forall_mem_of_forall₂ ?_ own) (by omega) rest
  · rintro member item ⟨-, spelled⟩
    obtain ⟨more, start⟩ := spelled.exists_cons
    exact ⟨_, more, start, rfl, by decide⟩
  · rintro member item ⟨⟨key, skipped⟩, spelled⟩
    exact spelled.isSkippedBy key skipped

/-- A number is skipped exactly, with its sign or without. -/
theorem IsNumber.isSkipped {text : List Char} (h : IsNumber text) : IsSkipped text := by
  intro fuel hf ws rest hw hr
  obtain ⟨minus, whole, fractional, power, known, all, hfraction, hpower, rfl⟩ := h
  have skipped := skipNumber_append all hfraction hpower hr
  obtain ⟨d, more, start, digit⟩ := all.exists_cons
  simp only [List.length_append, start, List.length_cons] at hf
  obtain ⟨fuel, rfl⟩ := Nat.exists_eq_add_one_of_ne_zero (show fuel ≠ 0 by omega)
  simp only [List.mem_cons, List.not_mem_nil, or_false] at known
  simp only [List.append_assoc]
  -- without a sign the first digit says that the value is a number
  rcases known with rfl | rfl
  · rw [← skipped, List.nil_append, start, List.cons_append]
    obtain ⟨_, _, _, _, _, _, _⟩ := ne_mark_of_isDigit digit
    rw [skipValue, bind_of_ok (next_append hw (isBlank_of_isDigit digit) _)]
    simp only
    rw [if_pos digit]
  · rw [List.singleton_append, skipValue, bind_of_ok (next_append hw rfl _)]
    simp only
    rw [bind_of_ok (eat_cons '-' _)]
    exact skipped

/-- A word is taken letter by letter. -/
theorem letters_append (word rest : List Char) : letters word (word ++ rest) = .ok ((), rest) := by
  induction word with
  | nil => rfl
  | cons c more ih =>
    rw [List.cons_append, letters, bind_of_ok (peek_cons c _)]
    simp only
    rw [if_pos trivial, bind_of_ok (eat_cons c _), ih]

/-- Every value is skipped exactly. -/
theorem IsValue.isSkipped {text : List Char} (h : IsValue text) : IsSkipped text := by
  -- the induction is on how the value is written; only lists and objects have values inside
  induction h with
  | null =>
    intro fuel hf ws rest hw hr
    obtain ⟨fuel, rfl⟩ := Nat.exists_eq_add_one_of_ne_zero (show fuel ≠ 0 by rintro rfl; cases hf)
    show skipValue (fuel + 1) (ws ++ 'n' :: _) = _
    rw [skipValue, bind_of_ok (next_append hw rfl _)]
    exact letters_append ['n', 'u', 'l', 'l'] rest
  | boolean value =>
    intro fuel hf ws rest hw hr
    cases value with
    | true =>
      obtain ⟨fuel, rfl⟩ := Nat.exists_eq_add_one_of_ne_zero (show fuel ≠ 0 by rintro rfl; cases hf)
      show skipValue (fuel + 1) (ws ++ 't' :: _) = _
      rw [skipValue, bind_of_ok (next_append hw rfl _)]
      exact letters_append ['t', 'r', 'u', 'e'] rest
    | false =>
      obtain ⟨fuel, rfl⟩ := Nat.exists_eq_add_one_of_ne_zero (show fuel ≠ 0 by rintro rfl; cases hf)
      show skipValue (fuel + 1) (ws ++ 'f' :: _) = _
      rw [skipValue, bind_of_ok (next_append hw rfl _)]
      exact letters_append ['f', 'a', 'l', 's', 'e'] rest
  | number number => exact number.isSkipped
  | @string body written =>
    intro fuel hf ws rest hw hr
    obtain ⟨fuel, rfl⟩ := Nat.exists_eq_add_one_of_ne_zero (show fuel ≠ 0 by rintro rfl; cases hf)
    rw [quoted, List.cons_append, skipValue, bind_of_ok (next_append hw rfl _)]
    simp only
    rw [bind_of_ok (eat_cons '"' _), List.append_assoc]
    exact skipString_of_isStringBody written rest
  | list written values skipped => exact written.isSkipped values skipped
  | object written keys _ skipped => exact written.isSkipped keys skipped

/-- A member whose value is not kept is skipped exactly. -/
theorem ignored_append {ws text rest : List Char} (hw : AreBlank ws) (h : IsValue text)
    (hr : EndsValue rest) : ignored (ws ++ (text ++ rest)) = .ok ((), rest) := by
  refine h.isSkipped ?_ hw hr
  simp only [List.length_append]
  omega

/-! ## What a scan leaves -/

/-- Whether a scan that succeeds leaves `rest`. -/
def Leaves {α : Type} (x : Scan α) (cs rest : List Char) : Prop :=
  ∀ a left, x cs = .ok (a, left) → left = rest

/-- Whether a scan does not succeed. -/
def Fails {α : Type} (x : Scan α) (cs : List Char) : Prop := ∀ a left, x cs ≠ .ok (a, left)

section
variable {α β : Type} {x : Scan α} {f : α → Scan β} {cs mid rest : List Char}

/-- A scan that fails leaves nothing, so anything can be said of it. -/
theorem Fails.leaves (h : Fails x cs) (rest : List Char) : Leaves x cs rest :=
  fun a left found => absurd found (h a left)

/-- A scan has one outcome. -/
theorem leaves_of_ok {a : α} (h : x cs = .ok (a, rest)) : Leaves x cs rest := by
  intro b left found
  rw [h] at found
  exact (Prod.mk.inj (Except.ok.inj found)).2.symm

/-- Two scans in a row fail with the first, or go on with what it leaves. -/
theorem bind_cases (x : Scan α) (f : α → Scan β) (cs : List Char) :
    (∃ a left, x cs = .ok (a, left) ∧ (x >>= f) cs = f a left)
      ∨ ∃ mishap, x cs = .error mishap ∧ (x >>= f) cs = .error mishap := by
  match found : x cs with
  | .ok (a, left) => exact .inl ⟨a, left, rfl, bind_of_ok found f⟩
  | .error mishap => exact .inr ⟨mishap, rfl, bind_of_error found f⟩

/-- Two scans in a row leave what the second leaves after the first. -/
theorem Leaves.bind (h : Leaves x cs mid) (hf : ∀ a, Leaves (f a) mid rest) :
    Leaves (x >>= f) cs rest := by
  intro b left found
  rcases bind_cases x f cs with ⟨a, here, first, whole⟩ | ⟨mishap, -, whole⟩
  · rw [whole, h a here first] at found
    exact hf a b left found
  · rw [whole] at found
    cases found

/-- Two scans in a row fail if the second does wherever the first may leave it. -/
theorem Leaves.bind_fails (h : Leaves x cs mid) (hf : ∀ a, Fails (f a) mid) :
    Fails (x >>= f) cs := by
  intro b left found
  rcases bind_cases x f cs with ⟨a, here, first, whole⟩ | ⟨mishap, -, whole⟩
  · rw [whole, h a here first] at found
    exact hf a b left found
  · rw [whole] at found
    cases found

/-- Two scans in a row fail if the first does. -/
theorem Fails.bind (h : Fails x cs) : Fails (x >>= f) cs := by
  intro b left found
  rcases bind_cases x f cs with ⟨a, here, first, -⟩ | ⟨mishap, -, whole⟩
  · exact h a here first
  · rw [whole] at found
    cases found

/-- Two scans in a row fail if the second always does. -/
theorem fails_bind (hf : ∀ a left, Fails (f a) left) : Fails (x >>= f) cs := by
  intro b left found
  rcases bind_cases x f cs with ⟨a, here, -, whole⟩ | ⟨mishap, -, whole⟩
  · rw [whole] at found
    exact hf a here b left found
  · rw [whole] at found
    cases found

/-- Computing with the result of a scan does not change what it leaves. -/
theorem Leaves.map (h : Leaves x cs rest) (g : α → β) : Leaves (x.map g) cs rest := by
  show Leaves (x >>= fun a => pure (g a)) cs rest
  exact h.bind fun _ => leaves_of_ok rfl

/-- Raising a problem at the current character fails. -/
theorem fails_failHere (problem : Problem) (cs : List Char) :
    Fails (failHere problem : Scan α) cs := by
  intro a left found
  cases found

theorem fails_failNext (problem : Problem) (cs : List Char) :
    Fails (failNext problem : Scan α) cs := by
  intro a left found
  cases found

end

/-- The mark between the halves of a pair is taken. -/
theorem pairMark_cons (c : Char) (cs : List Char) : pairMark c (c :: cs) = .ok ((), cs) := by
  rw [pairMark, bind_of_ok (peek_cons c cs)]
  simp only
  rw [if_pos trivial, eat_cons]

/-- Another character in its place fails. -/
theorem fails_pairMark {c d : Char} (h : c ≠ d) (cs : List Char) :
    Fails (pairMark c) (d :: cs) := by
  rw [Fails, pairMark, bind_of_ok (peek_cons d cs)]
  simp only
  rw [if_neg h]
  exact fails_failNext _ _

/-- The text between the quotes of a string in which any digits may follow `\u`. -/
abbrev AnySpells : List Char → List Char → Prop := Spells fun _ digits => IsHexFour digits

/-- If a code point is read in such a string, it takes one escape or two. -/
theorem codePoint_leaves {digits content body : List Char} (hd : IsHexFour digits)
    (h : AnySpells content body) (rest : List Char) :
    ∃ later left, AnySpells later left
      ∧ Leaves codePoint (digits ++ (body ++ '"' :: rest)) (left ++ '"' :: rest) := by
  unfold Leaves codePoint
  rw [bind_of_ok (hexFour_append hd _)]
  -- four digits are the second half of a pair, a character of their own, or the first half
  split
  · exact ⟨content, body, h, (fails_failHere _ _).leaves _⟩
  · split
    · exact ⟨content, body, h, leaves_of_ok rfl⟩
    · -- the second half of a pair has to follow
      cases h with
      | nil => exact ⟨[], [], .nil, (Fails.bind (fails_pairMark (by decide) _)).leaves _⟩
      | plain printable notQuote notSlash later =>
        exact ⟨_, _, later, (Fails.bind (fails_pairMark (Ne.symm notSlash) _)).leaves _⟩
      | @short mark c content body known later =>
        rw [List.cons_append, List.cons_append]
        have notCode : 'u' ≠ mark := by
          rintro rfl
          exact absurd known (by simp [shortEscapes])
        refine ⟨_, _, later, Leaves.bind (leaves_of_ok (pairMark_cons _ _)) fun _ => ?_⟩
        exact (Fails.bind (fails_pairMark notCode _)).leaves _
      | @code c second content body coded later =>
        rw [List.cons_append, List.cons_append, List.append_assoc]
        refine ⟨_, _, later, Leaves.bind (leaves_of_ok (pairMark_cons _ _)) fun _ => ?_⟩
        refine Leaves.bind (leaves_of_ok (pairMark_cons _ _)) fun _ => ?_
        refine Leaves.bind (leaves_of_ok (hexFour_append coded _)) fun _ => ?_
        split
        · exact (fails_failHere _ _).leaves _
        · exact leaves_of_ok rfl

/-- Reading such a string leaves what follows its quote, if it succeeds. -/
theorem stringFrom_leaves {content body : List Char} (h : AnySpells content body)
    (control : Scan (List Char)) (fuel : Nat) (rest : List Char) :
    Leaves (stringFrom codePoint control fuel) (body ++ '"' :: rest) rest := by
  -- a pair takes two escapes in one step, so the induction is on the steps and not on the text
  induction fuel generalizing content body with
  | zero => exact (fails_failHere _ _).leaves _
  | succ fuel ih =>
    cases h with
    | nil => exact leaves_of_ok rfl
    | plain printable notQuote notSlash later =>
      rw [Leaves, List.cons_append, stringFrom_plain _ _ _ printable notQuote notSlash]
      exact (ih later).map _
    | short known later =>
      rw [Leaves, List.cons_append, List.cons_append,
        stringFrom_escape _ _ _ (escapeWith_short known _ _)]
      exact (ih later).map _
    | @code c digits content body coded later =>
      obtain ⟨_, left, after, taken⟩ := codePoint_leaves coded later rest
      rw [List.cons_append, List.cons_append, List.append_assoc]
      show Leaves (codePoint >>= fun c => (stringFrom codePoint control fuel).map (c :: ·)) _ _
      exact taken.bind fun c => (ih after).map _

end JsxLowering.Json
