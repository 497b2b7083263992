import JsxLowering.Source.Parser
import JsxLowering.Text.Quoted
import Mathlib.Data.List.TakeDrop

/-!
# What readers take

Small facts about readers: what the steps of a reader do to the text, and what names, words, marks
and quoted text they take off its front. The rest of the text is always left open, up to what the
next lexeme must not be.
-/

namespace JsxLowering.Source

/-! ## Steps -/

section
variable {α β : Type}

/-- Two steps in a row: the second starts from what the first leaves. -/
theorem bind_apply (x : Reader α) (f : α → Reader β) (cs : List Char) :
    (x >>= f) cs = (x cs).bind fun result => f result.1 result.2 := rfl

/-- A step that takes `a` goes on with the rest. -/
theorem bind_of_some {x : Reader α} {a : α} {cs rest : List Char} (h : x cs = some (a, rest))
    (f : α → Reader β) : (x >>= f) cs = f a rest := by
  rw [bind_apply, h]
  rfl

/-- If a step fails, so do all steps after it. -/
theorem bind_of_none {x : Reader α} {cs : List Char} (h : x cs = none) (f : α → Reader β) :
    (x >>= f) cs = none := by
  rw [bind_apply, h]
  rfl

theorem pure_apply (a : α) (cs : List Char) : (pure a : Reader α) cs = some (a, cs) := rfl

/-- Looking ahead skips a gap and takes nothing. -/
theorem ahead_apply (cs : List Char) : ahead cs = some (skip cs, cs) := rfl

theorem onNewLine_apply (cs : List Char) : onNewLine cs = some (breaks cs, cs) := rfl

/-- Looking for a name skips a gap and takes nothing. -/
theorem nextName_apply (cs : List Char) :
    nextName cs = some ((nameOf (skip cs)).map Prod.fst, cs) := rfl

theorem set_apply (rest cs : List Char) : (set rest : Reader PUnit) cs = some (⟨⟩, rest) := rfl

theorem ensure_true (cs : List Char) : ensure true cs = some ((), cs) := rfl

theorem ensure_false (cs : List Char) : ensure false cs = none := rfl

/-- A step that fails takes nothing when it is only tried. -/
theorem attempt_of_none {x : Reader α} {cs : List Char} (h : x cs = none) :
    attempt x cs = some (none, cs) := by
  rw [attempt, h]

/-- The second of two ways is taken from where the first one started. -/
theorem orElse_of_none {x y : Reader α} {cs : List Char} (h : x cs = none) :
    (x <|> y) cs = y cs := by
  show ((x cs) <|> (y cs)) = y cs
  rw [h]
  rfl

end

/-! ## Gaps and marks -/

/-- Whether `c` begins a gap, or may begin a comment. -/
def startsGap (c : Char) : Bool := isSpace c || isLineEnd c || c = '/'

/-- A gap ends before a character that starts none. -/
theorem gap_cons {c : Char} (cs : List Char) (h : startsGap c = false) :
    gapFrom .blank false (c :: cs) = (false, c :: cs) := by
  simp only [startsGap, Bool.or_eq_false_iff, decide_eq_false_iff_not] at h
  simp [gapFrom, h.1.1, h.1.2, h.2]

/-- There is no gap before a character that starts none. -/
theorem skip_cons {c : Char} (cs : List Char) (h : startsGap c = false) :
    skip (c :: cs) = c :: cs := by
  rw [skip, gap_cons cs h]

/-- Such a character is the next one that is seen. -/
theorem head?_skip_cons {c m : Char} {cs : List Char} (hg : startsGap c = false) (h : c ≠ m) :
    (skip (c :: cs)).head? ≠ some m := by
  rw [skip_cons cs hg]
  rintro ⟨⟩
  exact h rfl

/-- A gap goes on after a space. -/
theorem skip_space (cs : List Char) : skip (' ' :: cs) = skip cs := rfl

/-- A mark is not taken if another character comes next. -/
theorem take?_of_head {m : Char} {cs : List Char} (h : (skip cs).head? ≠ some m) :
    take? m cs = some (false, cs) := by
  unfold take?
  cases hs : skip cs with
  | nil => rfl
  | cons c more =>
    rw [hs] at h
    exact if_neg fun heq => h (by rw [heq]; rfl)

/-- A longer mark is not taken if its first character does not come next. -/
theorem takeAll?_of_head {m : Char} {cs : List Char} (ms : List Char)
    (h : (skip cs).head? ≠ some m) : takeAll? (m :: ms) cs = some (false, cs) := by
  unfold takeAll?
  cases hs : skip cs with
  | nil => rfl
  | cons c more =>
    rw [hs] at h
    rw [after?, if_neg fun heq => h (by rw [← heq]; rfl)]

/-- A mark is taken after a gap. -/
theorem mark_of_skip {c : Char} {cs rest : List Char} (hs : skip cs = c :: rest) :
    mark c cs = some ((), rest) := by
  have taken : take? c cs = some (true, rest) := by
    rw [take?, hs]
    exact if_pos rfl
  rw [mark, bind_of_some taken]
  rfl

/-! ## Lists -/

section
variable {α : Type} {item : Reader α} {cs more rest : List Char}

/-- A list of one item. -/
theorem list_of_single {close : Char} {a : α} (hc : take? close cs = some (false, cs))
    (h : item cs = some (a, more)) (hm : take? ',' more = some (false, more))
    (hs : skip more = close :: rest) : list close item cs = some ([a], rest) := by
  rw [list, listFrom, bind_of_some hc, if_neg Bool.false_ne_true, bind_of_some h, bind_of_some hm,
    if_neg Bool.false_ne_true, bind_of_some (mark_of_skip hs)]
  rfl

/-- Two items between commas. -/
theorem commas_of_pair {a b : α} {second : List Char}
    (hc : cs ≠ []) (ha : item cs = some (a, more)) (hm : take? ',' more = some (true, second))
    (hb : item second = some (b, rest)) (hr : take? ',' rest = some (false, rest)) :
    commas item cs = some ([a, b], rest) := by
  obtain ⟨fuel, hf⟩ : ∃ fuel, cs.length = fuel + 1 :=
    ⟨cs.length - 1, (Nat.succ_pred_eq_of_pos (List.length_pos_iff.mpr hc)).symm⟩
  have last : commaFrom item (fuel + 1) second = some ([b], rest) := by
    rw [commaFrom, bind_of_some hb, bind_of_some hr]
    rfl
  rw [commas, hf, commaFrom, bind_of_some ha, bind_of_some hm, if_pos rfl, bind_of_some last]
  rfl

end

/-! ## Parts of a text -/

/-- A span ends where the property does. -/
theorem span_append {p : Char → Bool} {taken rest : List Char} (ht : ∀ c ∈ taken, p c)
    (hr : ∀ c ∈ rest.head?, p c = false) : (taken ++ rest).span p = (taken, rest) := by
  rw [List.span_eq_takeWhile_dropWhile, List.takeWhile_append_of_pos ht,
    List.dropWhile_append_of_pos ht]
  cases rest with
  | nil => simp
  | cons c cs =>
    have hc : p c = false := hr c rfl
    simp [hc]

/-- What a span takes has the property, and stands at the start of the text. -/
theorem span_split {p : Char → Bool} {cs taken rest : List Char} (h : cs.span p = (taken, rest)) :
    (∀ c ∈ taken, p c) ∧ cs = taken ++ rest := by
  rw [List.span_eq_takeWhile_dropWhile, Prod.mk.injEq] at h
  obtain ⟨rfl, rfl⟩ := h
  exact ⟨List.all_eq_true.mp List.all_takeWhile, List.takeWhile_append_dropWhile.symm⟩

section
variable {x : Char} {first more before after : List Char}

/-- A character that a first part does not hold stands after that part. -/
theorem exists_eq_append_of_not_mem (hx : x ∉ first) (h : first ++ more = before ++ x :: after) :
    ∃ between, before = first ++ between ∧ more = between ++ x :: after := by
  rcases List.append_eq_append_iff.mp h with ⟨between, hb, hm⟩ | ⟨between, hf, hm⟩
  · exact ⟨between, hb, hm⟩
  · cases between with
    | nil =>
      rw [List.append_nil] at hf
      exact ⟨[], by rw [hf, List.append_nil], hm.symm⟩
    | cons c cs =>
      -- the first part would go on up to the character and hold it
      cases hm
      exact absurd (hf ▸ List.mem_append_right before List.mem_cons_self) hx

/-- If that part is followed by the character, it is this one or a later one. -/
theorem eq_or_exists_of_not_mem (hx : x ∉ first) (h : first ++ x :: more = before ++ x :: after) :
    before = first ∨ ∃ between, before = first ++ x :: between ∧ more = between ++ x :: after := by
  obtain ⟨between, rfl, hm⟩ := exists_eq_append_of_not_mem hx h
  cases between with
  | nil => exact .inl (List.append_nil first)
  | cons c cs =>
    cases hm
    exact .inr ⟨cs, rfl, rfl⟩

end

/-! ## Names -/

/-- Whether a name ends before the text: it starts with no part of a name, and no escape. -/
def endsName : List Char → Bool
  | [] => true
  | c :: _ => !Text.isNamePart c && c ≠ '\\'

/-- A name is read in full, up to where it ends. -/
theorem nameOf_append {name rest : List Char} (hn : Text.isNameChars name)
    (hr : endsName rest) : nameOf (name ++ rest) = some (String.ofList name, rest) := by
  cases name with
  | nil => cases hn
  | cons c cs =>
    simp only [Text.isNameChars, Bool.and_eq_true, List.all_eq_true] at hn
    have hspan : (cs ++ rest).span Text.isNamePart = (cs, rest) := by
      refine span_append hn.2 fun d hd => ?_
      cases rest with
      | nil => cases hd
      | cons e es =>
        cases hd
        simp only [endsName, Bool.and_eq_true, Bool.not_eq_true'] at hr
        exact hr.1
    rw [List.cons_append, nameOf, if_pos hn.1, hspan]
    -- an escape after the name would go on with it
    cases rest with
    | nil => rfl
    | cons e es =>
      simp only [endsName, Bool.and_eq_true, decide_eq_true_eq] at hr
      split
      · rename_i heq
        cases heq
        exact absurd rfl hr.2
      · rename_i heq
        cases heq
        rfl

/-- The code points of the characters that begin a gap or may begin a comment. -/
def gapCodes : List Nat :=
  [0x20, 9, 0xB, 0xC, 0x85, 0xA0, 0x1680, 0x202F, 0x205F, 0x3000, 0xFEFF, 10, 13, 0x2028, 0x2029,
   47] ++ List.range' 0x2000 12

/-- What starts a gap is one of these characters. -/
theorem mem_gapCodes {c : Char} (h : startsGap c) : c.toNat ∈ gapCodes := by
  simp only [startsGap, isSpace, isLineEnd, Bool.or_eq_true, Bool.and_eq_true, decide_eq_true_eq]
    at h
  rcases h with (space | lineEnd) | rfl
  · simp only [gapCodes, List.mem_append, List.mem_cons, List.mem_range'_1, List.not_mem_nil]
    omega
  · rcases lineEnd with ((rfl | rfl) | rfl) | rfl <;> decide
  · decide

/-- None of these characters is in the table of those that begin a name. -/
theorem startRanges_apart : Text.startRanges.toList.all fun range =>
    gapCodes.all fun code => code < range.1 || range.2 < code := by decide +kernel

/-- No gap begins with a character that begins a name. -/
theorem startsGap_of_isNameStart {c : Char} (h : Text.isNameStart c) : startsGap c = false := by
  by_contra hg
  have hc := mem_gapCodes (Bool.of_not_eq_false hg)
  unfold Text.isNameStart at h
  split at h
  · next hlt =>
    -- the few gap characters below 128 can be tried one by one
    have ascii : ∀ code ∈ gapCodes, code < 128 →
        ¬ ((Char.ofNat code).isAlpha || Char.ofNat code = '$' || Char.ofNat code = '_') := by decide
    have hcode := ascii c.toNat hc hlt
    rw [Char.ofNat_toNat] at hcode
    exact hcode h
  · rw [Text.inRanges, ← Array.any_toList, List.any_eq_true] at h
    obtain ⟨range, hr, hin⟩ := h
    have apart := List.all_eq_true.mp (List.all_eq_true.mp startRanges_apart range hr) _ hc
    simp only [Bool.and_eq_true, Bool.or_eq_true, decide_eq_true_eq] at hin apart
    omega

/-- There is no gap before a name. -/
theorem skip_name {name : List Char} (rest : List Char) (hn : Text.isNameChars name) :
    skip (name ++ rest) = name ++ rest := by
  cases name with
  | nil => cases hn
  | cons c cs =>
    simp only [Text.isNameChars, Bool.and_eq_true] at hn
    exact skip_cons _ (startsGap_of_isNameStart hn.1)

theorem anyNameOf_append {name rest : List Char} (hn : Text.isNameChars name)
    (hr : endsName rest) : anyNameOf (name ++ rest) = some (String.ofList name, rest) := by
  rw [anyNameOf, nameOf_append hn hr]

section
variable {cs name rest : List Char} (hs : skip cs = name ++ rest) (hn : Text.isNameChars name)
    (hr : endsName rest)
include hs hn hr

/-- A name is taken after a gap, even if it is reserved. -/
theorem anyName_of_skip : anyName cs = some (String.ofList name, rest) := by
  rw [anyName, hs, anyNameOf_append hn hr]

/-- A word is taken where it stands. -/
theorem takeWord?_of_skip (word : String) :
    takeWord? word cs
      = if String.ofList name = word then some (true, rest) else some (false, cs) := by
  rw [takeWord?, hs, nameOf_append hn hr]

/-- A word that has to come next is taken after a gap. -/
theorem word_of_skip : word (String.ofList name) cs = some ((), rest) := by
  rw [word, bind_of_some ((takeWord?_of_skip hs hn hr _).trans (if_pos rfl))]
  rfl

end

/-- A text that starts with neither a name nor an escape. -/
theorem nameOf_cons {c : Char} (cs : List Char) (h : Text.isNameStart c = false) :
    nameOf (c :: cs) = none := by
  simp [nameOf, h]

/-- No word is taken before a mark. -/
theorem takeWord?_mark {c : Char} (cs : List Char) (hg : startsGap c = false)
    (hn : Text.isNameStart c = false) (word : String) :
    takeWord? word (c :: cs) = some (false, c :: cs) := by
  rw [takeWord?, skip_cons cs hg, nameOf_cons cs hn]

/-- No name starts with a mark other than the backslash of an escape. -/
theorem anyNameOf_cons {c : Char} (cs : List Char) (h : Text.isNameStart c = false)
    (he : c ≠ '\\') : anyNameOf (c :: cs) = none := by
  -- the third equation is the one for a first character that begins no escape
  rw [anyNameOf, nameOf_cons cs h, List.length_cons, escapedFrom.eq_3]
  · simp only [h, Bool.false_eq_true, if_false]
  · rintro ds heq -
    exact he heq

/-! ## Quoted text -/

/-- A code below the surrogates ends its escape with its own character. -/
theorem endEscape_none {code : Nat} (rest : List Char) (h : code < 0xD800) :
    endEscape none code rest = .next [ofCodePoint code] {} := by
  simp only [endEscape]
  split
  · exact if_neg (by simp only [Bool.and_eq_true, decide_eq_true_eq]; omega)
  · rfl

/-- A character that gives one character. -/
theorem quotedFrom_of_next {quote c d : Char} {state state' : EscapeState} {cs : List Char}
    (h : quotedStep quote state c cs = .next [d] state') :
    quotedFrom quote state (c :: cs)
      = (quotedFrom quote state' cs).map fun (value, rest) => (d :: value, rest) := by
  rw [quotedFrom, h]
  rfl

/-- A character inside an escape, which gives nothing yet. -/
theorem quotedFrom_of_silent {quote c : Char} {state state' : EscapeState} {cs : List Char}
    (h : quotedStep quote state c cs = .next [] state') :
    quotedFrom quote state (c :: cs) = quotedFrom quote state' cs := by
  rw [quotedFrom, h]
  exact Option.map_id'

/-- A character is read back from how it is written between single quotes. -/
theorem quotedFrom_escapeChar (c : Char) (more : List Char) :
    quotedFrom '\'' {} (Text.escapeChar c ++ more)
      = (quotedFrom '\'' {} more).map fun (value, rest) => (c :: value, rest) := by
  -- an escape of a backslash and one character
  have short (d : Char) (h : startEscape none d more = .next [c] {}) :
      quotedFrom '\'' {} ('\\' :: d :: more)
        = (quotedFrom '\'' {} more).map fun (value, rest) => (c :: value, rest) := by
    rw [quotedFrom_of_silent rfl]
    exact quotedFrom_of_next h
  -- an escape by code point; its last digit ends it whatever comes next
  have long (d : Char) (hd : isHexDigit d) (hv : Number.digitValue d < 16)
      (h : ofCodePoint (0x2020 + Number.digitValue d) = c) :
      quotedFrom '\'' {} ('\\' :: 'u' :: '2' :: '0' :: '2' :: d :: more)
        = (quotedFrom '\'' {} more).map fun (value, rest) => (c :: value, rest) := by
    rw [quotedFrom_of_silent rfl, quotedFrom_of_silent rfl, quotedFrom_of_silent rfl,
      quotedFrom_of_silent rfl, quotedFrom_of_silent rfl]
    apply quotedFrom_of_next
    rw [← h]
    simp only [quotedStep, hd]
    exact endEscape_none more (by simp [Number.digitValue] at *; omega)
  unfold Text.escapeChar
  split
  · next h => exact short '\\' (by subst h; rfl)
  split
  · next h => exact short '\'' (by subst h; rfl)
  split
  · next h => exact short 'r' (by subst h; rfl)
  split
  · next h => exact short 'n' (by subst h; rfl)
  split
  · next h => exact long '8' rfl (by decide) (by subst h; rfl)
  split
  · next h => exact long '9' rfl (by decide) (by subst h; rfl)
  · apply quotedFrom_of_next
    simp [quotedStep, *]

/-- Escaped text is read back, whatever stands after the closing quote. -/
theorem quotedFrom_escapeChars (text rest : List Char) :
    quotedFrom '\'' {} (Text.escapeChars text ++ '\'' :: rest) = some (text, rest) := by
  induction text with
  | nil => rfl
  | cons c cs ih =>
    rw [Text.escapeChars, List.flatMap_cons, List.append_assoc, quotedFrom_escapeChar,
      ← Text.escapeChars, ih]
    rfl

end JsxLowering.Source
