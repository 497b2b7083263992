import JsxLowering.Template.Basic
import Mathlib.Data.List.Infix

/-!
# Scanning for holes

`Template.spelled` writes a template as a text. A template is canonical if its codes end where they
seem to and its texts hold no mark that the scan would take for a hole. The scan of a text gives the
one canonical template that spells the text.
-/

namespace JsxLowering.Template

/-- The mark that opens a hole. -/
def openMark : List Char := ['<', '%', '=']

/-- The mark that closes a hole. -/
def closeMark : List Char := ['%', '>']

/-- A hole as it is written. -/
def spelledHole (code : List Char) : List Char := openMark ++ code ++ closeMark

/-- The text that a template spells. -/
def spelled (t : Template) : List Char :=
  t.head ++ t.holes.flatMap fun (code, text) => spelledHole code ++ text

/-- The codes of the holes. -/
def codes (t : Template) : List (List Char) := t.holes.map Prod.fst

/-- The text after the last hole. -/
def last (t : Template) : List Char := (t.holes.map Prod.snd).getLastD t.head

/-- Whether a code is the one that is found: it is not empty, and no closing mark after its first
character comes before the one that is written at its end. -/
def IsCode (code : List Char) : Prop := ∃ c cs, code = c :: cs ∧ ¬ closeMark <:+: cs ++ ['%']

/-- Whether a text holds an opening mark, some characters and a closing mark. -/
def HoldsHole (text : List Char) : Prop :=
  ∃ before code after, code ≠ [] ∧ text = before ++ (spelledHole code ++ after)

/-- Whether a text before holes with texts after them holds no opening mark, nor does any other text
before a hole, and the last text holds no hole. -/
def SettledFrom : List Char → List (List Char × List Char) → Prop
  | text, [] => ¬ HoldsHole text
  | text, (_, next) :: rest => ¬ openMark <:+: text ∧ SettledFrom next rest

/-- Whether no text before a hole holds an opening mark, and the last text holds no hole. -/
def IsSettled (t : Template) : Prop := SettledFrom t.head t.holes

/-- Whether a template is one that the scan of a text can give. -/
structure IsCanonical (t : Template) : Prop where
  codes : ∀ code ∈ t.codes, IsCode code
  texts : t.IsSettled

/-! ## Closing marks -/

theorem closeMark_prefix_cons {c : Char} {cs : List Char} :
    closeMark <+: c :: cs ↔ c = '%' ∧ cs.head? = some '>' := by
  cases cs with
  | nil => simp [closeMark, List.cons_prefix_cons]
  | cons d ds => simp [closeMark, List.cons_prefix_cons, eq_comm]

theorem beforeClose?_cons (c : Char) (cs : List Char) :
    beforeClose? (c :: cs)
      = if closeMark <+: c :: cs then some [] else (beforeClose? cs).map (c :: ·) := by
  rw [beforeClose?]
  by_cases h : closeMark <+: c :: cs
  · have marks := closeMark_prefix_cons.mp h
    rw [if_pos h, if_pos (by simp [marks])]
  · have marks := mt closeMark_prefix_cons.mpr h
    rw [if_neg h, if_neg (by simpa using marks)]

/-- A text with a closing mark is cut there. -/
theorem beforeClose?_isSome {text : List Char} (h : closeMark <:+: text) :
    (beforeClose? text).isSome := by
  induction text with
  | nil => exact absurd (List.infix_nil.mp h) (by decide)
  | cons c cs ih =>
    rw [beforeClose?_cons]
    by_cases start : closeMark <+: c :: cs
    · rw [if_pos start]
      rfl
    · have later := (List.infix_cons_iff.mp h).resolve_left start
      rw [if_neg start, Option.isSome_map]
      exact ih later

theorem beforeClose?_sound {text code : List Char} (h : beforeClose? text = some code) :
    (∃ rest, text = code ++ (closeMark ++ rest)) ∧ ¬ closeMark <:+: code ++ ['%'] := by
  induction text generalizing code with
  | nil => cases h
  | cons c cs ih =>
    rw [beforeClose?_cons] at h
    by_cases start : closeMark <+: c :: cs
    · rw [if_pos start] at h
      cases h
      obtain ⟨rest, cut⟩ := start
      exact ⟨⟨rest, cut.symm⟩, by decide⟩
    · rw [if_neg start] at h
      obtain ⟨before, found, rfl⟩ := Option.map_eq_some_iff.mp h
      obtain ⟨⟨rest, cut⟩, first⟩ := ih found
      refine ⟨⟨rest, by rw [cut]; rfl⟩, ?_⟩
      rw [List.cons_append, List.infix_cons_iff, not_or]
      refine ⟨fun mark => start ?_, first⟩
      -- the character after `c` is the same in the code with its mark and in the text
      have same : cs.head? = (before ++ ['%']).head? := by
        rw [cut]
        cases before <;> rfl
      rw [closeMark_prefix_cons] at mark ⊢
      exact ⟨mark.1, same.trans mark.2⟩

theorem beforeClose?_complete {code : List Char} (h : ¬ closeMark <:+: code ++ ['%'])
    (rest : List Char) : beforeClose? (code ++ (closeMark ++ rest)) = some code := by
  induction code with
  | nil => rfl
  | cons c cs ih =>
    rw [List.cons_append, List.infix_cons_iff, not_or] at h
    have same : (cs ++ (closeMark ++ rest)).head? = (cs ++ ['%']).head? := by
      cases cs <;> rfl
    have start : ¬ closeMark <+: c :: (cs ++ (closeMark ++ rest)) := by
      intro mark
      rw [closeMark_prefix_cons, same] at mark
      exact h.1 (closeMark_prefix_cons.mpr mark)
    rw [List.cons_append, beforeClose?_cons, if_neg start, ih h.2]
    rfl

/-! ## Holes -/

theorem hole?_sound {text code : List Char} (h : hole? text = some code) :
    (∃ rest, text = spelledHole code ++ rest) ∧ IsCode code := by
  unfold hole? at h
  split at h
  · next c cs =>
    obtain ⟨before, found, rfl⟩ := Option.map_eq_some_iff.mp h
    obtain ⟨⟨rest, cut⟩, first⟩ := beforeClose?_sound found
    refine ⟨⟨rest, ?_⟩, c, before, rfl, first⟩
    rw [cut, spelledHole, List.append_assoc]
    rfl
  · cases h

theorem hole?_complete {code : List Char} (h : IsCode code) (rest : List Char) :
    hole? (spelledHole code ++ rest) = some code := by
  obtain ⟨c, cs, rfl, first⟩ := h
  have cut := beforeClose?_complete first rest
  rw [spelledHole, List.append_assoc]
  show (beforeClose? (cs ++ (closeMark ++ rest))).map (c :: ·) = _
  rw [cut]
  rfl

theorem gt_mem_of_closeMark {text : List Char} (h : closeMark <:+: text) : '>' ∈ text :=
  h.subset (by decide)

/-- No closing mark is found in code without an angle bracket. -/
theorem isCode_of_not_mem {code : List Char} (hn : code ≠ []) (h : '>' ∉ code) : IsCode code := by
  cases code with
  | nil => exact absurd rfl hn
  | cons c cs =>
    refine ⟨c, cs, rfl, fun mark => ?_⟩
    have bracket := gt_mem_of_closeMark mark
    rw [List.mem_cons, not_or] at h
    simp [h.2] at bracket

theorem isCode_padded {text : List Char} (h : '>' ∉ text) : IsCode (' ' :: (text ++ [' '])) :=
  isCode_of_not_mem (List.cons_ne_nil _ _) (by simp [h])

/-- Only a text that starts with an opening mark starts with a hole. -/
theorem hole?_of_not_opening {text : List Char} (h : ¬ openMark <+: text) : hole? text = none := by
  cases found : hole? text with
  | none => rfl
  | some code =>
    obtain ⟨⟨rest, rfl⟩, -⟩ := hole?_sound found
    refine absurd ?_ h
    rw [spelledHole, List.append_assoc, List.append_assoc]
    exact List.prefix_append _ _

/-- A text that starts like a hole starts with one, which may end earlier. -/
theorem hole?_isSome {code : List Char} (h : code ≠ []) (rest : List Char) :
    (hole? (spelledHole code ++ rest)).isSome := by
  cases code with
  | nil => exact absurd rfl h
  | cons c cs =>
    have mark : closeMark <:+: cs ++ (closeMark ++ rest) := by
      rw [← List.append_assoc]
      exact List.infix_append cs closeMark rest
    rw [spelledHole, List.append_assoc]
    show ((beforeClose? (cs ++ (closeMark ++ rest))).map (c :: ·)).isSome
    rw [Option.isSome_map]
    exact beforeClose?_isSome mark

theorem holdsHole_cons {c : Char} {cs : List Char} :
    HoldsHole (c :: cs) ↔ (hole? (c :: cs)).isSome ∨ HoldsHole cs := by
  constructor
  · rintro ⟨before, code, after, filled, cut⟩
    -- the hole starts here, or it is one of the characters after
    cases before with
    | nil =>
      left
      rw [cut]
      exact hole?_isSome filled after
    | cons d ds =>
      right
      exact ⟨ds, code, after, filled, (List.cons.inj cut).2⟩
  · rintro (start | ⟨before, code, after, filled, rfl⟩)
    · obtain ⟨code, found⟩ := Option.isSome_iff_exists.mp start
      obtain ⟨⟨rest, cut⟩, d, ds, rfl, -⟩ := hole?_sound found
      exact ⟨[], d :: ds, rest, List.cons_ne_nil d ds, cut⟩
    · exact ⟨c :: before, code, after, filled, rfl⟩

theorem not_holdsHole_nil : ¬ HoldsHole [] := by
  rintro ⟨before, code, after, -, cut⟩
  have lengths := congrArg List.length cut
  simp [spelledHole, openMark] at lengths

/-- A text with a hole has an opening mark. -/
theorem openMark_infix_of_holdsHole {text : List Char} (h : HoldsHole text) :
    openMark <:+: text := by
  obtain ⟨before, code, after, -, rfl⟩ := h
  refine ⟨before, code ++ closeMark ++ after, ?_⟩
  simp only [spelledHole, List.append_assoc]

/-! ## The scan -/

/-- A character that starts no hole is text. -/
theorem ofText_cons {c : Char} {cs : List Char} (h : hole? (c :: cs) = none) :
    ofText (c :: cs) = ⟨c :: (ofText cs).head, (ofText cs).holes⟩ := by
  rw [ofText, splitFrom, h]
  rfl

/-- A hole is found where it starts. -/
theorem ofText_spelledHole {code : List Char} (h : IsCode code) (rest : List Char) :
    ofText (spelledHole code ++ rest)
      = ⟨[], (code, (ofText rest).head) :: (ofText rest).holes⟩ := by
  have found := hole?_complete h rest
  -- all that is passed over: the rest of the opening mark, the code and the closing mark
  have passed := splitFrom_append ('%' :: '=' :: (code ++ closeMark)) rest
  have length : ('%' :: '=' :: (code ++ closeMark)).length = code.length + 4 := by
    simp [closeMark]
  have cut : spelledHole code ++ rest = '<' :: ('%' :: '=' :: (code ++ closeMark) ++ rest) := rfl
  rw [length] at passed
  rw [cut] at found ⊢
  rw [ofText, splitFrom, found]
  simp only [passed]
  rfl

/-- Induction as the scan goes: over a character that starts no hole, or over a whole hole. -/
theorem scan_induction {motive : List Char → Prop} (nil : motive [])
    (char : ∀ c cs, hole? (c :: cs) = none → motive cs → motive (c :: cs))
    (hole : ∀ code rest, IsCode code → motive rest → motive (spelledHole code ++ rest))
    (text : List Char) : motive text := by
  -- a hole takes more than one character at once, so the induction is on the length
  induction length : text.length using Nat.strong_induction_on generalizing text with
  | _ n ih =>
    cases text with
    | nil => exact nil
    | cons c cs =>
      cases found : hole? (c :: cs) with
      | none => exact char c cs found (ih cs.length (by rw [← length]; simp) cs rfl)
      | some code =>
        obtain ⟨⟨rest, cut⟩, own⟩ := hole?_sound found
        have shorter : rest.length < n := by
          rw [← length, cut, List.length_append]
          simp [spelledHole, openMark]
        rw [cut]
        exact hole code rest own (ih rest.length shorter rest rfl)

theorem spelled_cons_hole (text code next : List Char) (rest : List (List Char × List Char)) :
    spelled ⟨text, (code, next) :: rest⟩ = text ++ (spelledHole code ++ spelled ⟨next, rest⟩) := by
  simp only [spelled, List.flatMap_cons, List.append_assoc]

/-- Nothing is lost, repeated or moved. -/
theorem spelled_ofText (text : List Char) : (ofText text).spelled = text := by
  induction text using scan_induction with
  | nil => rfl
  | char c cs none ih =>
    rw [ofText_cons none]
    exact congrArg (c :: ·) ih
  | hole code rest own ih =>
    rw [ofText_spelledHole own, spelled_cons_hole, ih]
    rfl

/-- A character before a template that does not make a hole of what follows. -/
theorem SettledFrom.cons {c : Char} {text : List Char} {holes : List (List Char × List Char)}
    (h : SettledFrom text holes) (hc : hole? (c :: spelled ⟨text, holes⟩) = none) :
    SettledFrom (c :: text) holes := by
  cases holes with
  | nil =>
    have all : spelled ⟨text, []⟩ = text := List.append_nil text
    rw [all] at hc
    show ¬ HoldsHole (c :: text)
    rw [holdsHole_cons, hc, not_or]
    exact ⟨Bool.false_ne_true, h⟩
  | cons hole rest =>
    obtain ⟨code, next⟩ := hole
    refine ⟨?_, h.2⟩
    rw [List.infix_cons_iff, not_or]
    refine ⟨?_, h.1⟩
    -- a mark here and the closing mark of the next hole would make a hole
    rintro ⟨middle, cut⟩
    have filled : middle ++ openMark ++ code ≠ [] := by
      simp [openMark]
    have whole : c :: spelled ⟨text, (code, next) :: rest⟩
        = spelledHole (middle ++ openMark ++ code) ++ spelled ⟨next, rest⟩ := by
      rw [spelled_cons_hole, ← List.cons_append, ← cut]
      simp only [spelledHole, List.append_assoc]
    have found := hole?_isSome filled (spelled ⟨next, rest⟩)
    rw [← whole, hc] at found
    exact Bool.false_ne_true found

/-- What the scan gives is canonical. -/
theorem isCanonical_ofText (text : List Char) : (ofText text).IsCanonical := by
  induction text using scan_induction with
  | nil => exact ⟨fun code hc => absurd hc List.not_mem_nil, not_holdsHole_nil⟩
  | char c cs none ih =>
    rw [ofText_cons none]
    refine ⟨ih.codes, SettledFrom.cons ih.texts ?_⟩
    rw [← spelled_ofText cs] at none
    exact none
  | hole code rest own ih =>
    rw [ofText_spelledHole own]
    refine ⟨fun other ho => ?_, ?_, ih.texts⟩
    · rcases List.mem_cons.mp ho with rfl | later
      · exact own
      · exact ih.codes other later
    · exact fun mark => absurd (List.infix_nil.mp mark) (by decide)

/-! ## Canonical templates -/

/-- A text without a hole is left as it is. -/
theorem ofText_of_not_holdsHole {text : List Char} (h : ¬ HoldsHole text) :
    ofText text = ⟨text, []⟩ := by
  induction text with
  | nil => rfl
  | cons c cs ih =>
    rw [holdsHole_cons, not_or, Bool.not_eq_true, Option.isSome_eq_false_iff,
      Option.isNone_iff_eq_none] at h
    rw [ofText_cons h.1, ih h.2]

/-- A text without an opening mark does not get one from the mark after it. -/
theorem not_opening_append {text : List Char} (h : ¬ openMark <+: text) (hn : text ≠ [])
    (rest : List Char) : ¬ openMark <+: text ++ (openMark ++ rest) := by
  cases text with
  | nil => exact absurd rfl hn
  | cons c cs =>
    cases cs with
    | nil => simp [openMark]
    | cons d ds =>
      cases ds with
      | nil => simp [openMark]
      | cons e es => simpa [openMark] using h

theorem ofText_append_spelledHole {text code : List Char} (ht : ¬ openMark <:+: text)
    (hc : IsCode code) (rest : List Char) :
    ofText (text ++ (spelledHole code ++ rest))
      = ⟨text, (code, (ofText rest).head) :: (ofText rest).holes⟩ := by
  -- without an opening mark no character starts a hole, not even across the end of the text
  induction text with
  | nil => exact ofText_spelledHole hc rest
  | cons c cs ih =>
    rw [List.infix_cons_iff, not_or] at ht
    have start : ¬ openMark <+: (c :: cs) ++ (spelledHole code ++ rest) := by
      have apart := not_opening_append ht.1 (List.cons_ne_nil c cs) (code ++ (closeMark ++ rest))
      rw [spelledHole, List.append_assoc, List.append_assoc]
      exact apart
    have none := hole?_of_not_opening start
    rw [List.cons_append] at none ⊢
    rw [ofText_cons none, ih ht.2]

/-- The scan finds a canonical template in the text that the template spells. -/
theorem ofText_of_isCanonical {t : Template} (h : t.IsCanonical) : ofText t.spelled = t := by
  obtain ⟨head, holes⟩ := t
  induction holes generalizing head with
  | nil =>
    have all : spelled ⟨head, []⟩ = head := List.append_nil head
    rw [all]
    exact ofText_of_not_holdsHole h.texts
  | cons hole rest ih =>
    obtain ⟨code, next⟩ := hole
    have later := ih next ⟨fun other ho => h.codes other (List.mem_cons_of_mem _ ho), h.texts.2⟩
    rw [spelled_cons_hole, ofText_append_spelledHole h.texts.1 (h.codes code List.mem_cons_self),
      later]

/-- The scan gives the one canonical template that spells the text. -/
theorem ofText_eq_iff {text : List Char} {t : Template} :
    ofText text = t ↔ t.spelled = text ∧ t.IsCanonical := by
  constructor
  · rintro rfl
    exact ⟨spelled_ofText text, isCanonical_ofText text⟩
  · rintro ⟨rfl, canonical⟩
    exact ofText_of_isCanonical canonical

/-! ## A hole after any text -/

/-- A text that is not closed is not closed by code that is opened after it. -/
theorem not_closed_append {text code : List Char} (ht : ¬ closeMark <:+: text)
    (hc : '>' ∉ code) : ¬ closeMark <:+: text ++ (openMark ++ code) ++ ['%'] := by
  induction text with
  | nil =>
    intro mark
    have bracket := gt_mem_of_closeMark mark
    simp [openMark, hc] at bracket
  | cons c cs ih =>
    rw [List.infix_cons_iff, not_or] at ht
    rw [List.cons_append, List.cons_append, List.infix_cons_iff, not_or]
    refine ⟨fun mark => ht.1 ?_, ih ht.2⟩
    rw [closeMark_prefix_cons] at mark ⊢
    cases cs with
    | nil => exact absurd (Option.some.inj mark.2) (by decide)
    | cons d ds => exact mark

/-- If a text starts with an opening mark and with no hole, what is written after it as a hole goes
on as code of the hole that starts the text. -/
theorem isCode_of_open {text code : List Char} (ht : hole? (openMark ++ text) = none)
    (hc : '>' ∉ code) : IsCode (text ++ (openMark ++ code)) := by
  cases text with
  | nil =>
    refine ⟨'<', '%' :: '=' :: code, rfl, fun mark => ?_⟩
    have bracket := gt_mem_of_closeMark mark
    simp [hc] at bracket
  | cons c cs =>
    -- a closing mark in the text would end a hole at the opening mark before it
    refine ⟨c, cs ++ (openMark ++ code), rfl, not_closed_append (fun mark => ?_) hc⟩
    obtain ⟨before, found⟩ := Option.isSome_iff_exists.mp (beforeClose?_isSome mark)
    have start : hole? (openMark ++ c :: cs) = some (c :: before) := by
      show (beforeClose? cs).map (c :: ·) = _
      rw [found]
      rfl
    rw [ht] at start
    cases start

/-- What is written as a hole after any text ends a hole that is found: it is that hole, or the text
before it opens the hole and its marks go on as code. What is found after it is what is found in the
text that follows. -/
theorem exists_code_of_spelledHole {code : List Char} (hn : code ≠ []) (hc : '>' ∉ code)
    (text rest : List Char) :
    ∃ before own, (ofText (text ++ (spelledHole code ++ rest))).codes
        = before ++ own :: (ofText rest).codes
      ∧ (own = code ∨ openMark ++ code <:+ own) := by
  have isCode := isCode_of_not_mem hn hc
  induction text using scan_induction with
  | nil =>
    refine ⟨[], code, ?_, .inl rfl⟩
    rw [List.nil_append, ofText_spelledHole isCode]
    rfl
  | char c cs none ih =>
    by_cases start : openMark <+: c :: cs
    · -- an opening mark that starts no hole in the text is closed by the mark after the code
      obtain ⟨later, cut⟩ := start
      rw [← cut] at none ⊢
      refine ⟨[], later ++ (openMark ++ code), ?_, .inr (List.suffix_append _ _)⟩
      have whole : openMark ++ later ++ (spelledHole code ++ rest)
          = spelledHole (later ++ (openMark ++ code)) ++ rest := by
        simp only [spelledHole, List.append_assoc]
      rw [whole, ofText_spelledHole (isCode_of_open none hc)]
      rfl
    · have apart := not_opening_append start (List.cons_ne_nil c cs)
        (code ++ (closeMark ++ rest))
      have after : openMark ++ (code ++ (closeMark ++ rest)) = spelledHole code ++ rest := by
        simp only [spelledHole, List.append_assoc]
      rw [after] at apart
      have text := hole?_of_not_opening apart
      rw [List.cons_append] at text ⊢
      rw [ofText_cons text]
      exact ih
  | hole inner later own ih =>
    obtain ⟨before, found, codes, ends⟩ := ih
    refine ⟨inner :: before, found, ?_, ends⟩
    rw [List.append_assoc, ofText_spelledHole own]
    exact congrArg (inner :: ·) codes

end JsxLowering.Template
