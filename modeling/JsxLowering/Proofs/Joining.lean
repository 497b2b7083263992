import JsxLowering.Proofs.Scanning

/-!
# Joined and quoted templates

The scan of two texts one after the other need not be the join of their scans: a mark may start in
the first text and end in the second. It is the join if the first text opens no mark that it does
not close. Single quotes stand in no mark, so that the scan finds the same holes when they are
written as entities.
-/

namespace JsxLowering.Template

/-! ## Open marks -/

/-- Whether an opening mark starts in a text, and maybe goes on after it. -/
def opens : List Char → Bool
  | [] => false
  | c :: cs => openMark.isPrefixOf (c :: cs) || (c :: cs).isPrefixOf openMark || opens cs

/-- No mark starts at the first character, inside the text or across its end, and none after it. -/
theorem opens_cons_eq_false {c : Char} {cs : List Char} :
    opens (c :: cs) = false
      ↔ ¬ openMark <+: c :: cs ∧ ¬ c :: cs <+: openMark ∧ opens cs = false := by
  rw [opens, Bool.or_eq_false_iff, Bool.or_eq_false_iff, ← Bool.not_eq_true, ← Bool.not_eq_true,
    List.isPrefixOf_iff_prefix, List.isPrefixOf_iff_prefix, and_assoc]

/-- A mark starts with an angle bracket only. -/
theorem opens_of_ne {c : Char} (h : c ≠ '<') (cs : List Char) : opens (c :: cs) = opens cs := by
  simp [opens, openMark, List.isPrefixOf, h, Ne.symm h]

/-- A mark does not start in a text that opens none. -/
theorem openMark_infix_of_append {text more : List Char} (h : opens text = false)
    (hm : openMark <:+: text ++ more) : openMark <:+: more := by
  induction text with
  | nil => exact hm
  | cons c cs ih =>
    obtain ⟨inside, across, later⟩ := opens_cons_eq_false.mp h
    rw [List.cons_append, List.infix_cons_iff] at hm
    rcases hm with start | after
    · -- the mark and the text both start the whole, so one of them starts the other
      have own : c :: cs <+: c :: (cs ++ more) := List.prefix_append (c :: cs) more
      rcases List.prefix_or_prefix_of_prefix start own with first | first
      · exact absurd first inside
      · exact absurd first across
    · exact ih later after

/-- A text that opens no mark holds none. -/
theorem not_infix_of_opens {text : List Char} (h : opens text = false) :
    ¬ openMark <:+: text := by
  intro mark
  rw [← List.append_nil text] at mark
  exact absurd (List.infix_nil.mp (openMark_infix_of_append h mark)) (by decide)

/-- A text opens no mark if it has no percent sign and does not end with an angle bracket. -/
theorem opens_of_not_mem {text : List Char} (h : '%' ∉ text) (hl : text.getLast? ≠ some '<') :
    opens text = false := by
  induction text with
  | nil => rfl
  | cons c cs ih =>
    rw [List.mem_cons, not_or] at h
    cases cs with
    | nil =>
      have bracket : c ≠ '<' := fun heq => hl (by rw [heq]; rfl)
      exact opens_of_ne bracket []
    | cons d ds =>
      have percent : d ≠ '%' := fun heq => h.2 (heq ▸ List.mem_cons_self)
      have later := ih h.2 (by rwa [List.getLast?_cons_cons] at hl)
      rw [opens, later]
      simp [openMark, List.isPrefixOf, percent, Ne.symm percent]

/-! ## Joins -/

/-- A text and the holes after it, followed by another template. -/
def joinFrom (u : Template) : List Char → List (List Char × List Char) → Template
  | text, [] => ⟨text ++ u.head, u.holes⟩
  | text, (code, next) :: rest =>
    ⟨text, (code, (joinFrom u next rest).head) :: (joinFrom u next rest).holes⟩

/-- One template after the other: the last text of the first goes on with the head of the
second. -/
def append (t u : Template) : Template := joinFrom u t.head t.holes

/-- Whether no text of a template holds an opening mark. -/
def IsMarkFree (t : Template) : Prop :=
  ∀ text ∈ t.head :: t.holes.map Prod.snd, ¬ openMark <:+: text

/-- Joined templates spell the two texts one after the other. -/
theorem spelled_append (t u : Template) : (t.append u).spelled = t.spelled ++ u.spelled := by
  obtain ⟨head, holes⟩ := t
  show (joinFrom u head holes).spelled = _
  induction holes generalizing head with
  | nil => simp [joinFrom, spelled]
  | cons hole rest ih =>
    obtain ⟨code, next⟩ := hole
    have later := ih next
    rw [joinFrom, spelled_cons_hole, spelled_cons_hole, later]
    simp only [List.append_assoc]

/-- Joined templates have the codes of both. -/
theorem codes_append (t u : Template) : (t.append u).codes = t.codes ++ u.codes := by
  obtain ⟨head, holes⟩ := t
  show (joinFrom u head holes).codes = _
  induction holes generalizing head with
  | nil => rfl
  | cons hole rest ih => exact congrArg (hole.1 :: ·) (ih hole.2)

/-- The last text does not change with the holes before it. -/
theorem last_cons_hole (text code next : List Char) (rest : List (List Char × List Char)) :
    last ⟨text, (code, next) :: rest⟩ = last ⟨next, rest⟩ := by
  rw [last, List.map_cons, List.getLastD_cons]
  rfl

/-- Texts without opening marks hold no holes. -/
theorem IsMarkFree.isSettled {t : Template} (h : t.IsMarkFree) : t.IsSettled := by
  obtain ⟨head, holes⟩ := t
  show SettledFrom head holes
  induction holes generalizing head with
  | nil => exact fun hole => h head List.mem_cons_self (openMark_infix_of_holdsHole hole)
  | cons hole rest ih =>
    have later := ih hole.2 fun text ht => h text (List.mem_cons_of_mem _ ht)
    exact ⟨h head List.mem_cons_self, later⟩

/-- The texts before holes hold no opening mark, so only the last one has to be asked for. -/
theorem IsSettled.isMarkFree {t : Template} (h : t.IsSettled) (hl : opens t.last = false) :
    t.IsMarkFree := by
  obtain ⟨head, holes⟩ := t
  intro text ht
  induction holes generalizing head with
  | nil =>
    rw [List.mem_singleton.mp ht]
    exact not_infix_of_opens hl
  | cons hole rest ih =>
    rcases List.mem_cons.mp ht with rfl | later
    · exact h.1
    · rw [last_cons_hole] at hl
      exact ih hole.2 h.2 hl later

/-- If the first template opens no mark at its end, joining makes none. -/
theorem IsMarkFree.append {t u : Template} (h : t.IsMarkFree) (hl : opens t.last = false)
    (hu : u.IsMarkFree) : (t.append u).IsMarkFree := by
  obtain ⟨head, holes⟩ := t
  show (joinFrom u head holes).IsMarkFree
  induction holes generalizing head with
  | nil =>
    -- here the two templates meet: the last text of the first goes on with the head of the second
    intro text ht
    rcases List.mem_cons.mp ht with rfl | later
    · exact fun mark => hu u.head List.mem_cons_self (openMark_infix_of_append hl mark)
    · exact hu text (List.mem_cons_of_mem _ later)
  | cons hole rest ih =>
    intro text ht
    rcases List.mem_cons.mp ht with rfl | later
    · exact h _ List.mem_cons_self
    · rw [last_cons_hole] at hl
      exact ih hole.2 (fun other ho => h other (List.mem_cons_of_mem _ ho)) hl text later

/-! ## Quotes -/

/-- Text inside an attribute, with its single quotes as entities. -/
def quoteChars (text : List Char) : List Char :=
  text.flatMap fun c => if c = '\'' then "&#39;".toList else [c]

/-- The template with its codes and texts inside an attribute. -/
def quoted (t : Template) : Template :=
  ⟨quoteChars t.head, t.holes.map (Prod.map quoteChars quoteChars)⟩

theorem quoteChars_quote (cs : List Char) :
    quoteChars ('\'' :: cs) = '&' :: '#' :: '3' :: '9' :: ';' :: quoteChars cs := rfl

theorem quoteChars_cons {c : Char} (h : c ≠ '\'') (cs : List Char) :
    quoteChars (c :: cs) = c :: quoteChars cs := by
  rw [quoteChars, List.flatMap_cons, if_neg h]
  rfl

/-- The marks around a code have no quote in them. -/
theorem quoteChars_spelledHole (code rest : List Char) :
    quoteChars (spelledHole code ++ rest) = spelledHole (quoteChars code) ++ quoteChars rest := by
  have opening : quoteChars openMark = openMark := by decide
  have closing : quoteChars closeMark = closeMark := by decide
  rw [quoteChars] at opening closing
  simp only [spelledHole, quoteChars, List.flatMap_append, opening, closing]

/-- No bracket comes from a quote, and none gets lost. -/
theorem head?_quoteChars (cs : List Char) :
    (quoteChars cs).head? = some '>' ↔ cs.head? = some '>' := by
  cases cs with
  | nil => rfl
  | cons c cs =>
    by_cases quote : c = '\''
    · rw [quote, quoteChars_quote]
      simp
    · rw [quoteChars_cons quote]
      rfl

/-- Quotes stand in no closing mark, so that a text is cut at the same place. -/
theorem beforeClose?_quoteChars (text : List Char) :
    beforeClose? (quoteChars text) = (beforeClose? text).map quoteChars := by
  induction text with
  | nil => rfl
  | cons c cs ih =>
    by_cases quote : c = '\''
    · rw [quote, quoteChars_quote]
      simp only [beforeClose?, ih]
      cases beforeClose? cs <;> rfl
    · rw [quoteChars_cons quote]
      simp only [beforeClose?, head?_quoteChars, ih]
      split
      · rfl
      · cases beforeClose? cs with
        | none => rfl
        | some code => exact congrArg some (quoteChars_cons quote code).symm

/-- A mark at the start of a text with entities stands in the text as well. -/
theorem opening_of_quoteChars {mark text : List Char} (hm : '&' ∉ mark)
    (h : mark <+: quoteChars text) : mark <+: text := by
  induction mark generalizing text with
  | nil => exact List.nil_prefix
  | cons a mark ih =>
    rw [List.mem_cons, not_or] at hm
    cases text with
    | nil => exact h
    | cons c cs =>
      by_cases quote : c = '\''
      · rw [quote, quoteChars_quote, List.cons_prefix_cons] at h
        exact absurd h.1.symm hm.1
      · rw [quoteChars_cons quote, List.cons_prefix_cons] at h
        exact List.cons_prefix_cons.mpr ⟨h.1, ih hm.2 h.2⟩

/-- A text that starts a mark when it is quoted starts it as it stands, as no mark has entities. -/
theorem quoteChars_opening {mark text : List Char} (hm : '&' ∉ mark)
    (h : quoteChars text <+: mark) : text <+: mark := by
  induction text generalizing mark with
  | nil => exact List.nil_prefix
  | cons c cs ih =>
    by_cases quote : c = '\''
    · rw [quote, quoteChars_quote] at h
      exact absurd (h.subset List.mem_cons_self) hm
    · rw [quoteChars_cons quote] at h
      cases mark with
      | nil => exact absurd (List.prefix_nil.mp h) (List.cons_ne_nil _ _)
      | cons a mark =>
        rw [List.mem_cons, not_or] at hm
        rw [List.cons_prefix_cons] at h
        exact List.cons_prefix_cons.mpr ⟨h.1, ih hm.2 h.2⟩

/-- A text that opens no mark opens none inside an attribute. -/
theorem opens_quoteChars {text : List Char} (h : opens text = false) :
    opens (quoteChars text) = false := by
  induction text with
  | nil => rfl
  | cons c cs ih =>
    by_cases quote : c = '\''
    · rw [quote, opens_of_ne (by decide)] at h
      rw [quote, quoteChars_quote]
      simp (disch := decide) only [opens_of_ne, ih h]
    · obtain ⟨inside, across, later⟩ := opens_cons_eq_false.mp h
      replace inside := mt (opening_of_quoteChars (by decide)) inside
      replace across := mt (quoteChars_opening (by decide)) across
      rw [quoteChars_cons quote] at inside across ⊢
      exact opens_cons_eq_false.mpr ⟨inside, across, ih later⟩

/-- A hole stays one, with the quotes in its code as entities. -/
theorem hole?_quoteChars (text : List Char) :
    hole? (quoteChars text) = (hole? text).map quoteChars := by
  by_cases start : openMark <+: text
  · obtain ⟨rest, rfl⟩ := start
    cases rest with
    | nil => rfl
    | cons c cs =>
      show hole? ('<' :: '%' :: '=' :: quoteChars (c :: cs))
        = ((beforeClose? cs).map (c :: ·)).map quoteChars
      have later := beforeClose?_quoteChars cs
      by_cases quote : c = '\''
      · rw [quote, quoteChars_quote]
        simp only [hole?, beforeClose?, later]
        cases beforeClose? cs <;> rfl
      · rw [quoteChars_cons quote]
        simp only [hole?, later]
        cases beforeClose? cs with
        | none => rfl
        | some code => exact congrArg some (quoteChars_cons quote code).symm
  · have inside := mt (opening_of_quoteChars (by decide)) start
    rw [hole?_of_not_opening start, hole?_of_not_opening inside]
    rfl

/-- A character other than an angle bracket is text. -/
theorem ofText_of_ne {c : Char} (h : c ≠ '<') (cs : List Char) :
    ofText (c :: cs) = ⟨c :: (ofText cs).head, (ofText cs).holes⟩ :=
  ofText_cons (hole?_of_not_opening fun start => h (List.cons_prefix_cons.mp start).1.symm)

/-- The scan finds the same holes inside an attribute, with their quotes as entities. -/
theorem ofText_quoteChars (text : List Char) :
    ofText (quoteChars text) = (ofText text).quoted := by
  -- the cases are those of the scan: the end, a character of a text, and a hole
  induction text using scan_induction with
  | nil => rfl
  | char c cs none ih =>
    rw [ofText_cons none]
    by_cases quote : c = '\''
    · rw [quote, quoteChars_quote]
      simp (disch := decide) only [ofText_of_ne, ih]
      rfl
    · have start := hole?_quoteChars (c :: cs)
      rw [none, quoteChars_cons quote] at start
      rw [quoteChars_cons quote, ofText_cons start, ih, quoted, quoted, quoteChars_cons quote]
  | hole code rest own ih =>
    have found := hole?_quoteChars (spelledHole code ++ rest)
    rw [hole?_complete own] at found
    have inside := (hole?_sound found).2
    rw [quoteChars_spelledHole, ofText_spelledHole inside, ofText_spelledHole own, ih]
    rfl

theorem last_quoted (t : Template) : t.quoted.last = quoteChars t.last := by
  obtain ⟨head, holes⟩ := t
  induction holes generalizing head with
  | nil => rfl
  | cons hole rest ih =>
    rw [last_cons_hole, ← ih hole.2]
    exact last_cons_hole _ _ _ _

end JsxLowering.Template
