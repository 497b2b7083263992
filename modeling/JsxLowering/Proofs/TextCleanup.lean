import JsxLowering.Proofs.MarkupItems
import Mathlib.Data.List.DropRight

/-!
# The rule of text cleanup

`Divides` says which lines a text has, and `remaining` what is left of them: blank lines go, tabs
become spaces, and a line is trimmed where it meets another one. Text with content is cleaned to
the remaining lines, joined by single spaces, and clean text stays as it is.

Text with no content has no such line. If it has line breaks, nothing is left of it; on a single
line it gets a space more than it had, which is the one way in which cleanup makes a text longer.
-/

namespace JsxLowering.Text

/-! ## Lines -/

/-- Whether no character ends a line. -/
def IsOneLine (text : List Char) : Prop := '\r' ∉ text ∧ '\n' ∉ text

/-- A text is divided into lines by CRLF, LF and CR. A CR before an LF does not end a line by
itself. -/
inductive Divides : List Char → List (List Char) → Prop
  | last {line : List Char} (h : IsOneLine line) : Divides line [line]
  | crlf {line rest : List Char} {rows : List (List Char)} (h : IsOneLine line)
      (hr : Divides rest rows) : Divides (line ++ '\r' :: '\n' :: rest) (line :: rows)
  | lf {line rest : List Char} {rows : List (List Char)} (h : IsOneLine line)
      (hr : Divides rest rows) : Divides (line ++ '\n' :: rest) (line :: rows)
  | cr {line rest : List Char} {rows : List (List Char)} (h : IsOneLine line)
      (hn : rest.head? ≠ some '\n') (hr : Divides rest rows) :
    Divides (line ++ '\r' :: rest) (line :: rows)

theorem isOneLine_nil : IsOneLine [] := ⟨List.not_mem_nil, List.not_mem_nil⟩

theorem isOneLine_cons {c : Char} {cs : List Char} :
    IsOneLine (c :: cs) ↔ (c ≠ '\r' ∧ c ≠ '\n') ∧ IsOneLine cs := by
  simp only [IsOneLine, List.mem_cons, not_or, ne_eq, eq_comm (a := c)]
  exact and_and_and_comm

/-- A character before the first line of a text. -/
theorem Divides.cons {c : Char} {text line : List Char} {rows : List (List Char)}
    (h : Divides text (line :: rows)) (hc : c ≠ '\r' ∧ c ≠ '\n') :
    Divides (c :: text) ((c :: line) :: rows) := by
  have longer (own : IsOneLine line) : IsOneLine (c :: line) := isOneLine_cons.mpr ⟨hc, own⟩
  cases h with
  | last own => exact .last (longer own)
  | crlf own later => exact .crlf (longer own) later
  | lf own later => exact .lf (longer own) later
  | cr own next later => exact .cr (longer own) next later

/-- A text is divided into its lines. -/
theorem divides_lines (text : List Char) : Divides text (lines text) := by
  -- a CR is tried after a CRLF, so it is not followed by an LF
  fun_induction lines text with
  | case1 => exact .last isOneLine_nil
  | case2 rest ih => exact .crlf isOneLine_nil ih
  | case3 c rest alone ends ih =>
    simp only [Bool.or_eq_true, decide_eq_true_eq] at ends
    rcases ends with rfl | rfl
    · exact .lf isOneLine_nil ih
    · refine .cr isOneLine_nil (fun next => ?_) ih
      obtain ⟨more, cut⟩ := List.head?_eq_some_iff.mp next
      exact alone more rfl cut
  | case4 c rest _ _ none ih =>
    rw [none] at ih
    cases ih
  | case5 c rest _ other line more found ih =>
    simp only [Bool.or_eq_true, decide_eq_true_eq, not_or] at other
    rw [found] at ih
    exact ih.cons ⟨other.2, other.1⟩

/-- Characters that end no line belong to the first one. -/
theorem lines_append {line : List Char} (h : IsOneLine line) {rest first : List Char}
    {more : List (List Char)} (hr : lines rest = first :: more) :
    lines (line ++ rest) = (line ++ first) :: more := by
  induction line with
  | nil => exact hr
  | cons c cs ih =>
    obtain ⟨other, later⟩ := isOneLine_cons.mp h
    rw [List.cons_append, lines, ih later]
    · simp [other]
    · intro _ heq
      exact absurd heq other.1

/-- The lines that a text is divided into are its lines. -/
theorem divides_iff {text : List Char} {rows : List (List Char)} :
    Divides text rows ↔ rows = lines text := by
  constructor
  · intro h
    -- each way to end a line is one equation of `lines`, behind the characters of the line
    induction h with
    | @last line own =>
      have whole : lines (line ++ []) = [line ++ []] := lines_append own rfl
      rw [List.append_nil] at whole
      exact whole.symm
    | @crlf line rest rows own _ ih =>
      have cut : lines ('\r' :: '\n' :: rest) = [] :: rows := by rw [lines, ih]
      rw [lines_append own cut, List.append_nil]
    | @lf line rest rows own _ ih =>
      have cut : lines ('\n' :: rest) = [] :: rows := by
        rw [lines, ih]
        · rfl
        · intro _ heq
          cases heq
      rw [lines_append own cut, List.append_nil]
    | @cr line rest rows own next _ ih =>
      have cut : lines ('\r' :: rest) = [] :: rows := by
        rw [lines, ih]
        · rfl
        · rintro more - rfl
          exact next rfl
      rw [lines_append own cut, List.append_nil]
  · rintro rfl
    exact divides_lines text

/-- No line holds a line break. -/
theorem Divides.isOneLine {text line : List Char} {rows : List (List Char)}
    (h : Divides text rows) (hm : line ∈ rows) : IsOneLine line := by
  induction h with
  | last own => rwa [List.mem_singleton.mp hm]
  | crlf own _ ih => exact (List.mem_cons.mp hm).elim (· ▸ own) ih
  | lf own _ ih => exact (List.mem_cons.mp hm).elim (· ▸ own) ih
  | cr own _ _ ih => exact (List.mem_cons.mp hm).elim (· ▸ own) ih

/-- No character is lost but those that end lines. -/
theorem Divides.exists_mem {text : List Char} {rows : List (List Char)} (h : Divides text rows)
    {c : Char} (hm : c ∈ text) (hc : c ≠ '\r' ∧ c ≠ '\n') : ∃ line ∈ rows, c ∈ line := by
  induction h with
  | last => exact ⟨_, List.mem_singleton.mpr rfl, hm⟩
  | crlf _ _ ih => grind
  | lf _ _ ih => grind
  | cr _ _ _ ih => grind

/-- A text has all the characters of its lines, and at least one more between two of them. -/
theorem Divides.length_le {text : List Char} {rows : List (List Char)} (h : Divides text rows) :
    rows.flatten.length + rows.length ≤ text.length + 1 := by
  induction h with
  | last => simp
  | crlf _ _ ih =>
    simp only [List.flatten_cons, List.length_cons, List.length_append]
    omega
  | lf _ _ ih =>
    simp only [List.flatten_cons, List.length_cons, List.length_append]
    omega
  | cr _ _ _ ih =>
    simp only [List.flatten_cons, List.length_cons, List.length_append]
    omega

/-! ## What remains of a line -/

/-- A line with its tabs as spaces and, unless it is the first one, without leading spaces. Places
are counted from zero. -/
def unindented (place : Nat) (line : List Char) : List Char :=
  if place = 0 then untab line else (untab line).dropWhile (· = ' ')

/-- A line as it remains, if it is not blank: also without trailing spaces, unless it is the last of
`count` lines. -/
def remainder (count place : Nat) (line : List Char) : List Char :=
  if place + 1 = count then unindented place line else (unindented place line).rdropWhile (· = ' ')

/-- What remains of lines, the first of which has a place among `count` lines. Lines without content
are dropped. -/
def remainingFrom (count place : Nat) (rows : List (List Char)) : List (List Char) :=
  ((rows.zipIdx place).filter fun row => hasContent row.1).map fun row =>
    remainder count row.2 row.1

/-- What remains of the lines of a text. -/
def remaining (rows : List (List Char)) : List (List Char) := remainingFrom rows.length 0 rows

theorem hasContent_iff {line : List Char} :
    hasContent line ↔ ∃ c ∈ line, c ≠ ' ' ∧ c ≠ '\t' := by
  simp [hasContent]

/-- A line that is trimmed at its place is what remains of it there. -/
theorem trimLine_eq_remainder {count place : Nat} {last : Bool} (hl : last ↔ place + 1 = count)
    (line : List Char) : trimLine (place = 0) last line = remainder count place line := by
  unfold trimLine remainder unindented
  simp only [hl, decide_eq_true_eq]
  rfl

/-- Trimming drops nothing but spaces. -/
theorem mem_trimLine_of_ne {line : List Char} {c : Char} (hm : c ∈ line)
    (hc : c ≠ ' ' ∧ c ≠ '\t') (first last : Bool) : c ∈ trimLine first last line := by
  have kept : c ∈ untab line := List.mem_map.mpr ⟨c, hm, if_neg hc.2⟩
  have left {row : List Char} (h : c ∈ row) : c ∈ trimLeft row := by
    rw [← List.takeWhile_append_dropWhile (p := (· = ' ')) (l := row), List.mem_append] at h
    refine h.resolve_left fun space => hc.1 ?_
    simpa using List.mem_takeWhile_imp space
  have right {row : List Char} (h : c ∈ row) : c ∈ trimRight row :=
    List.mem_reverse.mpr (left (List.mem_reverse.mpr h))
  cases first <;> cases last
  · exact right (left kept)
  · exact left kept
  · exact right kept
  · exact kept

/-- What is no blank remains. -/
theorem mem_remainder {line : List Char} {c : Char} (hm : c ∈ line) (hc : c ≠ ' ' ∧ c ≠ '\t')
    (count place : Nat) : c ∈ remainder count place line := by
  have last : decide (place + 1 = count) ↔ place + 1 = count := decide_eq_true_iff
  rw [← trimLine_eq_remainder last]
  exact mem_trimLine_of_ne hm hc _ _

/-- A blank line is made of spaces once its tabs are spaces. -/
theorem untab_of_blank {line : List Char} (h : hasContent line = false) :
    ∀ c ∈ untab line, c = ' ' := by
  intro c hc
  by_contra other
  obtain ⟨tab, hm⟩ := mem_untab hc
  have content := hasContent_iff.mpr ⟨c, hm.resolve_right other, other, tab⟩
  rw [h] at content
  cases content

/-- Nothing remains of a blank line next to another line. -/
theorem trimLine_of_blank {line : List Char} (h : hasContent line = false) {first last : Bool}
    (hm : ¬ (first ∧ last)) : trimLine first last line = [] := by
  have spaces := untab_of_blank h
  have left : trimLeft (untab line) = [] :=
    List.dropWhile_eq_nil_iff.mpr fun c hc => decide_eq_true (spaces c hc)
  have right : trimRight (untab line) = [] :=
    List.rdropWhile_eq_nil_iff.mpr fun c hc => decide_eq_true (spaces c hc)
  cases first with
  | false =>
    show (if last then trimLeft (untab line) else trimRight (trimLeft (untab line))) = []
    rw [left]
    exact ite_self _
  | true =>
    cases last with
    | false => exact right
    | true => exact absurd ⟨rfl, rfl⟩ hm

/-! ## Joined lines -/

/-- Blank lines after the first are joined to nothing. -/
theorem joinLines_of_blank {rows : List (List Char)} (h : rows.any hasContent = false) :
    joinLines false rows = [] := by
  induction rows with
  | nil => rfl
  | cons line rest ih =>
    rw [List.any_cons, Bool.or_eq_false_iff] at h
    rw [joinLines, trimLine_of_blank h.1 (by simp), ih h.2]
    rfl

theorem remainingFrom_of_blank {rows : List (List Char)} (h : rows.any hasContent = false)
    (count place : Nat) : remainingFrom count place rows = [] := by
  rw [remainingFrom, List.map_eq_nil_iff, List.filter_eq_nil_iff]
  intro row hr content
  obtain ⟨-, -, hm⟩ := List.mem_zipIdx hr
  have none := List.any_eq_false.mp h row.1 (by rw [hm]; exact List.getElem_mem _)
  exact none content

theorem remainingFrom_cons (count place : Nat) (line : List Char) (rest : List (List Char)) :
    remainingFrom count place (line :: rest)
      = (if hasContent line then [remainder count place line] else [])
          ++ remainingFrom count (place + 1) rest := by
  unfold remainingFrom
  rw [List.zipIdx_cons, List.filter_cons]
  by_cases h : hasContent line
  · rw [if_pos h, if_pos h]
    rfl
  · rw [if_neg h, if_neg h]
    rfl

/-- Something remains of lines with content. -/
theorem remainingFrom_ne_nil {rows : List (List Char)} (h : rows.any hasContent) (count : Nat)
    (place : Nat) : remainingFrom count place rows ≠ [] := by
  induction rows generalizing place with
  | nil => cases h
  | cons line rest ih =>
    rw [remainingFrom_cons]
    by_cases content : hasContent line
    · rw [if_pos content]
      exact List.cons_ne_nil _ _
    · rw [List.any_cons, Bool.or_eq_true] at h
      rw [if_neg content]
      exact ih (h.resolve_left content) (place + 1)

/-- Joining keeps every character that is no blank. -/
theorem mem_joinLines_of_ne {rows : List (List Char)} {line : List Char} {c : Char}
    (hl : line ∈ rows) (hm : c ∈ line) (hc : c ≠ ' ' ∧ c ≠ '\t') (first : Bool) :
    c ∈ joinLines first rows := by
  induction rows generalizing first with
  | nil => cases hl
  | cons row rest ih =>
    rw [joinLines, List.mem_append]
    rcases List.mem_cons.mp hl with rfl | later
    · have kept := mem_trimLine_of_ne hm hc first rest.isEmpty
      left
      split
      · exact kept
      · exact List.mem_append_left _ kept
    · exact .inr (ih later false)

/-- Lines of which one has content are joined as they remain, with one space between two. -/
theorem joinLines_eq {rows : List (List Char)} (h : rows.any hasContent) (place : Nat) :
    joinLines (place = 0) rows
      = [' '].intercalate (remainingFrom (place + rows.length) place rows) := by
  -- the loop knows only whether a line is the first and the last; its place says both
  induction rows generalizing place with
  | nil => cases h
  | cons line rest ih =>
    have last : rest.isEmpty ↔ place + 1 = place + (line :: rest).length := by
      rw [List.isEmpty_iff_length_eq_zero, List.length_cons]
      omega
    have later (more : rest.any hasContent) := ih more (place + 1)
    rw [decide_eq_false (Nat.succ_ne_zero place), Nat.add_right_comm, Nat.add_assoc,
      ← List.length_cons (a := line)] at later
    rw [joinLines, trimLine_eq_remainder last, remainingFrom_cons]
    by_cases content : hasContent line
    · obtain ⟨c, hm, hc⟩ := hasContent_iff.mp content
      have filled : remainder (place + (line :: rest).length) place line ≠ [] :=
        List.ne_nil_of_mem (mem_remainder hm hc _ _)
      rw [if_pos content, List.singleton_append]
      by_cases more : rest.any hasContent
      · rw [List.intercalate_cons_of_ne_nil (remainingFrom_ne_nil more _ _), later more,
          List.isEmpty_eq_false_iff.mpr filled, content, more]
        rfl
      · rw [Bool.not_eq_true] at more
        rw [remainingFrom_of_blank more, joinLines_of_blank more, List.intercalate_singleton]
        simp [content, more]
    · -- a line with content comes after this one, so it is trimmed to nothing
      rw [List.any_cons, Bool.or_eq_true] at h
      have more := h.resolve_left content
      have next : rest.isEmpty = false := by
        rw [Bool.eq_false_iff]
        intro empty
        rw [List.isEmpty_iff.mp empty] at more
        cases more
      rw [Bool.not_eq_true] at content
      have nothing : trimLine (place = 0) rest.isEmpty line = [] :=
        trimLine_of_blank content (by simp [next])
      rw [trimLine_eq_remainder last] at nothing
      rw [nothing, later more, content]
      rfl

/-! ## Text with content -/

/-- Text with content is cleaned to the lines that remain. -/
theorem cleanChars_eq {raw : List Char} (h : (lines raw).any hasContent) :
    cleanChars raw = [' '].intercalate (remaining (lines raw)) := by
  have joined := joinLines_eq h 0
  rw [Nat.zero_add] at joined
  exact joined

theorem clean_of_ne_nil {raw : String} (h : cleanChars raw.toList ≠ []) :
    clean raw = some (String.ofList (cleanChars raw.toList)) := by
  unfold clean
  split
  · next empty => exact absurd empty h
  · rfl

theorem lines_of_isOneLine {text : List Char} (h : IsOneLine text) : lines text = [text] :=
  (divides_iff.mp (.last h)).symm

/-- A single line is kept with its tabs as spaces. If it is blank, a space is added. -/
theorem cleanChars_of_isOneLine {text : List Char} (h : IsOneLine text) (hn : text ≠ []) :
    cleanChars text = untab text ++ if hasContent text then [] else [' '] := by
  have filled : (untab text).isEmpty = false := by
    rw [List.isEmpty_eq_false_iff, untab, ne_eq, List.map_eq_nil_iff]
    exact hn
  have kept : trimLine true true text = untab text := rfl
  rw [cleanChars, lines_of_isOneLine h, joinLines, List.isEmpty_nil, kept, filled, joinLines,
    List.append_nil]
  cases hasContent text with
  | true => exact (List.append_nil _).symm
  | false => rfl

/-- Cleaned text has no tab and is on one line. -/
theorem cleanChars_unbroken (raw : List Char) :
    '\t' ∉ cleanChars raw ∧ IsOneLine (cleanChars raw) := by
  -- what is no space comes from a line, and tabs are gone from it
  have kept {c : Char} (hc : c ∈ cleanChars raw) (hs : c ≠ ' ') :
      c ≠ '\t' ∧ c ≠ '\r' ∧ c ≠ '\n' := by
    obtain ⟨line, hl, hm⟩ := (mem_joinLines hc).resolve_right hs
    obtain ⟨tab, own⟩ := mem_untab hm
    obtain ⟨cr, lf⟩ := (divides_lines raw).isOneLine hl
    have inside := own.resolve_right hs
    exact ⟨tab, fun heq => cr (heq ▸ inside), fun heq => lf (heq ▸ inside)⟩
  refine ⟨fun hc => ?_, fun hc => ?_, fun hc => ?_⟩
  · exact (kept hc (by decide)).1 rfl
  · exact (kept hc (by decide)).2.1 rfl
  · exact (kept hc (by decide)).2.2 rfl

theorem untab_of_not_mem {line : List Char} (h : '\t' ∉ line) : untab line = line := by
  have same : line.map (fun c => if c = '\t' then ' ' else c) = line.map id :=
    List.map_congr_left fun c hc => if_neg (by rintro rfl; exact h hc)
  rw [untab, same, List.map_id]

/-- Cleaned text with content is kept as it is. -/
theorem cleanChars_cleanChars {raw : List Char} (h : hasContent (cleanChars raw)) :
    cleanChars (cleanChars raw) = cleanChars raw := by
  obtain ⟨tabs, oneLine⟩ := cleanChars_unbroken raw
  obtain ⟨c, hm, -⟩ := hasContent_iff.mp h
  rw [cleanChars_of_isOneLine oneLine (List.ne_nil_of_mem hm), if_pos h, List.append_nil,
    untab_of_not_mem tabs]

/-! ## The first and the last line -/

/-- Joined lines start with the first one. -/
theorem prefix_intercalate (line : List Char) (rest : List (List Char)) :
    line <+: [' '].intercalate (line :: rest) := by
  cases rest with
  | nil => exact ⟨[], by rw [List.append_nil, List.intercalate_singleton]⟩
  | cons next more =>
    rw [List.intercalate_cons_cons, List.append_assoc]
    exact List.prefix_append line _

/-- Joined lines end with the last one. -/
theorem suffix_intercalate (before : List (List Char)) (line : List Char) :
    line <:+ [' '].intercalate (before ++ [line]) := by
  induction before with
  | nil => exact ⟨[], by rw [List.nil_append, List.nil_append, List.intercalate_singleton]⟩
  | cons first rest ih =>
    rw [List.cons_append, List.intercalate_cons_of_ne_nil (by simp)]
    exact ih.trans (List.suffix_append _ _)

/-- Leading spaces of a first line with content are kept. -/
theorem indent_prefix {line : List Char} (h : hasContent line) (rest : List (List Char)) :
    (untab line).takeWhile (· = ' ') <+: [' '].intercalate (remaining (line :: rest)) := by
  obtain ⟨c, hm, hc⟩ := hasContent_iff.mp h
  have kept := mem_remainder hm hc (line :: rest).length 0
  have own : remainder (line :: rest).length 0 line <+: untab line := by
    unfold remainder
    split
    · exact List.prefix_refl _
    · exact List.rdropWhile_prefix _ _
  have spaces : (untab line).takeWhile (· = ' ') <+: remainder (line :: rest).length 0 line := by
    -- else the remainder would be all spaces, but the line has content and keeps it
    refine (List.prefix_or_prefix_of_prefix (List.takeWhile_prefix _) own).resolve_right ?_
    intro shorter
    have found := List.mem_takeWhile_imp (shorter.subset kept)
    exact hc.1 (by simpa using found)
  rw [remaining, remainingFrom_cons, if_pos h]
  exact spaces.trans (prefix_intercalate _ _)

theorem remainingFrom_append (count place : Nat) (rows more : List (List Char)) :
    remainingFrom count place (rows ++ more)
      = remainingFrom count place rows ++ remainingFrom count (place + rows.length) more := by
  simp only [remainingFrom, List.zipIdx_append, List.filter_append, List.map_append]

/-- Trailing spaces of a last line with content are kept. -/
theorem trail_suffix {line : List Char} (h : hasContent line) (before : List (List Char)) :
    (untab line).rtakeWhile (· = ' ') <:+ [' '].intercalate (remaining (before ++ [line])) := by
  have count : (before ++ [line]).length = 0 + before.length + 1 := by simp
  obtain ⟨c, hm, hc⟩ := hasContent_iff.mp h
  have kept := mem_remainder hm hc (0 + before.length + 1) (0 + before.length)
  have own : remainder (0 + before.length + 1) (0 + before.length) line <:+ untab line := by
    rw [remainder, if_pos rfl, unindented]
    split
    · exact List.suffix_refl _
    · exact List.dropWhile_suffix _
  have spaces : (untab line).rtakeWhile (· = ' ')
      <:+ remainder (0 + before.length + 1) (0 + before.length) line := by
    refine (List.suffix_or_suffix_of_suffix (List.rtakeWhile_suffix _ _) own).resolve_right ?_
    intro shorter
    have found := List.mem_rtakeWhile_imp (shorter.subset kept)
    exact hc.1 (by simpa using found)
  rw [remaining, count, remainingFrom_append, remainingFrom_cons, if_pos h]
  exact spaces.trans (suffix_intercalate _ _)

/-- Text with a character other than a space, a tab and a line break is cleaned to what remains of
the lines it is divided into, with one space between two of them. Leading spaces of a first line and
trailing spaces of a last line with content are kept. The result has no tab and no line break, and
it is clean. -/
theorem clean_of_content {raw : String}
    (h : ∃ c ∈ raw.toList, c ∉ [' ', '\t', '\r', '\n']) :
    ∃ rows cleaned, (∀ other, Divides raw.toList other ↔ other = rows)
      ∧ clean raw = some cleaned
      ∧ cleaned.toList = [' '].intercalate (remaining rows)
      ∧ (∀ first rest, rows = first :: rest → hasContent first →
          (untab first).takeWhile (· = ' ') <+: cleaned.toList)
      ∧ (∀ before last, rows = before ++ [last] → hasContent last →
          (untab last).rtakeWhile (· = ' ') <:+ cleaned.toList)
      ∧ (∀ c ∈ cleaned.toList, c ∉ ['\t', '\r', '\n'])
      ∧ clean cleaned = some cleaned := by
  obtain ⟨c, hm, hc⟩ := h
  simp only [List.mem_cons, List.not_mem_nil, or_false, not_or] at hc
  obtain ⟨space, tab, breaks⟩ := hc
  -- the character stands in a line, and keeps that line and the whole text from being blank
  obtain ⟨line, hl, own⟩ := (divides_lines raw.toList).exists_mem hm breaks
  have rows : (lines raw.toList).any hasContent :=
    List.any_eq_true.mpr ⟨line, hl, hasContent_iff.mpr ⟨c, own, space, tab⟩⟩
  have kept : c ∈ cleanChars raw.toList := mem_joinLines_of_ne hl own ⟨space, tab⟩ true
  have content : hasContent (cleanChars raw.toList) :=
    hasContent_iff.mpr ⟨c, kept, space, tab⟩
  have rule := cleanChars_eq rows
  have same := cleanChars_cleanChars content
  obtain ⟨tabs, oneLine⟩ := cleanChars_unbroken raw.toList
  refine ⟨lines raw.toList, String.ofList (cleanChars raw.toList), fun other => divides_iff,
    clean_of_ne_nil (List.ne_nil_of_mem kept), ?_, ?_, ?_, ?_, ?_⟩
  · rw [String.toList_ofList, rule]
  · intro first rest cut filled
    rw [String.toList_ofList, rule, cut]
    exact indent_prefix filled rest
  · intro before last cut filled
    rw [String.toList_ofList, rule, cut]
    exact trail_suffix filled before
  · intro d hd
    rw [String.toList_ofList] at hd
    simp only [List.mem_cons, List.not_mem_nil, or_false, not_or]
    refine ⟨?_, ?_, ?_⟩ <;> rintro rfl
    · exact tabs hd
    · exact oneLine.1 hd
    · exact oneLine.2 hd
  · have again : cleanChars (String.ofList (cleanChars raw.toList)).toList
        = cleanChars raw.toList := by
      rw [String.toList_ofList]
      exact same
    rw [clean_of_ne_nil (by rw [again]; exact List.ne_nil_of_mem kept), again]

/-- A blank first line, a line with inner and outer spaces, an empty line that a CRLF ends, a blank
line that a CR ends, and a last line with a tab after its content. -/
def wrappedText : String := " \t\n  a \t b \r\n\r\n \rc\t"

/-- Two lines remain, the spaces inside the first are kept, and the tab at the end becomes a
space. -/
theorem clean_wrappedText :
    (∃ c ∈ wrappedText.toList, c ∉ [' ', '\t', '\r', '\n'])
      ∧ Divides wrappedText.toList
          [" \t".toList, "  a \t b ".toList, [], " ".toList, "c\t".toList]
      ∧ clean wrappedText = some "a   b c "
      ∧ clean "a   b c " = some "a   b c " := by
  have content : ∃ c ∈ wrappedText.toList, c ∉ [' ', '\t', '\r', '\n'] :=
    ⟨'a', by decide, by decide⟩
  obtain ⟨rows, cleaned, divided, found, rule, -, -, -, again⟩ := clean_of_content content
  have split : lines wrappedText.toList
      = [" \t".toList, "  a \t b ".toList, [], " ".toList, "c\t".toList] := by decide
  have lined : Divides wrappedText.toList
      [" \t".toList, "  a \t b ".toList, [], " ".toList, "c\t".toList] :=
    divides_iff.mpr split.symm
  rw [← (divided _).mp lined] at rule
  have text : cleaned = "a   b c " := by
    rw [← String.toList_inj, rule]
    decide
  rw [text] at found again
  exact ⟨content, lined, found, again⟩

/-! ## The length of cleaned text -/

/-- Trimming makes no line longer. -/
theorem length_trimLine_le (first last : Bool) (line : List Char) :
    (trimLine first last line).length ≤ line.length := by
  have spaced : (untab line).length = line.length := List.length_map _
  have left (row : List Char) : (trimLeft row).length ≤ row.length :=
    (List.dropWhile_suffix _).length_le
  have right (row : List Char) : (trimRight row).length ≤ row.length :=
    (List.rdropWhile_prefix _ row).length_le
  rw [← spaced]
  cases first <;> cases last
  · exact (right _).trans (left _)
  · exact left _
  · exact right _
  · exact Nat.le_refl _

/-- Joined lines are no longer than the lines with a character between two of them, unless there is
no other line before or after the first. -/
theorem length_joinLines_lt {rows : List (List Char)} {first : Bool} (hr : rows ≠ [])
    (h : first → 1 < rows.length) :
    (joinLines first rows).length < rows.flatten.length + rows.length := by
  induction rows generalizing first with
  | nil => exact absurd rfl hr
  | cons line rest ih =>
    have kept := length_trimLine_le first rest.isEmpty line
    have piece (alone : Bool) : (if alone then trimLine first rest.isEmpty line
        else trimLine first rest.isEmpty line ++ [' ']).length ≤ line.length + 1 := by
      split
      · omega
      · rw [List.length_append, List.length_singleton]
        omega
    rw [joinLines, List.length_append, List.flatten_cons, List.length_append, List.length_cons]
    -- the last line is joined without a space after it, and it is not the only one
    cases rest with
    | nil =>
      have later : ¬ first := fun start => Nat.lt_irrefl 1 (h start)
      by_cases content : hasContent line
      · rw [content, List.any_nil, Bool.not_false, Bool.and_self, Bool.or_true, if_pos rfl,
          joinLines, List.length_nil, List.flatten_nil, List.length_nil]
        omega
      · -- a blank line that is not the first is trimmed to nothing
        rw [Bool.not_eq_true] at content
        rw [trimLine_of_blank content (by simp [later]), List.isEmpty_nil, Bool.true_or, if_pos rfl,
          joinLines, List.length_nil, List.flatten_nil, List.length_nil]
        omega
    | cons next more =>
      have later : (joinLines false (next :: more)).length
          < (next :: more).flatten.length + (next :: more).length :=
        ih (List.cons_ne_nil next more) fun start => absurd start Bool.false_ne_true
      have own := piece ((trimLine first (next :: more).isEmpty line).isEmpty
        || (hasContent line && !(next :: more).any hasContent))
      omega

theorem Divides.ne_nil {text : List Char} {rows : List (List Char)} (h : Divides text rows) :
    rows ≠ [] := by
  cases h <;> exact List.cons_ne_nil _ _

/-- A text with line breaks has at least two lines. -/
theorem Divides.one_lt_length {text : List Char} {rows : List (List Char)} (h : Divides text rows)
    (hn : ¬ IsOneLine text) : 1 < rows.length := by
  have more {rest : List Char} {later : List (List Char)} (hr : Divides rest later)
      (line : List Char) : 1 < (line :: later).length :=
    Nat.succ_lt_succ (List.length_pos_iff.mpr hr.ne_nil)
  cases h with
  | last own => exact absurd own hn
  | crlf _ later => exact more later _
  | lf _ later => exact more later _
  | cr _ _ later => exact more later _

/-- Blank text is on one line. -/
theorem isOneLine_of_blank {text : List Char} (h : hasContent text = false) : IsOneLine text := by
  have free {c : Char} (hc : c ≠ ' ' ∧ c ≠ '\t') : c ∉ text := by
    intro hm
    rw [hasContent_iff.mpr ⟨c, hm, hc⟩] at h
    cases h
  exact ⟨free (by decide), free (by decide)⟩

/-- Cleanup makes no text longer, unless the text is blank. -/
theorem length_cleanChars_le {raw : List Char} (h : raw = [] ∨ hasContent raw) :
    (cleanChars raw).length ≤ raw.length := by
  rcases h with rfl | content
  · exact Nat.le_refl _
  · by_cases oneLine : IsOneLine raw
    · obtain ⟨c, hm, -⟩ := hasContent_iff.mp content
      rw [cleanChars_of_isOneLine oneLine (List.ne_nil_of_mem hm), if_pos content, List.append_nil,
        untab, List.length_map]
    · have divided := divides_lines raw
      have bound := divided.length_le
      have joined : (cleanChars raw).length
          < (lines raw).flatten.length + (lines raw).length :=
        length_joinLines_lt divided.ne_nil fun _ => divided.one_lt_length oneLine
      omega

/-- Text that is cleaned to nothing is left out, which shows as the empty text. -/
theorem getD_clean (raw : String) :
    (clean raw).getD "" = String.ofList (cleanChars raw.toList) := by
  by_cases h : cleanChars raw.toList = []
  · rw [clean, h]
    rfl
  · rw [clean_of_ne_nil h, Option.getD_some]

/-- Text on a single line is kept with its tabs as spaces if it has content, and gets a space more
if it is blank. No other text gets longer. -/
theorem clean_of_isOneLine (raw : String) :
    (raw ≠ "" → IsOneLine raw.toList →
        clean raw = some (String.ofList (untab raw.toList)
          ++ if hasContent raw.toList then "" else " "))
      ∧ (raw.length < ((clean raw).getD "").length
          ↔ raw ≠ "" ∧ hasContent raw.toList = false) := by
  have filled (h : raw ≠ "") : raw.toList ≠ [] := fun empty =>
    h (String.toList_eq_nil_iff.mp empty)
  have kept (hn : raw ≠ "") (h : IsOneLine raw.toList) :
      cleanChars raw.toList = untab raw.toList ++ if hasContent raw.toList then [] else [' '] :=
    cleanChars_of_isOneLine h (filled hn)
  refine ⟨fun hn h => ?_, ?_, ?_⟩
  · have text := kept hn h
    have some : cleanChars raw.toList ≠ [] := by
      rw [text, untab]
      simp [filled hn]
    rw [clean_of_ne_nil some, text, String.ofList_append]
    split <;> rfl
  · intro longer
    -- an empty text and one with content do not get longer, so the text is blank
    rw [getD_clean, String.length_ofList, ← String.length_toList] at longer
    have other : ¬ (raw.toList = [] ∨ hasContent raw.toList) := fun h =>
      Nat.not_lt.mpr (length_cleanChars_le h) longer
    rw [not_or, Bool.not_eq_true] at other
    refine ⟨?_, other.2⟩
    rintro rfl
    exact other.1 rfl
  · rintro ⟨hn, blank⟩
    rw [getD_clean, kept hn (isOneLine_of_blank blank), blank, String.length_ofList,
      ← String.length_toList, List.length_append, untab, List.length_map]
    exact Nat.lt_succ_self _

/-- Tabs become spaces, the blank line gets one more, and the text with a line break gets no
longer. -/
theorem clean_tabbedLines :
    (" a\tb " ≠ "" ∧ IsOneLine " a\tb ".toList) ∧ clean " a\tb " = some " a b "
      ∧ (" \t" ≠ "" ∧ IsOneLine " \t".toList) ∧ clean " \t" = some "   "
      ∧ ¬ " \n\t".length < ((clean " \n\t").getD "").length := by
  have line : IsOneLine " a\tb ".toList := ⟨by decide, by decide⟩
  have gap : IsOneLine " \t".toList := ⟨by decide, by decide⟩
  refine ⟨⟨by decide, line⟩, (clean_of_isOneLine " a\tb ").1 (by decide) line, ⟨by decide, gap⟩,
    (clean_of_isOneLine " \t").1 (by decide) gap, fun longer => ?_⟩
  exact absurd ((clean_of_isOneLine " \n\t").2.mp longer).2 (by decide)

/-- The space between two elements on a line becomes two, and so does a tab. -/
theorem clean_blankGap :
    clean " " = some "  " ∧ clean "\t" = some "  "
      ∧ " ".length < ((clean " ").getD "").length := by
  decide

end JsxLowering.Text
