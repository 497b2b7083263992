import JsxLowering.Text.Wrapped
import Mathlib.Data.List.SplitBy
import Mathlib.Data.List.TakeWhile

/-!
# The rule of wrapped lines

A text falls into runs: longest stretches of blanks, and what stands between them. Collapsing acts
on each run by itself. It keeps a stretch of blanks up to the first line feed and puts one space for
all the rest of it, unless that line feed is its end.

A collapsed text has no line feed with a blank after it, and texts without one are those that
collapsing keeps as they are.
-/

namespace JsxLowering.Text

/-! ## Runs -/

/-- The longest stretches of blanks of a text and those between them, in order. -/
def runs (text : List Char) : List (List Char) := text.splitBy fun c d => isBlank c == isBlank d

/-- A stretch of blanks as it is left. -/
def collapsedRun (run : List Char) : List Char :=
  let before := run.takeWhile (· ≠ '\n')
  if before.length + 1 < run.length then before ++ [' '] else run

/-- Whether no line feed has a blank after it. -/
def IsUnwrapped (text : List Char) : Prop :=
  text.IsChain fun c d => c = '\n' → isBlank d = false

/-! ## One step of collapsing -/

/-- Dropping the blanks after a line feed is collapsing what follows them. -/
theorem collapseFrom_dropping (cs : List Char) :
    collapseFrom true cs = collapseFrom false (cs.dropWhile isBlank) := by
  induction cs with
  | nil => rfl
  | cons c rest ih =>
    by_cases blank : isBlank c
    · rw [List.dropWhile_cons_of_pos blank, ← ih]
      cases rest <;> simp [collapseFrom, blank]
    · have other : c ≠ '\n' := by
        rintro rfl
        exact blank rfl
      rw [List.dropWhile_cons_of_neg blank]
      cases rest <;> simp [collapseFrom, blank]

theorem collapseFrom_cons_of_ne {c : Char} (h : c ≠ '\n') (cs : List Char) :
    collapseFrom false (c :: cs) = c :: collapseFrom false cs := by
  cases cs <;> simp [collapseFrom, h]

theorem collapseFrom_lineFeed_blank {c : Char} (h : isBlank c) (cs : List Char) :
    collapseFrom false ('\n' :: c :: cs)
      = ' ' :: collapseFrom false ((c :: cs).dropWhile isBlank) := by
  rw [← collapseFrom_dropping]
  simp [collapseFrom, h]

theorem collapseFrom_lineFeed {cs : List Char} (h : ∀ c ∈ cs.head?, isBlank c = false) :
    collapseFrom false ('\n' :: cs) = '\n' :: collapseFrom false cs := by
  cases cs with
  | nil => rfl
  | cons c rest => simp [collapseFrom, h c rfl]

/-! ## Collapsing a run -/

theorem collapseFrom_append_of_not_mem {part : List Char} (h : '\n' ∉ part) (cs : List Char) :
    collapseFrom false (part ++ cs) = part ++ collapseFrom false cs := by
  induction part with
  | nil => rfl
  | cons c rest ih =>
    rw [List.mem_cons, not_or] at h
    rw [List.cons_append, collapseFrom_cons_of_ne (Ne.symm h.1), ih h.2, List.cons_append]

/-- A stretch of blanks without a line feed is left as it is. -/
theorem collapsedRun_of_not_mem {run : List Char} (h : '\n' ∉ run) : collapsedRun run = run := by
  have whole : run.takeWhile (· ≠ '\n') = run := by
    rw [List.takeWhile_eq_self_iff]
    intro c hc
    exact decide_eq_true (ne_of_mem_of_not_mem hc h)
  unfold collapsedRun
  rw [whole]
  exact if_neg (by omega)

/-- The first line feed of a stretch is left if it is the end, and is a space with what follows it
if it is not. -/
theorem collapsedRun_append {before : List Char} (h : '\n' ∉ before) (after : List Char) :
    collapsedRun (before ++ '\n' :: after) = before ++ if after = [] then ['\n'] else [' '] := by
  have cut : (before ++ '\n' :: after).takeWhile (· ≠ '\n') = before := by
    rw [List.takeWhile_append_of_pos fun c hc => decide_eq_true (ne_of_mem_of_not_mem hc h),
      List.takeWhile_cons_of_neg (by decide), List.append_nil]
  unfold collapsedRun
  rw [cut, List.length_append, List.length_cons]
  cases after with
  | nil =>
    show (if before.length + 1 < before.length + 1 then _ else _) = _
    rw [if_neg (Nat.lt_irrefl _), if_pos rfl]
  | cons c rest =>
    rw [List.length_cons, if_neg (List.cons_ne_nil c rest)]
    exact if_pos (by omega)

/-- A stretch of blanks with no blank after it is collapsed by itself. -/
theorem collapseFrom_blanks {run : List Char} (hr : ∀ c ∈ run, isBlank c) {cs : List Char}
    (hc : ∀ c ∈ cs.head?, isBlank c = false) :
    collapseFrom false (run ++ cs) = collapsedRun run ++ collapseFrom false cs := by
  by_cases feed : '\n' ∈ run
  · obtain ⟨before, after, rfl, first⟩ := List.eq_append_cons_of_mem feed
    rw [collapsedRun_append first, List.append_assoc, List.append_assoc, List.cons_append,
      collapseFrom_append_of_not_mem first]
    cases after with
    | nil => rw [List.nil_append, collapseFrom_lineFeed hc, if_pos rfl, List.singleton_append]
    | cons c rest =>
      have blanks : ∀ d ∈ c :: rest, isBlank d := by
        intro d hd
        exact hr d (List.mem_append_right _ (List.mem_cons_of_mem _ hd))
      have stop : cs.dropWhile isBlank = cs := by
        cases cs with
        | nil => rfl
        | cons d more => exact List.dropWhile_cons_of_neg (by simp [hc d rfl])
      -- all that is left of the stretch is dropped, and dropping stops where the stretch ends
      rw [List.cons_append, collapseFrom_lineFeed_blank (blanks c List.mem_cons_self),
        ← List.cons_append, List.dropWhile_append_of_pos blanks, stop,
        if_neg (List.cons_ne_nil c rest), List.singleton_append]
  · rw [collapsedRun_of_not_mem feed, collapseFrom_append_of_not_mem feed]

/-! ## Collapsing a text -/

/-- The characters of a run are all blank, or none is. -/
theorem isBlank_of_mem_runs {text run : List Char} (h : run ∈ runs text) {c d : Char}
    (hc : c ∈ run) (hd : d ∈ run) : isBlank c = isBlank d := by
  have chain : (run.map isBlank).IsChain Eq :=
    (List.isChain_map isBlank).mpr ((List.isChain_of_mem_splitBy h).imp fun _ _ => beq_iff_eq.mp)
  have alike : (run.map isBlank).Pairwise Eq := List.isChain_iff_pairwise.mp chain
  exact alike.forall_of_forall (fun _ _ => rfl) (List.mem_map_of_mem hc) (List.mem_map_of_mem hd)

/-- After a run of blanks comes a run without blanks. -/
theorem isBlank_head_flatten {run : List Char} {more : List (List Char)}
    (h : (run :: more).IsChain fun a b =>
      ∃ ha hb, (isBlank (a.getLast ha) == isBlank (b.head hb)) = false)
    (hr : ∀ c ∈ run, isBlank c) : ∀ c ∈ more.flatten.head?, isBlank c = false := by
  intro c hc
  cases more with
  | nil => cases hc
  | cons next later =>
    obtain ⟨⟨filled, start, differ⟩, -⟩ := List.isChain_cons_cons.mp h
    have here : c = next.head start := by
      rw [List.flatten_cons, List.head?_append_of_ne_nil _ start,
        List.head?_eq_some_head start] at hc
      exact (Option.some.inj hc).symm
    rw [hr _ (List.getLast_mem filled), ← here] at differ
    simpa using differ

/-- Collapsing a text is collapsing its stretches of blanks. -/
theorem collapseFrom_eq_runs (text : List Char) :
    collapseFrom false text
      = (runs text).flatMap fun run => if run.all isBlank then collapsedRun run else run := by
  have uniform : ∀ run ∈ runs text, ∀ c ∈ run, ∀ d ∈ run, isBlank c = isBlank d :=
    fun run hr c hc d hd => isBlank_of_mem_runs hr hc hd
  have chain := List.isChain_getLast_head_splitBy (fun c d => isBlank c == isBlank d) text
  have joined : (runs text).flatten = text := List.flatten_splitBy _ text
  conv_lhs => rw [← joined]
  change (runs text).IsChain _ at chain
  generalize runs text = rows at uniform chain
  clear joined
  induction rows with
  | nil => rfl
  | cons run more ih =>
    have later := ih (fun row hr => uniform row (List.mem_cons_of_mem run hr)) chain.tail
    rw [List.flatten_cons, List.flatMap_cons, ← later]
    by_cases blank : run.all isBlank
    · rw [if_pos blank]
      rw [List.all_eq_true] at blank
      exact collapseFrom_blanks blank (isBlank_head_flatten chain blank)
    · rw [if_neg blank]
      refine collapseFrom_append_of_not_mem (fun feed => blank ?_) _
      -- a run with a line feed has a blank, so all of it is blank
      rw [List.all_eq_true]
      intro c hc
      rw [uniform run List.mem_cons_self c hc '\n' feed]
      rfl

/-! ## Collapsed text -/

theorem isUnwrapped_collapseFrom (inRun : Bool) (cs : List Char) :
    IsUnwrapped (collapseFrom inRun cs) := by
  fun_induction collapseFrom inRun cs with
  | case1 => exact .nil
  | case2 => exact .nil
  | case3 => exact .singleton _
  | case4 _ c d rest dropped ih => exact ih
  | case5 _ c d rest _ wrapped ih =>
    refine List.isChain_cons.mpr ⟨fun _ _ space => ?_, ih⟩
    cases space
  | case6 _ c d rest _ other ih =>
    refine List.isChain_cons.mpr ⟨?_, ih⟩
    rintro e he rfl
    -- the line feed is kept, so the next character is not blank and comes first in the rest
    have next : isBlank d = false := by simpa using other
    have plain : d ≠ '\n' := by
      rintro rfl
      cases next
    rw [collapseFrom_cons_of_ne plain] at he
    rw [← Option.some.inj he]
    exact next

theorem collapseFrom_of_isUnwrapped {cs : List Char} (h : IsUnwrapped cs) :
    collapseFrom false cs = cs := by
  induction cs with
  | nil => rfl
  | cons c rest ih =>
    obtain ⟨next, later⟩ := List.isChain_cons.mp h
    by_cases feed : c = '\n'
    · rw [feed, collapseFrom_lineFeed fun d hd => next d hd feed, ih later]
    · rw [collapseFrom_cons_of_ne feed, ih later]

/-- Collapsing acts on every longest stretch of blanks by itself and keeps all other characters. A
collapsed text has no line feed with a blank after it, the texts without one are kept, and
collapsing again changes nothing. -/
theorem collapseWrapped_acts_on_runs (text : String) :
    (collapseWrapped text).toList
        = (runs text.toList).flatMap (fun run => if run.all isBlank then collapsedRun run else run)
      ∧ IsUnwrapped (collapseWrapped text).toList
      ∧ (collapseWrapped text = text ↔ IsUnwrapped text.toList)
      ∧ collapseWrapped (collapseWrapped text) = collapseWrapped text := by
  -- a collapsed text is unwrapped, and collapsing keeps an unwrapped text
  have chars (text : String) : (collapseWrapped text).toList = collapseFrom false text.toList :=
    String.toList_ofList
  have unwrapped (text : String) : IsUnwrapped (collapseWrapped text).toList := by
    rw [chars]
    exact isUnwrapped_collapseFrom false _
  have kept {text : String} (h : IsUnwrapped text.toList) : collapseWrapped text = text := by
    rw [← String.toList_inj, chars]
    exact collapseFrom_of_isUnwrapped h
  refine ⟨?_, unwrapped text, ⟨fun same => ?_, kept⟩, kept (unwrapped text)⟩
  · rw [chars]
    exact collapseFrom_eq_runs text.toList
  · rw [← same]
    exact unwrapped text

/-- Blanks around two line breaks become one space after the blank before them, and a line feed that
ends its stretch stays. -/
example : collapseWrapped "a\t\r\n \u2003\nb \nc" = "a\t\r b \nc" := by decide

end JsxLowering.Text
