import JsxLowering.Text.Position
import Mathlib.Data.List.DropRight

/-!
# The rule of positions

The position of a byte offset that lies between two characters is read off the text before it: the
line feeds give the line, and the characters after the last of them give the column. One character
further, the position is one column on, or at the start of the next line. So positions grow with
their offsets, and no two offsets have the same one.
-/

namespace JsxLowering.Text

namespace Position

/-- The position one character on. -/
def step (here : Position) (c : Char) : Position :=
  if c = '\n' then ⟨here.line + 1, 1⟩ else ⟨here.line, here.column + 1⟩

/-- Whether a position is on an earlier line than another, or before it on the same line. -/
def IsBefore (here there : Position) : Prop :=
  here.line < there.line ∨ here.line = there.line ∧ here.column < there.column

/-- The position after a text: one more than its line feeds, and one more than the characters after
the last of them. -/
def after (before : List Char) : Position :=
  ⟨1 + before.count '\n', 1 + (before.rtakeWhile (· ≠ '\n')).length⟩

/-! ## Steps -/

/-- A step over a character goes to a later position, on the same line or on the next. -/
theorem isBefore_step (here : Position) (c : Char) : here.IsBefore (here.step c) := by
  unfold IsBefore step
  by_cases feed : c = '\n'
  · rw [if_pos feed]
    exact .inl (Nat.lt_succ_self _)
  · rw [if_neg feed]
    exact .inr ⟨rfl, Nat.lt_succ_self _⟩

theorem IsBefore.trans {a b c : Position} (h : a.IsBefore b) (h' : b.IsBefore c) :
    a.IsBefore c := by
  unfold IsBefore at *
  omega

theorem not_isBefore_self (here : Position) : ¬ here.IsBefore here := by
  unfold IsBefore
  omega

/-- So do steps over more characters. -/
theorem isBefore_foldl_step {more : List Char} (h : more ≠ []) (here : Position) :
    here.IsBefore (more.foldl step here) := by
  induction more generalizing here with
  | nil => exact absurd rfl h
  | cons c rest ih =>
    have first := isBefore_step here c
    rw [List.foldl_cons]
    by_cases last : rest = []
    · rw [last]
      exact first
    · exact first.trans (ih last (here.step c))

/-- The position after a text counts its line feeds and what comes after the last one. -/
theorem foldl_step_eq_after (before : List Char) : before.foldl step ⟨1, 1⟩ = after before := by
  -- the column is counted back from the end, so the induction takes characters off the end
  induction before using List.reverseRecOn with
  | nil => rfl
  | append_singleton rest c ih =>
    rw [List.foldl_append, ih, List.foldl_cons, List.foldl_nil]
    unfold step after
    rw [List.count_append, List.rtakeWhile_concat]
    by_cases feed : c = '\n'
    · rw [if_pos feed, feed]
      rfl
    · have none : [c].count '\n' = 0 := List.count_eq_zero.mpr (by simpa using Ne.symm feed)
      rw [if_neg feed, none, if_pos (decide_eq_true feed), List.length_append,
        List.length_singleton]
      rfl

end Position

/-! ## Walking over a text -/

/-- An offset after a character goes on with the bytes that are left. -/
theorem advance_cons {c : Char} {offset : Nat} (h : c.utf8Size ≤ offset) (here : Position)
    (cs : List Char) :
    advance here offset (c :: cs) = advance (here.step c) (offset - c.utf8Size) cs := by
  have filled : 0 < c.utf8Size := c.utf8Size_pos
  rw [advance, if_neg (by omega), if_neg (by omega)]
  exact (apply_ite (fun there => advance there (offset - c.utf8Size) cs) _ _ _).symm

/-- Walking over the bytes of some characters steps over each of them. -/
theorem advance_append (here : Position) (before more : List Char) :
    advance here (byteSize before) (before ++ more) = before.foldl Position.step here := by
  induction before generalizing here with
  | nil => cases more <;> rfl
  | cons c rest ih =>
    have left : byteSize (c :: rest) - c.utf8Size = byteSize rest :=
      Nat.add_sub_cancel_left c.utf8Size (byteSize rest)
    have whole : c.utf8Size ≤ byteSize (c :: rest) := Nat.le_add_right c.utf8Size (byteSize rest)
    rw [List.cons_append, advance_cons whole, left, ih, List.foldl_cons]

/-- Walking past the end steps over all characters. -/
theorem advance_of_le (here : Position) {offset : Nat} {cs : List Char}
    (h : byteSize cs ≤ offset) : advance here offset cs = cs.foldl Position.step here := by
  induction cs generalizing here offset with
  | nil => rfl
  | cons c rest ih =>
    unfold byteSize at h
    rw [advance_cons (by omega), ih _ (by omega), List.foldl_cons]

/-! ## Positions in a source -/

theorem byteSize_toList (text : String) : byteSize text.toList = text.utf8ByteSize := by
  have chars (cs : List Char) : byteSize cs = (String.ofList cs).utf8ByteSize := by
    induction cs with
    | nil => rfl
    | cons c rest ih => rw [byteSize, ih, String.ofList_cons, String.utf8ByteSize_append,
        String.utf8ByteSize_singleton]
  rw [chars, String.ofList_toList]

/-- The position of the offset at which a source is split. -/
theorem locate_of_splits {source before more : String} {p : source.Pos} (h : p.Splits before more) :
    locate source p.offset.byteIdx = .after before.toList := by
  rw [h.offset_eq_rawEndPos]
  show locate source before.utf8ByteSize = _
  rw [locate, ← byteSize_toList, h.eq_append, String.toList_append, advance_append,
    Position.foldl_step_eq_after]

/-- Of two offsets between characters, the position of the smaller one comes first. -/
theorem locate_isBefore {source : String} {p q : source.Pos} (h : p < q) :
    (locate source p.offset.byteIdx).IsBefore (locate source q.offset.byteIdx) := by
  -- the text before the later offset goes on after the text before the earlier one
  obtain ⟨more, some, cut, -⟩ := (p.splits.lt_iff_exists_eq_append q.splits).mp h
  have filled : more.toList ≠ [] := fun none => some (String.toList_eq_nil_iff.mp none)
  rw [locate_of_splits p.splits, locate_of_splits q.splits, cut, String.toList_append,
    ← Position.foldl_step_eq_after, ← Position.foldl_step_eq_after, List.foldl_append]
  exact Position.isBefore_foldl_step filled _

/-- Offsets between characters are ordered as positions are. -/
theorem locate_isBefore_iff {source : String} {p q : source.Pos} :
    (locate source p.offset.byteIdx).IsBefore (locate source q.offset.byteIdx) ↔ p < q := by
  refine ⟨fun h => ?_, locate_isBefore⟩
  by_contra other
  by_cases same : p = q
  · rw [same] at h
    exact Position.not_isBefore_self _ h
  · have later : q < p := Std.lt_of_le_of_ne (Std.not_lt.mp other) (Ne.symm same)
    exact Position.not_isBefore_self _ (h.trans (locate_isBefore later))

/-- No two offsets between characters have one position. -/
theorem locate_inj {source : String} {p q : source.Pos}
    (h : locate source p.offset.byteIdx = locate source q.offset.byteIdx) : p = q := by
  have apart (a b : source.Pos)
      (same : locate source a.offset.byteIdx = locate source b.offset.byteIdx) : ¬ a < b := by
    intro before
    rw [← locate_isBefore_iff, same] at before
    exact Position.not_isBefore_self _ before
  exact Std.le_antisymm (Std.not_lt.mp (apart q p h.symm)) (Std.not_lt.mp (apart p q h))

/-- The position of an offset between two characters counts the line feeds before it, and the
characters since the last of them. An offset past the end counts as the end. Positions are in the
order of their offsets, and differ where the offsets do. One character further is one column on, or
column one of the next line. -/
theorem locate_counts (source : String) :
    (∀ p : source.Pos,
        locate source p.offset.byteIdx = .after (source.sliceTo p).copy.toList)
      ∧ (∀ past, locate source (source.utf8ByteSize + past) = locate source source.utf8ByteSize)
      ∧ (∀ p q : source.Pos,
          (locate source p.offset.byteIdx).IsBefore (locate source q.offset.byteIdx) ↔ p < q)
      ∧ (∀ p q : source.Pos,
          locate source p.offset.byteIdx = locate source q.offset.byteIdx ↔ p = q)
      ∧ (∀ (p : source.Pos) (h : p ≠ source.endPos),
          locate source (p.next h).offset.byteIdx
            = (locate source p.offset.byteIdx).step (p.get h)) := by
  refine ⟨fun p => locate_of_splits p.splits, fun past => ?_, fun p q => locate_isBefore_iff,
    fun p q => ⟨locate_inj, fun same => by rw [same]⟩, fun p h => ?_⟩
  · have size := byteSize_toList source
    unfold locate
    rw [advance_of_le _ (by omega), advance_of_le _ (by omega)]
  · rw [locate_of_splits (p.splits_next h), locate_of_splits p.splits, String.toList_append,
      String.toList_singleton, ← Position.foldl_step_eq_after, ← Position.foldl_step_eq_after,
      List.foldl_append]
    rfl

/-- Characters of two and of four bytes, on both sides of a line feed. -/
def mixedWidths : String := "é\n𝄞b"

/-- Characters of several bytes count as one column, and offsets after the end stay there. -/
theorem locate_mixedWidths :
    ∃ (p : mixedWidths.Pos) (h : p ≠ mixedWidths.endPos),
      p.offset.byteIdx = 2 ∧ (p.next h).offset.byteIdx = 3
      ∧ locate mixedWidths p.offset.byteIdx = ⟨1, 2⟩
      ∧ locate mixedWidths (p.next h).offset.byteIdx = ⟨2, 1⟩
      ∧ (locate mixedWidths p.offset.byteIdx).IsBefore
          (locate mixedWidths (p.next h).offset.byteIdx)
      ∧ locate mixedWidths 99 = locate mixedWidths 8 := by
  obtain ⟨counted, past, ordered, -, next⟩ := locate_counts mixedWidths
  refine ⟨mixedWidths.startPos.next (by decide), by decide, by decide, by decide,
    (counted _).trans (by decide), ?_, (ordered _ _).mpr (by decide), past 91⟩
  rw [next, counted]
  decide

end JsxLowering.Text
