import JsxLowering.Proofs.Reading
import JsxLowering.Template.Source
import Mathlib.Algebra.Ring.Parity
import Mathlib.Data.List.DropRight

/-!
# Escaped text

An escaped text stands between single quotes on one line of source. A backslash of the text is
written twice, and any other backslash starts the escape of another character. So a quote in an
escaped text comes after an odd number of backslashes, and the quote that closes the literal after
an even number. The literal ends where the text ends, and the text is read back from it.
-/

namespace JsxLowering

namespace Text

/-! ## Escapes of characters -/

theorem escapeChar_backslash : escapeChar '\\' = ['\\', '\\'] := rfl

/-- The escape of any character but a backslash ends with another character. -/
theorem escapeChar_of_ne {c : Char} (h : c ≠ '\\') :
    ∃ start last, escapeChar c = start ++ [last] ∧ last ≠ '\\' := by
  unfold escapeChar
  rw [if_neg h]
  split_ifs
  · exact ⟨['\\'], '\'', rfl, by decide⟩
  · exact ⟨['\\'], 'r', rfl, by decide⟩
  · exact ⟨['\\'], 'n', rfl, by decide⟩
  · exact ⟨['\\', 'u', '2', '0', '2'], '8', rfl, by decide⟩
  · exact ⟨['\\', 'u', '2', '0', '2'], '9', rfl, by decide⟩
  · exact ⟨[], c, rfl, h⟩

/-- Only the escape of a quote has a quote in it. -/
theorem quote_not_mem_escapeChar {c : Char} (h : c ≠ '\'') : '\'' ∉ escapeChar c := by
  unfold escapeChar
  split_ifs
  · decide
  · decide
  · decide
  · decide
  · decide
  · exact fun quote => h (List.mem_singleton.mp quote).symm

/-- No escape has a character that ends a line. -/
theorem not_isLineEnd_escapeChar (c : Char) : (escapeChar c).all (!Source.isLineEnd ·) := by
  unfold escapeChar
  split_ifs with h₁ h₂ h₃ h₄ h₅ h₆
  · rfl
  · rfl
  · rfl
  · rfl
  · rfl
  · rfl
  · simp [Source.isLineEnd, h₃, h₄, h₅, h₆]

theorem escapeChars_append (text more : List Char) :
    escapeChars (text ++ more) = escapeChars text ++ escapeChars more := List.flatMap_append

/-- An escaped text is on one line. -/
theorem isLineEnd_of_mem_escapeChars {text : List Char} {d : Char} (h : d ∈ escapeChars text) :
    Source.isLineEnd d = false := by
  obtain ⟨c, -, hd⟩ := List.mem_flatMap.mp h
  simpa using List.all_eq_true.mp (not_isLineEnd_escapeChar c) d hd

end Text

/-! ## Line breaks -/

namespace Template

theorem unbroken_append (cs ds : List Char) : unbroken (cs ++ ds) = unbroken cs ++ unbroken ds :=
  List.filter_append ..

theorem unbroken_of_not_mem {text : List Char} (hn : '\n' ∉ text) (hr : '\r' ∉ text) :
    unbroken text = text := by
  refine List.filter_eq_self.mpr fun c hc => ?_
  have line : c ≠ '\n' := fun h => hn (h ▸ hc)
  have feed : c ≠ '\r' := fun h => hr (h ▸ hc)
  simp [line, feed]

/-- Escaped text has no line breaks to be left out. -/
theorem unbroken_escapeChars (text : List Char) :
    unbroken (Text.escapeChars text) = Text.escapeChars text := by
  apply unbroken_of_not_mem
  · intro feed
    exact absurd (Text.isLineEnd_of_mem_escapeChars feed) (by decide)
  · intro ret
    exact absurd (Text.isLineEnd_of_mem_escapeChars ret) (by decide)

end Template

namespace Text

/-! ## Backslashes -/

/-- How many backslashes stand at the end of a text. -/
def endBackslashes (cs : List Char) : Nat := (cs.rtakeWhile fun c => c = '\\').length

theorem endBackslashes_backslash (cs : List Char) :
    endBackslashes (cs ++ ['\\']) = endBackslashes cs + 1 := by
  unfold endBackslashes
  rw [List.rtakeWhile_concat_pos _ _ _ rfl, List.length_append]
  rfl

/-- Another character at the end cuts off the backslashes before it. -/
theorem endBackslashes_of_ne {c : Char} (h : c ≠ '\\') (cs : List Char) :
    endBackslashes (cs ++ [c]) = 0 := by
  unfold endBackslashes
  rw [List.rtakeWhile_concat_neg _ _ _ (by simpa using h)]
  rfl

/-- An escaped text does not end inside an escape. -/
theorem even_endBackslashes (text : List Char) : Even (endBackslashes (escapeChars text)) := by
  -- the end of the text decides, so the induction takes characters off its end
  induction text using List.reverseRecOn with
  | nil => exact Even.zero
  | append_singleton text c ih =>
    have last : escapeChars [c] = escapeChar c := List.flatMap_singleton ..
    rw [escapeChars_append, last]
    by_cases backslash : c = '\\'
    · have pair : escapeChars text ++ ['\\', '\\'] = escapeChars text ++ ['\\'] ++ ['\\'] := by
        rw [List.append_assoc]
        rfl
      rw [backslash, escapeChar_backslash, pair, endBackslashes_backslash,
        endBackslashes_backslash]
      exact ih.add_one.add_one
    · obtain ⟨start, d, escaped, other⟩ := escapeChar_of_ne backslash
      rw [escaped, ← List.append_assoc, endBackslashes_of_ne other]
      exact Even.zero

/-- A quote in an escaped text is one of the text, after the backslash that escapes it. -/
theorem exists_of_quote {text before after : List Char}
    (h : escapeChars text = before ++ '\'' :: after) :
    ∃ front back, text = front ++ '\'' :: back ∧ before = escapeChars front ++ ['\\'] := by
  induction text generalizing before with
  | nil => simp [escapeChars] at h
  | cons c cs ih =>
    rw [escapeChars, List.flatMap_cons, ← escapeChars] at h
    by_cases quote : c = '\''
    · -- the first quote of an escaped quote is the one after its backslash
      subst quote
      have backslash : '\'' ∉ ['\\'] := by decide
      obtain rfl | ⟨between, rfl, later⟩ := Source.eq_or_exists_of_not_mem backslash h
      · exact ⟨[], cs, rfl, rfl⟩
      · obtain ⟨front, back, rfl, rfl⟩ := ih later
        exact ⟨'\'' :: front, back, rfl, rfl⟩
    · obtain ⟨between, rfl, later⟩ :=
        Source.exists_eq_append_of_not_mem (quote_not_mem_escapeChar quote) h
      obtain ⟨front, back, rfl, rfl⟩ := ih later
      refine ⟨c :: front, back, rfl, ?_⟩
      rw [escapeChars, escapeChars, List.flatMap_cons, List.append_assoc]

/-- A quote in an escaped text is escaped. -/
theorem odd_endBackslashes {text before after : List Char}
    (h : escapeChars text = before ++ '\'' :: after) : Odd (endBackslashes before) := by
  obtain ⟨front, back, -, rfl⟩ := exists_of_quote h
  rw [endBackslashes_backslash]
  exact (even_endBackslashes front).add_one

/-! ## Reading escaped text back -/

/-- The literal between single quotes ends where the escaped text ends, and it has the value of the
text. -/
theorem quotedOf_escape (text : String) (rest : List Char) :
    Source.quotedOf ('\'' :: ((escape text).toList ++ '\'' :: rest)) = some (text, rest) := by
  rw [escape, String.toList_ofList, Source.quotedOf, if_pos (by decide),
    Source.quotedFrom_escapeChars]
  exact congrArg (fun value => some (value, rest)) String.ofList_toList

/-- An escaped text is on one line, each quote in it comes after an odd number of backslashes, and
it ends with an even number of them. Between single quotes it is read back, whatever comes after the
literal, so that no two texts are escaped alike; and it has no line breaks that could be left
out. -/
theorem escape_encodes (text : String) :
    (∀ c ∈ (escape text).toList, c ≠ '\r' ∧ c ≠ '\n' ∧ c ≠ '\u2028' ∧ c ≠ '\u2029')
      ∧ (∀ before after, (escape text).toList = before ++ '\'' :: after →
          Odd (endBackslashes before))
      ∧ Even (endBackslashes (escape text).toList)
      ∧ (∀ rest, Source.quotedOf ('\'' :: ((escape text).toList ++ '\'' :: rest))
          = some (text, rest))
      ∧ (∀ other, escape other = escape text → other = text)
      ∧ Template.unbroken (escape text).toList = (escape text).toList := by
  have chars : (escape text).toList = escapeChars text.toList := String.toList_ofList
  refine ⟨?_, ?_, ?_, quotedOf_escape text, ?_, ?_⟩
  · intro c hc
    rw [chars] at hc
    have line := isLineEnd_of_mem_escapeChars hc
    simp only [Source.isLineEnd, Bool.or_eq_false_iff, decide_eq_false_iff_not] at line
    obtain ⟨⟨⟨feed, ret⟩, separator⟩, paragraph⟩ := line
    exact ⟨ret, feed, separator, paragraph⟩
  · intro before after h
    exact odd_endBackslashes (chars ▸ h)
  · rw [chars]
    exact even_endBackslashes text.toList
  · intro other same
    -- the two literals are the same and have one value
    have read := quotedOf_escape other []
    rw [same, quotedOf_escape text []] at read
    exact (Prod.mk.inj (Option.some.inj read)).1.symm
  · rw [chars]
    exact Template.unbroken_escapeChars text.toList

/-- Runs of backslashes before a quote and at the end, and line breaks of all kinds. -/
example : escape "\\'\\\\'\r\n\u2028\\n\\" = "\\\\\\'\\\\\\\\\\'\\r\\n\\u2028\\\\n\\\\" := by decide

end Text

end JsxLowering
