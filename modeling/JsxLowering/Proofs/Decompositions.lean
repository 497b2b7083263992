import JsxLowering.Proofs.Joining
import JsxLowering.Template.Source

/-!
# Decompositions of a text

A text has exactly one decomposition into texts and codes: the codes are not empty and end at the
first closing mark that can end them, no text before a hole holds an opening mark, and the last text
holds no hole. The source that is written for the text is put together from this decomposition.
-/

namespace JsxLowering.Template

/-- Whether a template is the decomposition of a text. -/
structure Decomposes (text : List Char) (t : Template) : Prop where
  /-- All characters of the text are in the template, in their order. -/
  whole : t.spelled = text
  filled : ∀ code ∈ t.codes, code ≠ []
  /-- The first closing mark after the first character of a code is the one at its end. -/
  closed : ∀ code ∈ t.codes, ∀ index, 1 ≤ index →
    closeMark <+: (code ++ closeMark).drop index → code.length ≤ index
  before : ∀ text ∈ (t.head :: t.holes.map Prod.snd).dropLast, ¬ openMark <:+: text
  last : ¬ HoldsHole t.last

/-! ## Where a code ends -/

/-- No closing mark comes before one that is written at the end if none can be read in the text and
the first character of that mark. -/
theorem closeMark_infix_iff (cs : List Char) :
    ¬ closeMark <:+: cs ++ ['%']
      ↔ ∀ index, closeMark <+: (cs ++ closeMark).drop index → cs.length ≤ index := by
  induction cs with
  | nil => exact iff_of_true (by decide) fun index _ => Nat.zero_le index
  | cons c cs ih =>
    -- the character after `c` is the same in both texts
    have same : (cs ++ closeMark).head? = (cs ++ ['%']).head? := by
      cases cs <;> rfl
    have start : closeMark <+: c :: (cs ++ closeMark) ↔ closeMark <+: c :: (cs ++ ['%']) := by
      rw [closeMark_prefix_cons, closeMark_prefix_cons, same]
    rw [List.cons_append, List.cons_append, List.infix_cons_iff, not_or, ih, ← start]
    constructor
    · rintro ⟨first, later⟩ index mark
      cases index with
      | zero => exact absurd mark first
      | succ index => exact Nat.succ_le_succ (later index mark)
    · intro bound
      refine ⟨fun mark => absurd (bound 0 mark) (Nat.not_succ_le_zero _), fun index mark => ?_⟩
      exact Nat.le_of_succ_le_succ (bound (index + 1) mark)

/-- A code is what stands before the first closing mark that comes after at least one character. -/
theorem isCode_iff {code : List Char} :
    IsCode code ↔ code ≠ [] ∧ ∀ index, 1 ≤ index →
      closeMark <+: (code ++ closeMark).drop index → code.length ≤ index := by
  cases code with
  | nil => exact iff_of_false (fun ⟨_, _, empty, _⟩ => nomatch empty) fun h => h.1 rfl
  | cons c cs =>
    have own : IsCode (c :: cs) ↔ ¬ closeMark <:+: cs ++ ['%'] :=
      ⟨fun ⟨_, _, same, first⟩ => (List.cons.inj same).2 ▸ first, fun first => ⟨c, cs, rfl, first⟩⟩
    rw [own, closeMark_infix_iff]
    constructor
    · refine fun bound => ⟨List.cons_ne_nil c cs, fun index positive mark => ?_⟩
      obtain ⟨index, rfl⟩ := Nat.exists_eq_add_of_le' positive
      exact Nat.succ_le_succ (bound index mark)
    · rintro ⟨-, bound⟩ index mark
      exact Nat.le_of_succ_le_succ (bound (index + 1) (Nat.le_add_left 1 index) mark)

/-! ## Texts between holes -/

/-- The recursion over holes says of each text before a hole what it says of the first. -/
theorem isSettled_iff {t : Template} :
    t.IsSettled ↔ (∀ text ∈ (t.head :: t.holes.map Prod.snd).dropLast, ¬ openMark <:+: text)
      ∧ ¬ HoldsHole t.last := by
  obtain ⟨head, holes⟩ := t
  show SettledFrom head holes ↔ _
  induction holes generalizing head with
  | nil => simp [SettledFrom, last]
  | cons hole rest ih =>
    obtain ⟨code, next⟩ := hole
    rw [SettledFrom, ih next, last_cons_hole, List.map_cons, List.dropLast_cons_cons,
      List.forall_mem_cons, and_assoc]

/-- A decomposition is a canonical template that is spelled as the text. -/
theorem decomposes_iff {text : List Char} {t : Template} :
    Decomposes text t ↔ t.spelled = text ∧ t.IsCanonical := by
  constructor
  · rintro ⟨whole, filled, closed, before, last⟩
    have codes (code : List Char) (hc : code ∈ t.codes) : IsCode code :=
      isCode_iff.mpr ⟨filled code hc, closed code hc⟩
    exact ⟨whole, codes, isSettled_iff.mpr ⟨before, last⟩⟩
  · rintro ⟨whole, codes, settled⟩
    obtain ⟨before, last⟩ := isSettled_iff.mp settled
    exact ⟨whole, fun code hc => (isCode_iff.mp (codes code hc)).1,
      fun code hc => (isCode_iff.mp (codes code hc)).2, before, last⟩

/-- The scan of a text gives its decomposition, and there is no other. -/
theorem decomposes_iff_eq_ofText {text : List Char} {t : Template} :
    Decomposes text t ↔ t = ofText text := by
  rw [decomposes_iff, ← ofText_eq_iff, eq_comm]

/-! ## The source -/

/-- The source of a hole and the text after it. -/
def holeText (hole : List Char × List Char) : String :=
  "'+\n((__t=(" ++ String.ofList hole.1 ++ "))==null?'':__t)+\n'"
    ++ Text.escape (String.ofList hole.2)

theorem toList_escape (cs : List Char) :
    (Text.escape (String.ofList cs)).toList = Text.escapeChars cs := by
  rw [Text.escape, String.toList_ofList, String.toList_ofList]

/-- The text of a hole has the characters that its source is written with. -/
theorem toList_holeText (hole : List Char × List Char) :
    (holeText hole).toList = holeSource hole.1 hole.2 := by
  have code : (String.ofList hole.1).toList = hole.1 := String.toList_ofList
  rw [holeText, String.toList_append, String.toList_append, String.toList_append, toList_escape,
    code]
  rfl

theorem toList_join_holeText (holes : List (List Char × List Char)) :
    (String.join (holes.map holeText)).toList
      = holes.flatMap fun (code, text) => holeSource code text := by
  induction holes with
  | nil => rfl
  | cons hole rest ih =>
    rw [List.map_cons, String.join_cons, String.toList_append, toList_holeText, ih]
    rfl

/-- The text of a function is its sources between the opening and the closing. -/
theorem toList_function (opening parameter body closing : String) (t : Template) :
    (opening ++ parameter ++ body ++ Text.escape (String.ofList t.head)
        ++ String.join (t.holes.map holeText) ++ closing).toList
      = opening.toList ++ parameter.toList ++ body.toList ++ t.joinSource ++ closing.toList := by
  simp only [String.toList_append, toList_escape, toList_join_holeText, joinSource,
    List.append_assoc]

/-- A text has exactly one decomposition, and the source of its function is put together from the
texts of this decomposition, escaped, and its codes as they are. -/
theorem source_of_decomposition (text parameter : String) :
    ∃ t : Template, (∀ u, Decomposes text.toList u ↔ u = t)
      ∧ source text parameter
        = "function(" ++ parameter ++ ")\x7b\nvar __t,__p='';\n__p+='"
          ++ Text.escape (String.ofList t.head)
          ++ String.join (t.holes.map fun hole =>
              "'+\n((__t=(" ++ String.ofList hole.1 ++ "))==null?'':__t)+\n'"
                ++ Text.escape (String.ofList hole.2))
          ++ "';\nreturn __p;\n\x7d" := by
  refine ⟨ofText text.toList, fun u => decomposes_iff_eq_ofText, ?_⟩
  have written : (source text parameter).toList
      = functionSource [] parameter.toList (ofText text.toList) := String.toList_ofList
  rw [← String.toList_inj, written]
  exact (toList_function "function(" parameter _ _ _).symm

/-- An empty hole takes up the next closing mark, an opening mark that is not closed is text, and
one in a code belongs to it. -/
example : ofText "a<%=%>b%>c<%=d<%=\ne%>f%><%=g".toList
    = ⟨['a'], [("%>b".toList, ['c']), ("d<%=\ne".toList, "f%><%=g".toList)]⟩ := by decide

end JsxLowering.Template
