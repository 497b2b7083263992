import JsxLowering.Proofs.Scanning
import JsxLowering.Proofs.TemplateReading

/-!
# Pieces of a template

A template text as a list of characters and member paths. If no hole can be opened by characters
alone, the text is split at exactly the paths.
-/

namespace JsxLowering

/-- A character of a template text, or a hole with a member path. -/
inductive Piece
  | char (c : Char)
  | path (p : MemberName)
deriving DecidableEq, Repr

namespace Piece

/-- How a piece is written. -/
def spelled : Piece → List Char
  | .char c => [c]
  | .path p => "<%=".toList ++ (Template.pathCode p ++ "%>".toList)

/-- Whether the pieces start with a character that does not make an angle bracket before it the
start of a hole. -/
def closesBracket : List Piece → Bool
  | .char c :: _ => c ≠ '%'
  | _ => false

/-- Whether no angle bracket among the characters can be the start of a hole. -/
def areSettled : List Piece → Bool
  | [] => true
  | .path _ :: rest => areSettled rest
  | .char c :: rest => (c ≠ '<' || closesBracket rest) && areSettled rest

/-- The paths of the holes. -/
def paths (pieces : List Piece) : List MemberName :=
  pieces.filterMap fun
    | .char _ => none
    | .path p => some p

/-- The text before the first hole, and the holes with the texts after them. -/
def split : List Piece → List Char × List (MemberName × List Char)
  | [] => ([], [])
  | .char c :: rest => (c :: (split rest).1, (split rest).2)
  | .path p :: rest => ([], (p, (split rest).1) :: (split rest).2)

/-- A bracket at the end of settled pieces would not be settled, so none waits for what follows. -/
theorem areSettled_append {pieces more : List Piece} (h : areSettled pieces)
    (hm : areSettled more) : areSettled (pieces ++ more) := by
  induction pieces with
  | nil => exact hm
  | cons piece pieces ih =>
    cases piece with
    | path p => exact ih h
    | char c =>
      rw [areSettled, Bool.and_eq_true] at h
      rw [List.cons_append, areSettled, Bool.and_eq_true]
      refine ⟨?_, ih h.2⟩
      cases pieces with
      | nil =>
        -- a last bracket would be settled by what comes after, so it is not allowed
        simp only [closesBracket, Bool.or_false, decide_eq_true_eq] at h
        simp [h.1]
      | cons next rest => cases next <;> exact h.1

/-- The holes that pieces are split at are their paths. -/
theorem fst_mem_split {pieces : List Piece} {hole : MemberName × List Char}
    (h : hole ∈ (split pieces).2) : hole.1 ∈ paths pieces := by
  induction pieces with
  | nil => cases h
  | cons piece pieces ih =>
    cases piece with
    | char c => exact ih h
    | path p =>
      rcases List.mem_cons.mp h with rfl | hm
      · exact List.mem_cons_self
      · exact List.mem_cons_of_mem _ (ih hm)

end Piece

namespace Template

/-- The code of a path ends at its own closing mark. -/
theorem isCode_pathCode {p : MemberName} (hp : p.isLegal) : IsCode (pathCode p) :=
  isCode_padded (MemberName.not_mem_dotted hp rfl (by decide))

/-- A settled character starts no hole. -/
theorem hole?_of_settled {c : Char} {pieces : List Piece}
    (h : c ≠ '<' || Piece.closesBracket pieces) :
    hole? (c :: pieces.flatMap Piece.spelled) = none := by
  simp only [Bool.or_eq_true, decide_eq_true_eq] at h
  -- it is no bracket, or the character after the bracket is no percent sign
  rcases h with other | closed
  · unfold hole?
    split
    · next heq => exact absurd (List.cons.inj heq).1 other
    · rfl
  · cases pieces with
    | nil => cases closed
    | cons piece rest =>
      cases piece with
      | path p => cases closed
      | char d =>
        simp only [Piece.closesBracket, decide_eq_true_eq] at closed
        unfold hole?
        split
        · next heq => exact absurd (List.cons.inj (List.cons.inj heq).2).1 closed
        · rfl

/-- A text of settled pieces is split at its paths. -/
theorem ofText_spelled {pieces : List Piece} (hs : Piece.areSettled pieces)
    (hl : ∀ p ∈ Piece.paths pieces, p.isLegal) :
    ofText (pieces.flatMap Piece.spelled)
      = ofPaths (Piece.split pieces).1 (Piece.split pieces).2 := by
  -- the induction is on the pieces: the scan goes over a path at once, and over one character
  induction pieces with
  | nil => rfl
  | cons piece pieces ih =>
    cases piece with
    | path p =>
      have rest := ih hs fun q hq => hl q (List.mem_cons_of_mem _ hq)
      have own := isCode_pathCode (hl p List.mem_cons_self)
      have found := ofText_spelledHole own (pieces.flatMap Piece.spelled)
      rw [rest] at found
      exact found
    | char c =>
      rw [Piece.areSettled, Bool.and_eq_true] at hs
      have rest := ih hs.2 hl
      have found := ofText_cons (hole?_of_settled hs.1)
      rw [rest] at found
      exact found

/-- A text of settled pieces compiles to the function that joins them. -/
theorem compile_spelled {fragment : String} {pieces : List Piece}
    (hf : fragment.toList = pieces.flatMap Piece.spelled) (hs : Piece.areSettled pieces)
    (hl : ∀ p ∈ Piece.paths pieces, p.isLegal) :
    compile fragment
      = .ok (functionTree .absent (Piece.split pieces).1
          ((Piece.split pieces).2.map pathSlot)) :=
  compile_ofPaths (fun hole h => hl hole.1 (Piece.fst_mem_split h))
    (by rw [hf, ofText_spelled hs hl])

end Template

end JsxLowering
