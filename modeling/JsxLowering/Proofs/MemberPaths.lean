import JsxLowering.Source.Target
import JsxLowering.Source.Word
import JsxLowering.Tree.Path

/-!
# Member paths

A static member path is a dotted name that an access expression spells. For legal names the dotted
text, the segments and the expression determine each other.
-/

namespace JsxLowering

/-- A name may go on with any character that it may start with. -/
theorem Text.isNamePart_of_isNameStart {c : Char} (h : Text.isNameStart c) : Text.isNamePart c := by
  unfold Text.isNameStart at h
  unfold Text.isNamePart
  -- below 128 the rules name the characters, and from there on they are tables
  split at h
  · next hlt =>
    rw [if_pos hlt]
    simp only [Bool.or_eq_true, Char.isAlphanum] at h ⊢
    exact h.imp_left (Or.imp_left Or.inl)
  · next hlt =>
    rw [if_neg hlt]
    simp [h]

/-- All characters of a name, the first one included, are parts of names. -/
theorem Text.isNamePart_of_mem {name : List Char} (hn : Text.isNameChars name) {c : Char}
    (hc : c ∈ name) : Text.isNamePart c := by
  cases name with
  | nil => cases hc
  | cons d more =>
    simp only [Text.isNameChars, Bool.and_eq_true, List.all_eq_true] at hn
    rcases List.mem_cons.mp hc with rfl | hm
    · exact Text.isNamePart_of_isNameStart hn.1
    · exact hn.2 c hm

/-- Whether a path may start so: `this`, or a name that stands for a value. -/
def MemberRoot.isLegal : MemberRoot → Bool
  | .this => true
  | .name word => Text.isIdentifierName word && !Source.isReserved word

/-- The characters of the root of a legal path spell a name. -/
theorem MemberRoot.isNameChars_text {root : MemberRoot} (h : root.isLegal) :
    Text.isNameChars root.text.toList := by
  cases root with
  | this => rfl
  | name word =>
    rw [MemberRoot.isLegal, Bool.and_eq_true] at h
    exact h.1

/-- A legal root that is a name refers to the variable of that name: `this` is reserved. -/
theorem MemberRoot.reference_name {word : String} (h : (MemberRoot.name word).isLegal) :
    (MemberRoot.name word).reference = .identifier word := by
  simp only [MemberRoot.isLegal, Bool.and_eq_true, Bool.not_eq_true'] at h
  have other : word ≠ "this" := by
    rintro rfl
    exact absurd h.2 (by decide)
  rw [MemberRoot.reference, Tree.ofName, if_neg other, if_pos h.1]

/-- What the text of a root spells. -/
def MemberRoot.operand : MemberRoot → Tree
  | .this => .this
  | .name word => .identifier word

/-- A legal root refers to what its text spells. -/
theorem MemberRoot.reference_eq_operand {root : MemberRoot} (h : root.isLegal) :
    root.reference = root.operand := by
  cases root with
  | this => rfl
  | name word => exact MemberRoot.reference_name h

/-- A root refers to a name, a keyword or a string, and so to a leaf. -/
theorem MemberRoot.exists_leaf (root : MemberRoot) : ∃ content, root.reference = .leaf content := by
  cases root with
  | this => exact ⟨_, rfl⟩
  | name word =>
    rw [MemberRoot.reference, Tree.ofName]
    split
    · exact ⟨_, rfl⟩
    · split <;> exact ⟨_, rfl⟩

/-- A property that is an identifier name is read with a dot. -/
theorem Tree.access_of_isIdentifierName {property : String} (h : Text.isIdentifierName property)
    (tree : Tree) : tree.access property = .node (.member property false) [tree] := by
  rw [Tree.access, if_pos h]

namespace MemberName

/-- Whether a dotted name is made of identifier names, and starts with one that stands for a
value. -/
def isLegal : MemberName → Bool
  | .base root property => root.isLegal && Text.isIdentifierName property
  | .step object property => object.isLegal && Text.isIdentifierName property

/-- The dotted text. -/
def dotted : MemberName → String
  | .base root property => root.text ++ "." ++ property
  | .step object property => object.dotted ++ "." ++ property

/-- The text after the root. -/
def accesses : MemberName → List Char
  | .base _ property => '.' :: property.toList
  | .step object property => object.accesses ++ '.' :: property.toList

/-- The number of accesses. -/
def depth : MemberName → Nat
  | .base _ _ => 1
  | .step object _ => object.depth + 1

/-- A dotted text is its root and what comes after it. -/
theorem toList_dotted (p : MemberName) : p.dotted.toList = p.root.text.toList ++ p.accesses := by
  induction p with
  | base root property => simp [dotted, MemberName.root, accesses]
  | step object property ih => simp [dotted, MemberName.root, accesses, ih]

/-- Each access takes up at least its dot, so the length of a text bounds its accesses. -/
theorem depth_le_length (p : MemberName) : p.depth ≤ p.accesses.length := by
  induction p with
  | base root property => simp [depth, accesses]
  | step object property ih =>
    simp only [depth, accesses, List.length_append, List.length_cons]
    omega

theorem isLegal_root {p : MemberName} (h : p.isLegal) : p.root.isLegal := by
  induction p with
  | base root property =>
    rw [isLegal, Bool.and_eq_true] at h
    exact h.1
  | step object property ih =>
    rw [isLegal, Bool.and_eq_true] at h
    exact ih h.1

/-- The first segment of a path is the text of its root. -/
theorem head?_path (name : MemberName) : name.path.head? = some name.root.text := by
  induction name with
  | base root property => rfl
  | step object property ih => rw [MemberName.path, List.head?_append, ih]; rfl

theorem exists_accesses (p : MemberName) : ∃ more, p.accesses = '.' :: more := by
  induction p with
  | base root property => exact ⟨_, rfl⟩
  | step object property ih =>
    obtain ⟨more, h⟩ := ih
    exact ⟨more ++ '.' :: property.toList, by rw [MemberName.accesses, h, List.cons_append]⟩

/-- A legal name refers to an access and never to its root alone. -/
theorem exists_member {p : MemberName} (h : p.isLegal) :
    ∃ object property, p.reference = .node (.member property false) [object] := by
  cases p with
  | base root property =>
    rw [isLegal, Bool.and_eq_true] at h
    exact ⟨_, _, Tree.access_of_isIdentifierName h.2 _⟩
  | step object property =>
    rw [isLegal, Bool.and_eq_true] at h
    exact ⟨_, _, Tree.access_of_isIdentifierName h.2 _⟩

/-- A legal path has only parts of names and dots in it. -/
theorem mem_dotted {p : MemberName} (h : p.isLegal) {c : Char} (hc : c ∈ p.dotted.toList) :
    Text.isNamePart c ∨ c = '.' := by
  induction p with
  | base root property =>
    rw [isLegal, Bool.and_eq_true] at h
    simp only [dotted, String.toList_append, List.mem_append] at hc
    rcases hc with (hr | hd) | hp
    · exact .inl (Text.isNamePart_of_mem (MemberRoot.isNameChars_text h.1) hr)
    · exact .inr (List.mem_singleton.mp hd)
    · exact .inl (Text.isNamePart_of_mem h.2 hp)
  | step object property ih =>
    rw [isLegal, Bool.and_eq_true] at h
    simp only [dotted, String.toList_append, List.mem_append] at hc
    rcases hc with (hr | hd) | hp
    · exact ih h.1 hr
    · exact .inr (List.mem_singleton.mp hd)
    · exact .inl (Text.isNamePart_of_mem h.2 hp)

/-- Nothing but parts of names and dots stands in the text of a legal path. -/
theorem not_mem_dotted {p : MemberName} (h : p.isLegal) {c : Char}
    (hc : Text.isNamePart c = false) (hd : c ≠ '.') : c ∉ p.dotted.toList := by
  intro hm
  rcases mem_dotted h hm with hp | rfl
  · rw [hc] at hp
    cases hp
  · exact hd rfl

/-- The chain of accesses that the dotted text spells. -/
def chain : MemberName → Tree
  | .base root property => .node (.member property false) [root.operand]
  | .step object property => .node (.member property false) [object.chain]

/-- The expression that a tag name refers to is the one that its dotted text spells. -/
theorem reference_eq_chain {p : MemberName} (h : p.isLegal) : p.reference = p.chain := by
  induction p with
  | base root property =>
    rw [isLegal, Bool.and_eq_true] at h
    rw [reference, Tree.access_of_isIdentifierName h.2, MemberRoot.reference_eq_operand h.1, chain]
  | step object property ih =>
    rw [isLegal, Bool.and_eq_true] at h
    rw [reference, Tree.access_of_isIdentifierName h.2, ih h.1, chain]

/-- Nothing in a member path waits for a later mark, and it holds no markup. -/
theorem isComplete_reference {p : MemberName} (h : p.isLegal) :
    p.reference.isComplete ∧ p.reference.isPlain := by
  induction p with
  | base root property =>
    rw [isLegal, Bool.and_eq_true] at h
    obtain ⟨content, hc⟩ := root.exists_leaf
    rw [reference, Tree.access_of_isIdentifierName h.2, hc]
    exact ⟨rfl, rfl⟩
  | step object property ih =>
    rw [isLegal, Bool.and_eq_true] at h
    rw [reference, Tree.access_of_isIdentifierName h.2]
    obtain ⟨complete, plain⟩ := ih h.1
    constructor
    · show (true && (object.reference.isComplete && true)) = true
      rw [complete]
      rfl
    · show (object.reference.isPlain && true) = true
      rw [plain]
      rfl

end MemberName

/-- The dotted name that a chain of plain accesses spells. -/
def Tree.memberName? : Tree → Option MemberName
  | .node (.member name _) [object] =>
    match object with
    | .identifier root => some (.base (.name root) name)
    | .this => some (.base .this name)
    | .node _ _ => object.memberName?.map (.step · name)
    | _ => none
  | _ => none

/-- A static path is the dotted text of the name that an expression spells. -/
theorem Tree.staticPath?_eq (tree : Tree) :
    tree.staticPath? = tree.memberName?.map MemberName.dotted := by
  -- both recursions go down the objects of accesses and stop at the same roots
  fun_induction Tree.staticPath? tree with
  | case1 name optional root => rfl
  | case2 name optional => rfl
  | case3 name optional form children ih =>
    rw [Tree.memberName?, ih, Option.map_map, Option.map_map]
    rfl
  | case4 name optional object =>
    cases object <;> simp_all [Tree.memberName?]
  | case5 tree =>
    cases tree <;> simp_all [Tree.memberName?]

end JsxLowering
