import JsxLowering.Markup.Resolution
import JsxLowering.Proofs.MemberPaths

/-!
# The readings of a dotted tag

A dotted tag is read in three ways: as the list of its segments, as the text in which dots join
them, and as an access expression. `Tree.Denotes` says which path an access expression stands for,
whether its segments are names or strings. All three readings of a tag stand for the same path, for
any segments, and the expression is a static member path where all segments are identifier names.
-/

namespace JsxLowering

/-- An access expression and the path that it stands for. A segment is written as a name where it is
an identifier name, and as a string where it is not. -/
inductive Tree.Denotes : Tree → List String → Prop
  | this : Denotes .this ["this"]
  | name {word : String} (hn : Text.isIdentifierName word) (ht : word ≠ "this") :
    Denotes (.identifier word) [word]
  | text {word : String} (hn : ¬ Text.isIdentifierName word) : Denotes (.string word) [word]
  | member {object : Tree} {path : List String} {property : String} (ho : Denotes object path)
      (hp : Text.isIdentifierName property) :
    Denotes (.node (.member property false) [object]) (path ++ [property])
  | index {object : Tree} {path : List String} {property : String} (ho : Denotes object path)
      (hp : ¬ Text.isIdentifierName property) :
    Denotes (.node (.index false) [object, .string property]) (path ++ [property])

namespace Tree

theorem Denotes.ne_nil {tree : Tree} {path : List String} (h : tree.Denotes path) : path ≠ [] := by
  cases h <;> simp

/-- An expression stands for one path at most. -/
theorem Denotes.unique {tree : Tree} {path other : List String} (h : tree.Denotes path)
    (h' : tree.Denotes other) : path = other := by
  induction h generalizing other with
  | this => cases h'; rfl
  | name => cases h'; rfl
  | text => cases h'; rfl
  | member _ _ ih =>
    cases h' with
    | member inner _ => rw [ih inner]
  | index _ _ ih =>
    cases h' with
    | index inner _ => rw [ih inner]

/-- An access adds its property to the path of its object, whether it is a name or not. -/
theorem denotes_access {object : Tree} {path : List String} (h : object.Denotes path)
    (property : String) : (object.access property).Denotes (path ++ [property]) := by
  unfold Tree.access
  by_cases name : Text.isIdentifierName property
  · rw [if_pos name]
    exact .member h name
  · rw [if_neg name]
    exact .index h name

/-- One more segment comes after one more dot. -/
theorem joined_append {path : List String} (h : path ≠ []) (property : String) :
    ".".intercalate (path ++ [property]) = ".".intercalate path ++ "." ++ property := by
  rw [String.intercalate_append_of_ne_nil h (List.cons_ne_nil property []),
    String.intercalate_singleton]

/-- The dotted text of a plain access, where the path of the object is made of identifier names. -/
theorem Denotes.staticPath?_member {object : Tree} {path : List String} (h : object.Denotes path)
    (property : String) :
    (Tree.node (.member property false) [object]).staticPath?
      = if path.all Text.isIdentifierName then some (".".intercalate path ++ "." ++ property)
        else none := by
  -- a name or a string in the middle decides for the whole path, so the induction is on the object
  induction h generalizing property with
  | this => rfl
  | name hn _ =>
    rw [if_pos (by simpa using hn), String.intercalate_singleton]
    rfl
  | text hn =>
    rw [if_neg (by simpa using hn)]
    rfl
  | @member object path inner ho hp ih =>
    have below := ih inner
    rw [← joined_append ho.ne_nil] at below
    show ((Tree.node (.member inner false) [object]).staticPath?).map (· ++ "." ++ property) = _
    rw [below, List.all_append, List.all_cons, hp, List.all_nil, Bool.and_self, Bool.and_true]
    split <;> rfl
  | @index object path inner ho hp =>
    rw [List.all_append, List.all_cons, eq_false_of_ne_true hp, Bool.false_and, Bool.and_false]
    rfl

/-- An expression with an access is a static member path if and only if its path is made of
identifier names. -/
theorem Denotes.staticPath?_eq {tree : Tree} {path : List String} (h : tree.Denotes path)
    (hl : 1 < path.length) :
    tree.staticPath?
      = if path.all Text.isIdentifierName then some (".".intercalate path) else none := by
  cases h with
  | this => exact absurd hl (Nat.lt_irrefl 1)
  | name => exact absurd hl (Nat.lt_irrefl 1)
  | text => exact absurd hl (Nat.lt_irrefl 1)
  | @member object path property ho hp =>
    rw [ho.staticPath?_member, ← joined_append ho.ne_nil, List.all_append, List.all_cons, hp,
      List.all_nil, Bool.and_self, Bool.and_true]
  | @index object path property ho hp =>
    rw [List.all_append, List.all_cons, eq_false_of_ne_true hp, Bool.false_and, Bool.and_false]
    rfl

end Tree

/-- A root stands for itself: `this`, an identifier, or a string. -/
theorem MemberRoot.denotes_reference (root : MemberRoot) : root.reference.Denotes [root.text] := by
  cases root with
  | this => exact .this
  | name word =>
    show (Tree.ofName word).Denotes [word]
    unfold Tree.ofName
    by_cases self : word = "this"
    · rw [if_pos self, self]
      exact .this
    · rw [if_neg self]
      by_cases name : Text.isIdentifierName word
      · rw [if_pos name]
        exact .name name self
      · rw [if_neg name]
        exact .text name

namespace MemberName

/-- The expression of a tag stands for the path of its segments. -/
theorem denotes_reference (name : MemberName) : name.reference.Denotes name.path := by
  induction name with
  | base root property => exact Tree.denotes_access root.denotes_reference property
  | step object property ih => exact Tree.denotes_access ih property

theorem one_lt_length_path (name : MemberName) : 1 < name.path.length := by
  induction name with
  | base root property => exact Nat.lt_succ_self 1
  | step object property ih =>
    rw [path, List.length_append]
    omega

/-- A bound tag is the pair of its text and its access expression. -/
theorem toTree_of_resolve {name : MemberName} {rules : TagRules} {binds : String → Bool}
    {tag : ResolvedTag} (h : (TagName.member name).resolve rules binds = .ok tag)
    (hb : tag.isBound) :
    tag.toTree = .node .array [.string (TagName.member name).text, name.reference] := by
  unfold TagName.resolve at h
  -- without capturing scopes, and with a built-in tag, what is resolved is not bound
  split at h
  · cases h
    cases hb
  · simp only [TagName.lookup?] at h
    split at h
    · cases h
      cases hb
    · cases h
      rfl
    · cases h

/-- The three readings of a dotted tag agree. Its path starts with the name that is looked up, its
text is the path joined by dots, and its expression stands for this path and no other. The
expression is a static member path, and then has the text of the tag, if and only if all segments
are identifier names. A tag that resolves as bound is the pair of this text and this expression. -/
theorem readings_agree (name : MemberName) :
    (∃ first second rest, name.path = first :: second :: rest
        ∧ (TagName.member name).lookup? = some (first, name.reference))
      ∧ (TagName.member name).text = ".".intercalate name.path
      ∧ (∀ path, name.reference.Denotes path ↔ path = name.path)
      ∧ name.reference.staticPath?
          = (if name.path.all Text.isIdentifierName then some (TagName.member name).text else none)
      ∧ ∀ rules binds tag, (TagName.member name).resolve rules binds = .ok tag → tag.isBound →
          tag.toTree = .node .array [.string (TagName.member name).text, name.reference] := by
  have spelled := name.denotes_reference
  refine ⟨?_, rfl, fun path => ⟨fun h => h.unique spelled, fun same => same ▸ spelled⟩,
    spelled.staticPath?_eq name.one_lt_length_path, fun rules binds tag => toTree_of_resolve⟩
  have start := name.head?_path
  have size := name.one_lt_length_path
  match found : name.path with
  | [] =>
    rw [found] at start
    cases start
  | [_] =>
    rw [found] at size
    exact absurd size (Nat.lt_irrefl 1)
  | first :: second :: rest =>
    rw [found] at start
    refine ⟨first, second, rest, rfl, ?_⟩
    rw [Option.some.inj start]
    rfl

/-- A dotted tag with a segment in its middle that is no identifier name. -/
def gridRow : MemberName := .step (.base (.name "ui") "data-grid") "Row"

/-- A dotted tag that starts from `this`. -/
def panelBody : MemberName := .step (.base .this "panel") "Body"

/-- The segment with a hyphen is read by index, so the expression is no static member path. -/
theorem readings_gridRow :
    ∃ tag, (TagName.member gridRow).resolve { captureScope := true, throwOnMissing := true }
          (· = "ui") = .ok tag
      ∧ tag.isBound
      ∧ tag.toTree = .node .array [.string "ui.data-grid.Row",
          .node (.member "Row" false)
            [.node (.index false) [.identifier "ui", .string "data-grid"]]]
      ∧ gridRow.reference.staticPath? = none
      ∧ gridRow.reference.Denotes ["ui", "data-grid", "Row"]
      ∧ panelBody.reference.staticPath? = some "this.panel.Body" := by
  obtain ⟨-, -, denoted, static, pair⟩ := readings_agree gridRow
  obtain ⟨-, -, -, plain, -⟩ := readings_agree panelBody
  have bound : (TagName.member gridRow).resolve { captureScope := true, throwOnMissing := true }
      (· = "ui") = .ok (.bound "ui.data-grid.Row" gridRow.reference) := by rfl
  refine ⟨_, bound, rfl, (pair _ _ _ bound rfl).trans ?_, static.trans ?_, (denoted _).mpr ?_,
    plain.trans ?_⟩
  · rfl
  · decide
  · decide
  · decide

end MemberName

end JsxLowering
