import JsxLowering.Compile
import JsxLowering.Proofs.Nesting

/-!
# No markup is left

Markup is lowered to a string or to a function, and the function is read from a source in which
markup has no meaning. So what a lowering gives holds no markup, whatever the interpolations in the
strings of the program were, and a tree without markup is lowered to itself. A second lowering
therefore has nothing to do.
-/

namespace JsxLowering

/-! ## Trees without markup -/

mutual

theorem Tree.markupCount_of_isPlain : {tree : Tree} → tree.isPlain → tree.markupCount = 0
  | .leaf _, _ => rfl
  | .node _ _, h => Tree.markupCountIn_of_arePlain h

theorem Tree.markupCountIn_of_arePlain : {trees : List Tree} → Tree.arePlain trees →
    Tree.markupCountIn trees = 0
  | [], _ => rfl
  | tree :: rest, h => by
    rw [Tree.arePlain, Bool.and_eq_true] at h
    rw [Tree.markupCountIn, Tree.markupCount_of_isPlain h.1, Tree.markupCountIn_of_arePlain h.2]

end

mutual

/-- A tree without markup is lowered to itself, and the session stays the same. -/
theorem Tree.lower_of_isPlain (settings : Settings) (s : Session) : {tree : Tree} → tree.isPlain →
    (scopes : Scopes) → tree.lower settings scopes s = .ok (tree, s)
  | .leaf _, _, _ => rfl
  | .node form children, h, scopes => by
    have parts := Tree.lowerAll_of_arePlain settings s h (form.enclose children scopes)
    rw [Tree.lower, Lower.bind_of_ok parts]
    rfl

theorem Tree.lowerAll_of_arePlain (settings : Settings) (s : Session) : {trees : List Tree} →
    Tree.arePlain trees → (scopes : Scopes) →
    Tree.lowerAll settings scopes trees s = .ok (trees, s)
  | [], _, _ => rfl
  | tree :: rest, h, scopes => by
    rw [Tree.arePlain, Bool.and_eq_true] at h
    have first := Tree.lower_of_isPlain settings s h.1 scopes
    have others := Tree.lowerAll_of_arePlain settings s h.2 scopes
    rw [Tree.lowerAll, Lower.bind_of_ok first, Lower.bind_of_ok others]
    rfl

end

/-! ## What a lowering gives -/

/-- What is read back from a generated source holds no markup. -/
theorem Template.isPlain_of_read? {source : String} {tree : Tree}
    (h : Template.read? source = some tree) : tree.isPlain := by
  simp only [Template.read?, Option.bind_eq_bind, Option.bind_eq_some_iff] at h
  obtain ⟨found, -, checked⟩ := h
  split at checked
  · next plain =>
    cases checked
    exact plain
  · cases checked

/-- Taking the name from a function keeps it plain. -/
theorem Template.isPlain_of_unnamed? {tree function : Tree} (hp : tree.isPlain)
    (h : Template.unnamed? tree = some function) : function.isPlain := by
  unfold Template.unnamed? at h
  split at h
  · cases h
    -- only the name changes, and what stands for it is a leaf
    rw [Tree.isPlain, Tree.arePlain, Bool.and_eq_true] at hp
    exact hp.2
  · cases h

/-- A compiled template holds no markup, whatever its interpolations are. -/
theorem Template.isPlain_of_compile {fragment : String} {function : Tree}
    (h : Template.compile fragment = .ok function) : function.isPlain := by
  obtain ⟨tree, read, unnamed⟩ := Template.compile_eq_ok.mp h
  exact Template.isPlain_of_unnamed? (Template.isPlain_of_read? read) unnamed

/-- Markup is closed as a string or as a function, and neither holds markup. -/
theorem Lower.isPlain_of_leave {text : String} {start : Nat} {s s' : Session} {result : Tree}
    (h : Lower.leave text start s = .ok (result, s')) : result.isPlain := by
  rw [Lower.leave_eq] at h
  by_cases inside : s.boundary.isInterior start
  · rw [if_pos inside] at h
    cases h
    rfl
  · rw [if_neg inside] at h
    cases hc : Template.compile text with
    | error fault =>
      rw [hc] at h
      cases h
    | ok function =>
      rw [hc] at h
      cases h
      exact Template.isPlain_of_compile hc

/-- Markup is lowered to a text or to a function, and both are plain. -/
theorem Markup.isPlain_of_lower {settings : Settings} {scopes : Scopes} {m : Markup}
    {s s' : Session} {result : Tree} (h : m.lower settings scopes s = .ok (result, s')) :
    result.isPlain := by
  rw [Markup.lower_eq_composed] at h
  obtain ⟨text, after, -, closed⟩ := Lower.bind_eq_ok h
  exact Lower.isPlain_of_leave closed

mutual

/-- No markup is left in a lowered tree, at whatever offsets its markup starts. -/
theorem Tree.isPlain_of_lower {settings : Settings} : {tree : Tree} → {scopes : Scopes} →
    {s s' : Session} → {result : Tree} → tree.lower settings scopes s = .ok (result, s') →
    result.isPlain
  | .leaf _, _, _, _, _, h => by
    cases h
    rfl
  | .node form children, _, _, _, _, h => by
    rw [Tree.lower] at h
    obtain ⟨parts, after, lowered, rest⟩ := Lower.bind_eq_ok h
    cases rest
    exact Tree.arePlain_of_lowerAll lowered
  | .markup _, _, _, _, _, h => Markup.isPlain_of_lower h

theorem Tree.arePlain_of_lowerAll {settings : Settings} : {trees : List Tree} → {scopes : Scopes} →
    {s s' : Session} → {results : List Tree} →
    Tree.lowerAll settings scopes trees s = .ok (results, s') → Tree.arePlain results
  | [], _, _, _, _, h => by
    cases h
    rfl
  | tree :: rest, _, _, _, _, h => by
    rw [Tree.lowerAll] at h
    obtain ⟨first, after, lowered, h⟩ := Lower.bind_eq_ok h
    obtain ⟨others, last, more, h⟩ := Lower.bind_eq_ok h
    cases h
    rw [Tree.arePlain, Tree.isPlain_of_lower lowered, Tree.arePlain_of_lowerAll more]
    rfl

end

/-! ## Whole programs -/

/-- A program without markup is lowered to itself. -/
theorem lowerProgram_of_isPlain (settings : Settings) (bindings : Scopes) {program : Tree}
    (h : program.isPlain) : lowerProgram settings bindings program = .ok ⟨program, 0⟩ :=
  lowerProgram_eq_ok_iff.mpr ⟨{}, Tree.lower_of_isPlain settings {} h bindings, rfl⟩

/-- A lowered program holds no element and no fragment, also not in the functions compiled for it,
and any further lowering, with whatever options and scopes around the program, succeeds, compiles no
template and leaves the program as it is. -/
theorem SourceUnit.lower_leaves_no_markup {sourceUnit : SourceUnit} {options : Options}
    {bindings : Scopes} {program : Tree} {lowered : Lowered}
    (h : sourceUnit.lower options bindings program = .ok lowered) :
    lowered.program.markupCount = 0
      ∧ ∀ (again : SourceUnit) (others : Options) (around : Scopes),
          again.lower others around lowered.program = .ok ⟨lowered.program, 0⟩ := by
  have plain : lowered.program.isPlain := by
    unfold SourceUnit.lower at h
    cases run : lowerProgram options.settings bindings program with
    | error failure =>
      rw [run] at h
      cases h
    | ok result =>
      rw [run] at h
      cases h
      obtain ⟨session, run, -⟩ := lowerProgram_eq_ok_iff.mp run
      exact Tree.isPlain_of_lower run
  refine ⟨Tree.markupCount_of_isPlain plain, fun again others around => ?_⟩
  rw [SourceUnit.lower, lowerProgram_of_isPlain others.settings around plain]

/-- An element with a comparison and with what looks like markup in an interpolation of its
attribute, and with markup in a call that shows nothing. -/
def comparingTag : Tree :=
  .node (.program none)
    [.node .expression
       [.markup (.element 0 (.plain "p") [.text "a" "<%= i < n ? i : \"<b/>\" %>"]
          [.container (.node (.call false) [.identifier "f", .markup (.fragment 40 [])])])]]

theorem lower_comparingTag : ∃ lowered,
    (SourceUnit.mk "a.jsx" "").lower {} [] comparingTag = .ok lowered
      ∧ lowered.boundaries = 1 ∧ lowered.program.markupCount = 0
      ∧ (SourceUnit.mk "b.jsx" "").lower { captureScope := true, builtins := some [] } [["p"]]
          lowered.program = .ok ⟨lowered.program, 0⟩ := by
  have succeeds : ((SourceUnit.mk "a.jsx" "").lower {} [] comparingTag).toOption.map
      Lowered.boundaries = some 1 := by
    decide +kernel
  cases h : (SourceUnit.mk "a.jsx" "").lower {} [] comparingTag with
  | error report =>
    rw [h] at succeeds
    cases succeeds
  | ok lowered =>
    rw [h] at succeeds
    obtain ⟨none, again⟩ := SourceUnit.lower_leaves_no_markup h
    exact ⟨lowered, rfl, Option.some.inj succeeds, none, again _ _ _⟩

end JsxLowering
