import JsxLowering.Compile
import JsxLowering.Proofs.Rendering
import Mathlib.Data.List.Find

/-!
# When a lowering fails

The text of outermost markup always compiles if its names are legal and its strings hold no angle
bracket. So the lowering of a program fails only for a tag: one that has to be built in or bound and
is neither. It reports the first such tag in the order of the pass.
-/

namespace JsxLowering

/-! ## Tags that are required -/

/-- The leftmost name of a tag that is a dotted name, or a single identifier other than `this`. -/
def TagName.leftmost? : TagName → Option String
  | .member name => name.path.head?
  | .plain name => if Text.isIdentifierName name && name ≠ "this" then some name else none
  | .reference name => if Text.isIdentifierName name && name ≠ "this" then some name else none
  | .this => none
  | .namespaced .. => none

/-- Whether the tag of an element has a leftmost name that no scope around it binds, and is not
built in. -/
def Occurrence.isUnresolved (builtins : List String) (o : Occurrence) : Bool :=
  match o.tag.leftmost? with
  | some name => !builtins.contains o.tag.text && !o.scopes.binds name
  | none => false

/-- The built-in tags, if every other tag has to be bound. -/
def Options.required? (options : Options) : Option (List String) :=
  if options.captureScope && options.throwOnMissing then options.builtins else none

theorem Options.required?_eq_some {options : Options} {builtins : List String} :
    options.required? = some builtins
      ↔ options.captureScope ∧ options.throwOnMissing ∧ options.builtins = some builtins := by
  unfold Options.required?
  cases options.captureScope <;> cases options.throwOnMissing <;> simp

/-- The name that a legal tag is looked up by is its leftmost one. -/
theorem TagName.lookup?_eq {tag : TagName} (h : tag.isLegal) :
    tag.lookup?.map Prod.fst = tag.leftmost? := by
  cases tag with
  | member name => exact name.head?_path.symm
  | plain name =>
    rw [TagName.lookup?, TagName.leftmost?, Bool.and_comm]
    split <;> rfl
  | reference name =>
    rw [TagName.isLegal, Bool.and_eq_true] at h
    rw [TagName.leftmost?, if_pos h.2]
    rfl
  | this => rfl
  | namespaced space name => rfl

theorem TagRules.decide_eq_missing {rules : TagRules} {tag : String} {inScope : Bool} :
    rules.decide tag inScope = .missing
      ↔ rules.throwOnMissing ∧ rules.builtins.any (!·.contains tag) ∧ inScope = false := by
  unfold TagRules.decide TagRules.hasBuiltins TagRules.isBuiltin
  cases rules.builtins with
  | none => cases inScope <;> simp
  | some list =>
    by_cases built : tag ∈ list
    · simp [built]
    · cases rules.throwOnMissing <;> cases inScope <;> simp [built]

/-- A legal tag is missing if it is required and unresolved. -/
theorem Occurrence.isMissing_eq {o : Occurrence} (h : o.tag.isLegal) (options : Options) :
    o.isMissing options.tagRules = options.required?.any o.isUnresolved := by
  have leftmost := TagName.lookup?_eq h
  unfold Occurrence.isMissing Occurrence.isUnresolved Options.required? Options.tagRules
  rw [← leftmost]
  simp only [TagRules.decide_eq_missing]
  cases o.tag.lookup? <;> cases options.captureScope <;> cases options.throwOnMissing <;>
    cases options.builtins <;> simp

/-- Among elements with legal tags, the first failure is that of the first required tag that is
unresolved. -/
theorem Occurrence.firstFailure_eq {found : List Occurrence} (h : ∀ o ∈ found, o.tag.isLegal)
    (options : Options) :
    Occurrence.firstFailure options.tagRules found
      = options.required?.bind fun builtins =>
          (found.find? (Occurrence.isUnresolved builtins)).map Occurrence.failure := by
  have same : found.find? (Occurrence.isMissing options.tagRules)
      = found.find? fun o => options.required?.any o.isUnresolved :=
    List.find?_congr fun o ho => Occurrence.isMissing_eq (h o ho) options
  rw [Occurrence.firstFailure, same]
  cases options.required? with
  | none => simp
  | some builtins => simp

/-! ## Programs whose markup compiles -/

mutual

/-- A tree whose outermost markup compiles only fails for a tag. -/
theorem Tree.compileMarkup_of_ok {settings : Settings} : (tree : Tree) →
    (∀ m ∈ tree.outermost, ∃ function,
      Template.compile (m.denoted settings.memberPlaceholders) = .ok function) →
    (scopes : Scopes) →
    tree.compileMarkup settings scopes
      = match Occurrence.firstFailure settings.rules (tree.elements scopes) with
        | some failure => .error failure
        | none => .ok (tree.replaceMarkup (Markup.function settings.memberPlaceholders))
  | .leaf _, _, _ => rfl
  | .node form children, h, scopes => by
    rw [Tree.outermost] at h
    rw [Tree.compileMarkup, Tree.compileMarkupIn_of_ok children h, Tree.elements,
      Tree.replaceMarkup]
    cases Occurrence.firstFailure settings.rules
      (Tree.elementsIn (form.enclose children scopes) children) <;> rfl
  | .markup value, h, scopes => by
    obtain ⟨function, compiled⟩ := h value List.mem_cons_self
    have own : value.function settings.memberPlaceholders = function := by
      simp only [Markup.function, compiled]
    rw [Tree.elements, Tree.replaceMarkup, own]
    exact Markup.compile_of_ok compiled scopes

theorem Tree.compileMarkupIn_of_ok {settings : Settings} : (trees : List Tree) →
    (∀ m ∈ Tree.outermostIn trees, ∃ function,
      Template.compile (m.denoted settings.memberPlaceholders) = .ok function) →
    (scopes : Scopes) →
    Tree.compileMarkupIn settings scopes trees
      = match Occurrence.firstFailure settings.rules (Tree.elementsIn scopes trees) with
        | some failure => .error failure
        | none => .ok (Tree.replaceMarkupIn (Markup.function settings.memberPlaceholders) trees)
  | [], _, _ => rfl
  | tree :: rest, h, scopes => by
    rw [Tree.outermostIn] at h
    have first := Tree.compileMarkup_of_ok tree (fun m hm => h m (List.mem_append_left _ hm)) scopes
    have later := Tree.compileMarkupIn_of_ok rest (fun m hm => h m (List.mem_append_right _ hm))
      scopes
    rw [Tree.compileMarkupIn, first, later, Tree.elementsIn, Occurrence.firstFailure_append,
      Tree.replaceMarkupIn]
    -- a failure of the first tree ends the run, and the rest is not lowered
    cases Occurrence.firstFailure settings.rules (tree.elements scopes) with
    | some failure => rfl
    | none => cases Occurrence.firstFailure settings.rules (Tree.elementsIn scopes rest) <;> rfl

end

/-- What a lowering of a program gives, if the names in its markup are legal and no quoted attribute
and no string in braces holds an angle bracket. -/
theorem lowerProgram_of_legal {program : Tree} (hn : program.isNested none)
    (hi : ∀ m ∈ program.outermost, ∀ item ∈ m.items, item.isLegal ∧ item.isBracketFree)
    (settings : Settings) (bindings : Scopes) :
    lowerProgram settings bindings program
      = match Occurrence.firstFailure settings.rules (program.elements bindings) with
        | some failure => .error failure
        | none =>
          .ok ⟨program.replaceMarkup (Markup.function settings.memberPlaceholders),
            program.outermost.length⟩ := by
  have compiles : ∀ m ∈ program.outermost, ∃ function,
      Template.compile (m.denoted settings.memberPlaceholders) = .ok function := by
    intro m hm
    -- the function is never called here, so its paths may start anywhere
    have writable (item : Item) (h : item ∈ m.items) : item.IsWritable fun _ => True :=
      ⟨(hi m hm item h).1, (hi m hm item h).2, fun _ _ => trivial⟩
    exact (m.written settings.memberPlaceholders writable).compile
  have run := Tree.lower_exterior settings (s := {}) rfl bindings program hn
  rw [Tree.compileMarkup_of_ok program compiles] at run
  simp only [lowerProgram]
  rw [run]
  cases Occurrence.firstFailure settings.rules (program.elements bindings) with
  | some failure => rfl
  | none => simp [Except.map, bind, Except.bind, pure, Except.pure, Session.afterTemplates]

/-- A failed lowering reports the first required tag that is unresolved. -/
theorem SourceUnit.lower_eq_error {program : Tree} {bindings : Scopes}
    (hn : program.isNested none) (ht : ∀ o ∈ program.elements bindings, o.tag.isLegal)
    (hi : ∀ m ∈ program.outermost, ∀ item ∈ m.items, item.isLegal ∧ item.isBracketFree)
    (sourceUnit : SourceUnit) (options : Options) (report : Diagnostic) :
    sourceUnit.lower options bindings program = .error report
      ↔ ∃ builtins o, options.required? = some builtins
          ∧ (program.elements bindings).find? (Occurrence.isUnresolved builtins) = some o
          ∧ o.failure.diagnose sourceUnit.file sourceUnit.source = report := by
  -- markup of this kind compiles, so only a tag is left to fail for
  have run := lowerProgram_of_legal hn hi options.settings bindings
  have first : Occurrence.firstFailure options.settings.rules (program.elements bindings) = _ :=
    Occurrence.firstFailure_eq ht options
  rw [first] at run
  rw [SourceUnit.lower, run]
  cases options.required? with
  | none => simp
  | some builtins =>
    cases hf : (program.elements bindings).find? (Occurrence.isUnresolved builtins) with
    | none => simp [hf]
    | some o => simp [hf]

/-- The lowering of a unit fails if and only if scopes are captured, built-in tags are given,
missing tags are refused, and some element of the program has a tag that is a dotted name or a
single identifier other than `this`, is not built in, and has a leftmost name that no scope binds.
The report is on the first such element, names its tag, and is located where it starts. -/
theorem SourceUnit.lower_fails_iff {program : Tree} {bindings : Scopes} (hn : program.isNested none)
    (ht : ∀ o ∈ program.elements bindings, o.tag.isLegal)
    (hi : ∀ m ∈ program.outermost, ∀ item ∈ m.items, item.isLegal ∧ item.isBracketFree)
    (sourceUnit : SourceUnit) (options : Options) :
    ((∃ report, sourceUnit.lower options bindings program = .error report)
        ↔ options.captureScope ∧ options.throwOnMissing
          ∧ ∃ builtins, options.builtins = some builtins
            ∧ ∃ o ∈ program.elements bindings, o.isUnresolved builtins)
      ∧ ∀ report, sourceUnit.lower options bindings program = .error report →
          ∃ builtins o, options.builtins = some builtins
            ∧ (program.elements bindings).find? (Occurrence.isUnresolved builtins) = some o
            ∧ report =
              { code := "JSX-ERR-SCOPE-001"
                message := "Tag <" ++ o.tag.text
                  ++ "> is not a built-in and is missed from the scope."
                file := sourceUnit.file
                line := (Text.locate sourceUnit.source o.start).line
                column := (Text.locate sourceUnit.source o.start).column
                context := none
                hints :=
                  ["Import or declare `" ++ o.tag.text ++ "`, or list it in `builtins`."] } := by
  have failed := SourceUnit.lower_eq_error hn ht hi sourceUnit options
  refine ⟨?_, fun report h => ?_⟩
  · constructor
    · rintro ⟨report, h⟩
      obtain ⟨builtins, o, required, found, -⟩ := (failed report).mp h
      obtain ⟨capture, throws, given⟩ := Options.required?_eq_some.mp required
      exact ⟨capture, throws, builtins, given, o, List.mem_of_find?_eq_some found,
        List.find?_some found⟩
    · rintro ⟨capture, throws, builtins, given, o, ho, unresolved⟩
      -- the report is on the first such element, which need not be the given one
      have found := List.find?_isSome.mpr ⟨o, ho, unresolved⟩
      obtain ⟨first, hf⟩ := Option.isSome_iff_exists.mp found
      have required := Options.required?_eq_some.mpr ⟨capture, throws, given⟩
      exact ⟨_, (failed _).mpr ⟨builtins, first, required, hf, rfl⟩⟩
  · obtain ⟨builtins, o, required, found, rfl⟩ := (failed report).mp h
    exact ⟨builtins, o, (Options.required?_eq_some.mp required).2.2, found, rfl⟩

/-- A program with an unbound tag in a call that shows nothing, and another one after it. -/
def unboundTags : Tree :=
  .node (.program none)
    [.node .expression
       [.markup (.element 0 (.plain "p")
          [.container "a" (.node (.call false)
             [.identifier "f", .markup (.element 8 (.member (.base (.name "ui") "Box")) [] [])])]
          [.markup (.element 21 (.reference "Card") [] [])])]]

theorem lower_unboundTags : ∃ report,
    (SourceUnit.mk "a.jsx" "<p a={f(<ui.Box/>)}><Card/></p>").lower
        { captureScope := true, builtins := some ["p"] } [] unboundTags = .error report
      ∧ report.code = "JSX-ERR-SCOPE-001"
      ∧ report.message = "Tag <ui.Box> is not a built-in and is missed from the scope."
      ∧ (report.line, report.column) = (1, 9) := by
  have nested : unboundTags.isNested none := by decide
  have tags : ∀ o ∈ unboundTags.elements [], o.tag.isLegal := by decide
  have fails := SourceUnit.lower_fails_iff nested tags (by decide)
    ⟨"a.jsx", "<p a={f(<ui.Box/>)}><Card/></p>"⟩ { captureScope := true, builtins := some ["p"] }
  obtain ⟨report, h⟩ := fails.1.mpr ⟨rfl, rfl, _, rfl, _, List.mem_cons_self, rfl⟩
  obtain ⟨builtins, o, given, found, rfl⟩ := fails.2 report h
  cases given
  cases found
  exact ⟨_, h, rfl, by decide, by decide⟩

end JsxLowering
