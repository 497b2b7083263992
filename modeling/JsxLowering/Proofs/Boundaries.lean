import JsxLowering.Proofs.Visits

/-!
# Boundaries of a program

What a successful lowering makes of a program with nested markup: each outermost markup becomes the
function compiled from the text it denotes, and all else stays. Markup inside other markup becomes a
string literal with the text it denotes, at whatever moment of the run it is lowered.
-/

namespace JsxLowering

/-- The function for outermost markup: compiled from the text that the markup denotes. -/
def Markup.function (holes : Bool) (m : Markup) : Tree :=
  match Template.compile (m.denoted holes) with
  | .ok function => function
  | .error _ => .absent

/-- Whether a tree is a function expression without a name. -/
def Tree.isAnonymousFunction : Tree → Bool
  | .node (.function (.expression _) _ _) (.absent :: _) => true
  | _ => false

theorem Template.isAnonymousFunction_of_unnamed? {tree function : Tree}
    (h : Template.unnamed? tree = some function) : function.isAnonymousFunction := by
  unfold Template.unnamed? at h
  split at h
  · cases h
    rfl
  · cases h

/-- What a template is compiled to is a function expression without a name. -/
theorem Template.isAnonymousFunction_of_compile {text : String} {function : Tree}
    (h : Template.compile text = .ok function) : function.isAnonymousFunction := by
  obtain ⟨tree, -, unnamed⟩ := Template.compile_eq_ok.mp h
  exact Template.isAnonymousFunction_of_unnamed? unnamed

/-! ## Success and failure of outermost markup -/

/-- Compiled markup: its tags resolve, and its text compiles. -/
theorem Markup.compile_eq_ok {settings : Settings} {scopes : Scopes} {m : Markup} {result : Tree}
    (h : m.compile settings scopes = .ok result) :
    Occurrence.firstFailure settings.rules (m.elements scopes) = none
      ∧ Template.compile (m.denoted settings.memberPlaceholders) = .ok result
      ∧ result = m.function settings.memberPlaceholders := by
  simp only [Markup.compile] at h
  -- a missing tag and a fault of the template both end in an error
  cases hf : Occurrence.firstFailure settings.rules (m.elements scopes) with
  | some failure =>
    rw [hf] at h
    cases h
  | none =>
    rw [hf] at h
    cases hc : Template.compile (m.denoted settings.memberPlaceholders) with
    | error fault =>
      rw [hc] at h
      cases h
    | ok function =>
      rw [hc] at h
      cases h
      exact ⟨rfl, rfl, by simp only [Markup.function, hc]⟩

mutual

theorem Tree.compileMarkup_eq_ok {settings : Settings} {scopes : Scopes} :
    ∀ {tree result : Tree}, tree.compileMarkup settings scopes = .ok result →
      result = tree.replaceMarkup (Markup.function settings.memberPlaceholders)
        ∧ ∀ m ∈ tree.outermost, Template.compile (m.denoted settings.memberPlaceholders)
            = .ok (m.function settings.memberPlaceholders)
  | .leaf content, _, h => by
    cases h
    exact ⟨rfl, nofun⟩
  | .node form children, _, h => by
    rw [Tree.compileMarkup] at h
    cases hc : Tree.compileMarkupIn settings (form.enclose children scopes) children with
    | error failure =>
      rw [hc] at h
      cases h
    | ok results =>
      rw [hc] at h
      cases h
      obtain ⟨hr, hm⟩ := Tree.compileMarkupIn_eq_ok hc
      rw [Tree.replaceMarkup, Tree.outermost, hr]
      exact ⟨rfl, hm⟩
  | .markup value, _, h => by
    obtain ⟨-, hc, rfl⟩ := Markup.compile_eq_ok h
    refine ⟨rfl, fun m hm => ?_⟩
    rw [Tree.outermost, List.mem_singleton] at hm
    rwa [hm]

theorem Tree.compileMarkupIn_eq_ok {settings : Settings} {scopes : Scopes} :
    ∀ {trees results : List Tree}, Tree.compileMarkupIn settings scopes trees = .ok results →
      results = Tree.replaceMarkupIn (Markup.function settings.memberPlaceholders) trees
        ∧ ∀ m ∈ Tree.outermostIn trees,
            Template.compile (m.denoted settings.memberPlaceholders)
              = .ok (m.function settings.memberPlaceholders)
  | [], _, h => by
    cases h
    exact ⟨rfl, nofun⟩
  | tree :: rest, _, h => by
    rw [Tree.compileMarkupIn] at h
    cases ht : tree.compileMarkup settings scopes with
    | error failure =>
      rw [ht] at h
      cases h
    | ok result =>
      cases hr : Tree.compileMarkupIn settings scopes rest with
      | error failure =>
        rw [ht, hr] at h
        cases h
      | ok results =>
        rw [ht, hr] at h
        cases h
        obtain ⟨rfl, hm⟩ := Tree.compileMarkup_eq_ok ht
        obtain ⟨rfl, hms⟩ := Tree.compileMarkupIn_eq_ok hr
        refine ⟨rfl, fun m hin => ?_⟩
        rw [Tree.outermostIn, List.mem_append] at hin
        exact hin.elim (hm m) (hms m)

end

/-! ## Whole programs -/

/-- What a successful lowering of a program leaves. -/
theorem lowerProgram_eq_ok {settings : Settings} {bindings : Scopes} {program : Tree}
    {lowered : Lowered} (hn : program.isNested none)
    (h : lowerProgram settings bindings program = .ok lowered) :
    program.compileMarkup settings bindings = .ok lowered.program
      ∧ lowered.boundaries = program.outermost.length
      ∧ program.lower settings bindings {}
          = .ok (lowered.program, Session.afterTemplates {} program.outermost.length) := by
  have run := Tree.lower_exterior settings (s := {}) rfl bindings program hn
  simp only [lowerProgram] at h
  rw [run] at h ⊢
  cases hc : program.compileMarkup settings bindings with
  | error failure =>
    rw [hc] at h
    cases h
  | ok result =>
    rw [hc] at h
    cases h
    exact ⟨rfl, Nat.zero_add _, rfl⟩

/-- A visit of markup inside other markup gives its text and changes nothing. -/
theorem Visit.Invariant.lower_inside {settings : Settings} {m : Markup} {scopes : Scopes}
    {s s' : Session} {outer : Nat} {result : Tree}
    (hv : Visit.Invariant ⟨.markup m, scopes, s, some outer⟩)
    (h : m.lower settings scopes s = .ok (result, s')) :
    result = .string (m.denoted settings.memberPlaceholders) ∧ s' = s := by
  rw [Markup.lower_interior settings hv.low scopes m hv.nested] at h
  exact Lower.session_of_gate h

/-- A visit of outermost markup compiles its text. -/
theorem Visit.Invariant.lower_outside {settings : Settings} {m : Markup} {scopes : Scopes}
    {s s' : Session} {result : Tree} (hv : Visit.Invariant ⟨.markup m, scopes, s, none⟩)
    (h : m.lower settings scopes s = .ok (result, s')) :
    Template.compile (m.denoted settings.memberPlaceholders) = .ok result := by
  rw [Markup.lower_exterior settings (Boundary.eq_unset hv.low) scopes m hv.nested] at h
  cases hc : m.compile settings scopes with
  | error failure =>
    rw [hc] at h
    cases h
  | ok function =>
    rw [hc] at h
    cases h
    exact (Markup.compile_eq_ok hc).2.1

/-- At every visit, the text that markup is closed with is the text it denotes. -/
theorem Visit.Invariant.composed {settings : Settings} {m : Markup} {scopes : Scopes}
    {s s' : Session} {around : Option Nat} {text : String}
    (hv : Visit.Invariant ⟨.markup m, scopes, s, around⟩)
    (h : m.composed settings scopes s = .ok (text, s')) :
    text = m.denoted settings.memberPlaceholders := by
  cases around with
  | some outer =>
    rw [Markup.composed_interior settings hv.low scopes m hv.nested] at h
    exact (Lower.session_of_gate h).1
  | none =>
    rw [Markup.composed_exterior settings (Boundary.eq_unset hv.low) scopes m hv.nested] at h
    exact (Lower.session_of_gate h).1

/-- A lowered program is the program with each outermost markup replaced by the function compiled
from the text of that markup alone. There are as many templates as outermost markup, no boundary
stays open, and markup inside other markup never compiles: wherever the run lowers it, it becomes a
string literal and the session stays the same. -/
theorem lowerProgram_replaces_outermost {settings : Settings} {bindings : Scopes} {program : Tree}
    {lowered : Lowered} (hn : program.isNested none)
    (h : lowerProgram settings bindings program = .ok lowered) :
    lowered.program = program.replaceMarkup (Markup.function settings.memberPlaceholders)
      ∧ (∀ m ∈ program.outermost,
          Template.compile (m.denoted settings.memberPlaceholders)
              = .ok (m.function settings.memberPlaceholders)
            ∧ (m.function settings.memberPlaceholders).isAnonymousFunction)
      ∧ lowered.boundaries = program.outermost.length
      ∧ (∃ session, program.lower settings bindings {} = .ok (lowered.program, session)
          ∧ session.boundary = {})
      ∧ ∀ {m : Markup} {scopes : Scopes} {s s' : Session} {outer : Nat} {result : Tree},
          Visit.Reached settings bindings program ⟨.markup m, scopes, s, some outer⟩ →
          m.lower settings scopes s = .ok (result, s') →
          (∃ text, result = .string text) ∧ s' = s := by
  -- the run compiles all outermost markup, and interior markup is only reached inside it
  obtain ⟨hc, count, run⟩ := lowerProgram_eq_ok hn h
  obtain ⟨replaced, compiles⟩ := Tree.compileMarkup_eq_ok hc
  refine ⟨replaced, fun m hm => ?_, count, ⟨_, run, rfl⟩, fun hv hl => ?_⟩
  · have compiled := compiles m hm
    exact ⟨compiled, Template.isAnonymousFunction_of_compile compiled⟩
  · obtain ⟨text, same⟩ := (Visit.invariant_of_reach hn hv).lower_inside hl
    exact ⟨⟨_, text⟩, same⟩

/-- Two clusters in one program, with markup in an attribute and in a callback of the first. -/
def twoClusters : Tree :=
  .node (.program none)
    [.node .expression
       [.markup (.element 0 (.plain "p") [.markup "a" (.element 5 (.plain "b") [] [])]
          [.text "it's ", .container (.node (.member "name" false) [.identifier "user"]),
           .container (.node (.call false) [.identifier "f", .markup (.fragment 40 [])])])],
     .node .expression [.markup (.fragment 50 [.text "x"])]]

theorem lowerProgram_twoClusters : ∃ lowered,
    lowerProgram ({} : Options).settings [] twoClusters = .ok lowered
      ∧ lowered.boundaries = 2
      ∧ lowered.program = twoClusters.replaceMarkup (Markup.function true) := by
  cases h : lowerProgram ({} : Options).settings [] twoClusters with
  | error failure =>
    have succeeds : (lowerProgram ({} : Options).settings [] twoClusters).toBool := by
      decide +kernel
    rw [h] at succeeds
    cases succeeds
  | ok lowered =>
    obtain ⟨replaced, -, count, -⟩ := lowerProgram_replaces_outermost (by decide) h
    exact ⟨lowered, rfl, count, replaced⟩

/-- Wherever a run lowers markup, the text it is closed with is the text that the markup denotes:
the string literal for markup inside other markup, and the text compiled for outermost markup. -/
theorem composed_eq_denoted {settings : Settings} {bindings : Scopes} {program : Tree}
    {m : Markup} {scopes : Scopes} {s : Session} {around : Option Nat}
    (hn : program.isNested none)
    (hv : Visit.Reached settings bindings program ⟨.markup m, scopes, s, around⟩) :
    (∀ {text : String} {s' : Session}, m.composed settings scopes s = .ok (text, s') →
        text = m.denoted settings.memberPlaceholders)
      ∧ ∀ {result : Tree} {s' : Session}, m.lower settings scopes s = .ok (result, s') →
          if around.isSome then result = .string (m.denoted settings.memberPlaceholders)
          else Template.compile (m.denoted settings.memberPlaceholders) = .ok result := by
  have inv := Visit.invariant_of_reach hn hv
  refine ⟨inv.composed, fun hl => ?_⟩
  cases around with
  | some outer => exact (inv.lower_inside hl).1
  | none => exact inv.lower_outside hl

/-- The element `<b>` in the attribute of the first cluster, as the run reaches it. -/
theorem composed_twoClusters : ∃ (s : Session) (result : Tree),
    Visit.Reached ({} : Options).settings [] twoClusters
        ⟨.markup (.element 5 (.plain "b") [] []), [[]], s, some 0⟩
      ∧ (Markup.element 5 (.plain "b") [] []).lower ({} : Options).settings [[]] s
          = .ok (result, s)
      ∧ result = .string "<b></b>" := by
  have reached : Visit.Reached ({} : Options).settings [] twoClusters
      ⟨.markup (.element 5 (.plain "b") [] []), [[]], ({} : Session).enter 0, some 0⟩ := by
    refine .head (.node _ _ _ _ _) ?_
    refine .head (.first _ _ _ _ _) ?_
    refine .head (.node _ _ _ _ _) ?_
    refine .head (.first _ _ _ _ _) ?_
    refine .head (.markup _ _ _ _) ?_
    refine .head (.attributes _ _ _ _ _ _ _) ?_
    exact .single (.inAttribute _ _ _ _ rfl)
  have text : (Markup.element 5 (.plain "b") [] []).denoted true = "<b></b>" := by decide
  exact ⟨_, _, reached, rfl, text ▸ (composed_eq_denoted (by decide) reached).2 rfl⟩

end JsxLowering
