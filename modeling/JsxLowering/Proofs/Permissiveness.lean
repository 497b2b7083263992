import JsxLowering.Proofs.Failure

/-!
# Hosts that accept more

Capturing scopes is only a gate: it decides whether a program is lowered, and never what it is
lowered to. `Host.IsAsPermissive` compares two hosts by the tags they accept. Two runs over one
program stay in step as long as the more permissive one accepts each tag that the other accepts,
although the tags may resolve differently.
-/

namespace JsxLowering

/-- What a host chooses for the lowering of a program: the options, and the scopes around it. -/
structure Host where
  options : Options
  bindings : Scopes

namespace Host

/-- Both hosts capture scopes, and one of them binds at least the names that the other one binds,
refuses missing tags only if the other one does, and gives no built-in tags or at least those of the
other one. -/
structure CapturesAsMuch (lax strict : Host) : Prop where
  captures : strict.options.captureScope ∧ lax.options.captureScope
  binds : ∀ name, strict.bindings.binds name → lax.bindings.binds name
  throws : lax.options.throwOnMissing → strict.options.throwOnMissing
  builtins : ∀ more, lax.options.builtins = some more →
    ∃ fewer, strict.options.builtins = some fewer ∧ fewer ⊆ more

/-- Whether a host is at least as permissive as another one: it captures no scopes, or it captures
them and is at least as permissive there. -/
def IsAsPermissive (lax strict : Host) : Prop :=
  lax.options.captureScope = false ∨ lax.CapturesAsMuch strict

/-- What a host makes of a program. -/
def lower (host : Host) (program : Tree) : Except Failure Lowered :=
  lowerProgram host.options.settings host.bindings program

end Host

/-! ## Tags that one host misses -/

/-- Settings agree on the placeholders, and inside whatever scopes a tag that is missing by the lax
ones is missing by the strict ones. `outer` are the scopes around the strict run, and `outer'` those
around the lax one. -/
structure Settings.Covers (strict lax : Settings) (outer outer' : Scopes) : Prop where
  placeholders : lax.memberPlaceholders = strict.memberPlaceholders
  missing : ∀ (inner : Scopes) (tag : TagName) (start : Nat),
    Occurrence.isMissing lax.rules ⟨inner ++ outer', tag, start⟩ →
    Occurrence.isMissing strict.rules ⟨inner ++ outer, tag, start⟩

namespace Settings.Covers

variable {strict lax : Settings} {outer outer' : Scopes}

/-- A scope that a node opens is opened in both runs. -/
theorem enclose (h : strict.Covers lax outer outer') (form : Form) (children : List Tree) :
    strict.Covers lax (form.enclose children outer) (form.enclose children outer') where
  placeholders := h.placeholders
  missing := by
    intro inner tag start missing
    rw [Form.enclose_eq, ← List.append_assoc] at missing ⊢
    exact h.missing _ tag start missing

/-- Both runs write the same placeholder for a value. -/
theorem placeholder?_eq (h : strict.Covers lax outer outer') (value : Tree) :
    lax.placeholder? value = strict.placeholder? value := by
  unfold Settings.placeholder?
  rw [h.placeholders]

end Settings.Covers

/-- A tag that the permissive host looks up and misses is missed by the other one. -/
theorem Host.CapturesAsMuch.decide_eq_missing {lax strict : Host} (h : lax.CapturesAsMuch strict)
    {tag : String} {inScope inScope' : Bool} (hb : inScope → inScope')
    (missing : lax.options.tagRules.decide tag inScope' = .missing) :
    strict.options.tagRules.decide tag inScope = .missing := by
  rw [TagRules.decide_eq_missing] at missing ⊢
  simp only [Options.tagRules, h.captures.1, h.captures.2, if_true] at missing ⊢
  -- the three reasons for a missing tag carry over one by one
  obtain ⟨refused, notBuilt, unbound⟩ := missing
  obtain ⟨more, given, notIn⟩ := (Option.any_eq_true _ _).mp notBuilt
  obtain ⟨fewer, given', included⟩ := h.builtins more given
  have notIn' : !fewer.contains tag := by
    simp only [Bool.not_eq_true', List.contains_eq_mem, decide_eq_false_iff_not] at notIn ⊢
    exact fun built => notIn (included built)
  have unbound' : inScope = false := by
    by_contra bound
    rw [hb (by simpa using bound)] at unbound
    cases unbound
  exact ⟨h.throws refused, (Option.any_eq_true _ _).mpr ⟨fewer, given', notIn'⟩, unbound'⟩

/-- Between two hosts that agree on the placeholders, the more permissive one misses no further
tag. -/
theorem Host.IsAsPermissive.covers {lax strict : Host} (h : lax.IsAsPermissive strict)
    (hp : lax.options.memberPlaceholders = strict.options.memberPlaceholders) :
    strict.options.settings.Covers lax.options.settings strict.bindings lax.bindings where
  placeholders := hp
  missing := by
    intro inner tag start missing
    unfold Occurrence.isMissing at missing ⊢
    rw [Bool.and_eq_true] at missing ⊢
    obtain ⟨capture, missing⟩ := missing
    rcases h with off | h
    · have on : lax.options.captureScope = true := capture
      rw [off] at on
      cases on
    · refine ⟨h.captures.1, ?_⟩
      cases hl : tag.lookup? with
      | none =>
        simp only [hl] at missing
        cases missing
      | some found =>
        simp only [hl, decide_eq_true_eq] at missing ⊢
        -- the scopes of the program are the same in both runs, so only the outer ones differ
        have bound : (inner ++ strict.bindings).binds found.1 →
            (inner ++ lax.bindings).binds found.1 := by
          rw [Scopes.binds_append, Scopes.binds_append, Bool.or_eq_true, Bool.or_eq_true]
          exact Or.imp_right (h.binds _)
        exact h.decide_eq_missing bound missing

/-! ## Two runs in step -/

namespace Lower

variable {α β : Type}

/-- Whenever the first step succeeds, the second gives the same value and session. -/
def Refines (x y : Lower α) : Prop := ∀ s result, x s = .ok result → y s = .ok result

theorem Refines.refl (x : Lower α) : Refines x x := fun _ _ h => h

/-- Two steps in a row stay in step if each does. -/
theorem Refines.bind {x y : Lower α} {f g : α → Lower β} (h : Refines x y)
    (hf : ∀ a, Refines (f a) (g a)) : Refines (x >>= f) (y >>= g) := by
  intro s result run
  rw [bind_apply] at run ⊢
  cases hx : x s with
  | error failure =>
    rw [hx] at run
    cases run
  | ok middle =>
    rw [hx] at run
    rw [h s middle hx]
    exact hf middle.1 middle.2 result run

/-- A function of the value. -/
theorem Refines.map {x y : Lower α} (h : Refines x y) (f : α → β) :
    Refines (x >>= fun a => pure (f a)) (y >>= fun a => pure (f a)) :=
  h.bind fun _ => Refines.refl _

/-- A tag may resolve differently in the two runs, but has one text. -/
theorem Refines.resolve {strict lax : Settings} {outer outer' : Scopes}
    (h : strict.Covers lax outer outer') (tag : TagName) (start : Nat)
    {f g : ResolvedTag → Lower α} (hf : ∀ t t', t.text = t'.text → Refines (f t) (g t')) :
    Refines (Lower.resolve strict outer tag start >>= f)
      (Lower.resolve lax outer' tag start >>= g) := by
  intro s result run
  have accepts := tag.resolve_eq strict.rules outer start
  have accepts' := tag.resolve_eq lax.rules outer' start
  rw [bind_apply, Lower.resolve] at run ⊢
  -- a tag that the strict run misses ends it, and then nothing is claimed
  by_cases hm : Occurrence.isMissing strict.rules ⟨outer, tag, start⟩
  · rw [if_pos hm] at accepts
    rw [accepts] at run
    cases run
  · have hm' : ¬ Occurrence.isMissing lax.rules ⟨outer', tag, start⟩ :=
      fun missing => hm (h.missing [] tag start missing)
    rw [if_neg hm] at accepts
    rw [if_neg hm'] at accepts'
    obtain ⟨resolved, hr, text⟩ := accepts
    obtain ⟨resolved', hr', text'⟩ := accepts'
    rw [hr] at run
    rw [hr']
    exact hf resolved resolved' (text.trans text'.symm) s result run

end Lower

section
variable {strict lax : Settings}

mutual

/-- Where the strict run over a tree succeeds, the lax one gives the same. -/
theorem Tree.lower_refines : (tree : Tree) → {outer outer' : Scopes} →
    strict.Covers lax outer outer' →
    Lower.Refines (tree.lower strict outer) (tree.lower lax outer')
  | .leaf _, _, _, _ => Lower.Refines.refl _
  | .node form children, _, _, h =>
    (Tree.lowerAll_refines children (h.enclose form children)).map _
  | .markup value, _, _, h => Markup.lower_refines value h

theorem Tree.lowerAll_refines : (trees : List Tree) → {outer outer' : Scopes} →
    strict.Covers lax outer outer' →
    Lower.Refines (Tree.lowerAll strict outer trees) (Tree.lowerAll lax outer' trees)
  | [], _, _, _ => Lower.Refines.refl _
  | tree :: rest, _, _, h => by
    rw [Tree.lowerAll, Tree.lowerAll]
    apply (Tree.lower_refines tree h).bind
    intro first
    exact (Tree.lowerAll_refines rest h).map _

/-- The runs over markup stay in step, whatever its tags resolve to. -/
theorem Markup.lower_refines : (m : Markup) → {outer outer' : Scopes} →
    strict.Covers lax outer outer' →
    Lower.Refines (m.lower strict outer) (m.lower lax outer')
  | .element start tag attributes children, _, _, h => by
    rw [Markup.lower, Markup.lower]
    apply (Lower.Refines.refl (Lower.enter start)).bind
    intro _
    apply (Attribute.lowerAll_refines attributes h).bind
    intro properties
    apply Lower.Refines.resolve h
    intro t t' text
    apply (Child.lowerAll_refines children h).bind
    intro contributions
    -- the text that the element is closed with has only the text of the tag in it
    rw [text]
    exact Lower.Refines.refl _
  | .fragment start children, _, _, h => by
    rw [Markup.lower, Markup.lower]
    apply (Lower.Refines.refl (Lower.enter start)).bind
    intro _
    apply (Child.lowerAll_refines children h).bind
    intro contributions
    exact Lower.Refines.refl _

theorem Attribute.lower_refines : (item : Attribute) → {outer outer' : Scopes} →
    strict.Covers lax outer outer' →
    Lower.Refines (item.lower strict outer) (item.lower lax outer')
  | .flag _, _, _, _ => Lower.Refines.refl _
  | .text _ _, _, _, _ => Lower.Refines.refl _
  | .container _ value, _, _, h => by
    rw [Attribute.lower, Attribute.lower, h.placeholder?_eq]
    exact (Tree.lower_refines value h).map _
  | .markup _ value, _, _, h => (Markup.lower_refines value h).map _
  | .spread argument, _, _, h => (Tree.lower_refines argument h).map _

theorem Attribute.lowerAll_refines : (items : List Attribute) → {outer outer' : Scopes} →
    strict.Covers lax outer outer' →
    Lower.Refines (Attribute.lowerAll strict outer items) (Attribute.lowerAll lax outer' items)
  | [], _, _, _ => Lower.Refines.refl _
  | item :: rest, _, _, h => by
    rw [Attribute.lowerAll, Attribute.lowerAll]
    apply (Attribute.lower_refines item h).bind
    intro first
    exact (Attribute.lowerAll_refines rest h).map _

theorem Child.lower_refines : (item : Child) → {outer outer' : Scopes} →
    strict.Covers lax outer outer' →
    Lower.Refines (item.lower strict outer) (item.lower lax outer')
  | .text _, _, _, _ => Lower.Refines.refl _
  | .empty, _, _, _ => Lower.Refines.refl _
  | .container value, _, _, h => by
    rw [Child.lower, Child.lower, h.placeholder?_eq]
    exact (Tree.lower_refines value h).map _
  | .markup value, _, _, h => (Markup.lower_refines value h).map _
  | .spread argument, _, _, h => (Tree.lower_refines argument h).map _

theorem Child.lowerAll_refines : (items : List Child) → {outer outer' : Scopes} →
    strict.Covers lax outer outer' →
    Lower.Refines (Child.lowerAll strict outer items) (Child.lowerAll lax outer' items)
  | [], _, _, _ => Lower.Refines.refl _
  | item :: rest, _, _, h => by
    rw [Child.lowerAll, Child.lowerAll]
    apply (Child.lower_refines item h).bind
    intro first
    exact (Child.lowerAll_refines rest h).map _

end

end

/-! ## Whole programs -/

/-- Where the strict host accepts a program, the lax one makes the same of it. -/
theorem Host.lower_of_covers {lax strict : Host} {program : Tree} {lowered : Lowered}
    (hc : strict.options.settings.Covers lax.options.settings strict.bindings lax.bindings)
    (h : strict.lower program = .ok lowered) : lax.lower program = .ok lowered := by
  rw [Host.lower, lowerProgram_eq_ok_iff] at h ⊢
  obtain ⟨session, run, count⟩ := h
  have inStep : Lower.Refines (program.lower strict.options.settings strict.bindings)
      (program.lower lax.options.settings lax.bindings) := Tree.lower_refines program hc
  exact ⟨session, inStep _ _ run, count⟩

/-- The host with scopes not captured. -/
def Host.uncaptured (host : Host) : Host :=
  { host with options := { host.options with captureScope := false } }

/-- A program that one host accepts is accepted by each host that is at least as permissive and
agrees on the placeholders, with the same program and the same number of templates. So any two hosts
that accept a program and agree on the placeholders make the same of it: what is made of it without
capturing scopes. -/
theorem Host.lower_of_isAsPermissive (program : Tree) :
    (∀ {lax strict : Host} {lowered : Lowered}, lax.IsAsPermissive strict →
        lax.options.memberPlaceholders = strict.options.memberPlaceholders →
        strict.lower program = .ok lowered → lax.lower program = .ok lowered)
      ∧ ∀ {a b : Host} {lowered lowered' : Lowered},
          a.options.memberPlaceholders = b.options.memberPlaceholders →
          a.lower program = .ok lowered → b.lower program = .ok lowered' →
          lowered = lowered' ∧ a.uncaptured.lower program = .ok lowered
            ∧ b.uncaptured.lower program = .ok lowered := by
  refine ⟨fun permissive hp h => Host.lower_of_covers (permissive.covers hp) h, ?_⟩
  intro a b lowered lowered' hp ha hb
  -- a host that captures no scopes is as permissive as any other
  have permissive (host other : Host) : host.uncaptured.IsAsPermissive other := .inl rfl
  have ha' := Host.lower_of_covers ((permissive a a).covers rfl) ha
  have hb' := Host.lower_of_covers ((permissive a b).covers hp) hb
  have same : lowered = lowered' := by
    rw [ha'] at hb'
    exact Except.ok.inj hb'
  exact ⟨same, ha', Host.lower_of_covers ((permissive b a).covers hp.symm) ha⟩

/-- A program with a tag that only a host can bind. -/
def hostTag : Tree :=
  .node (.program none)
    [.node .expression
       [.markup (.element 0 (.plain "p") [] [.markup (.element 3 (.reference "Card") [] [])])]]

/-- A host that binds the tag. -/
def bindingHost : Host := ⟨{ captureScope := true, builtins := some ["p"] }, [["Card"]]⟩

/-- A host that has the tag built in. -/
def builtinHost : Host :=
  ⟨{ captureScope := true, builtins := some ["p", "Card"] }, [["Menu"], ["Card"]]⟩

/-- The tag resolves to a bound value for the one host and to its name for the other. -/
theorem lower_hostTag : ∃ lowered,
    bindingHost.lower hostTag = .ok lowered ∧ builtinHost.lower hostTag = .ok lowered
      ∧ bindingHost.uncaptured.lower hostTag = .ok lowered ∧ lowered.boundaries = 1 := by
  obtain ⟨permits, agree⟩ := Host.lower_of_isAsPermissive hostTag
  have permissive : builtinHost.IsAsPermissive bindingHost := by
    refine .inr ⟨⟨rfl, rfl⟩, fun name bound => ?_, fun _ => rfl, ?_⟩
    · show Scopes.binds ([["Menu"]] ++ bindingHost.bindings) name = true
      rw [Scopes.binds_append, bound, Bool.or_true]
    · rintro more ⟨⟩
      exact ⟨_, rfl, by decide⟩
  have accepted : (bindingHost.lower hostTag).toOption.map Lowered.boundaries = some 1 := by
    decide +kernel
  cases h : bindingHost.lower hostTag with
  | error failure =>
    rw [h] at accepted
    cases accepted
  | ok lowered =>
    rw [h] at accepted
    have other := permits permissive rfl h
    exact ⟨lowered, rfl, other, (agree rfl h other).2.1, Option.some.inj accepted⟩

end JsxLowering
