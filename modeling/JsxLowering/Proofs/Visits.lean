import JsxLowering.Proofs.Nesting
import Mathlib.Logic.Relation

/-!
# The run of a lowering

A lowering calls itself on the parts of a tree. A `Visit` is the moment of such a call: the part,
the scopes and the session that it starts with, and the outermost markup around it. `Visit.Step`
goes from a call to the calls it makes, so the visits of a run are those that steps reach from the
whole program.

`Visit.invariant_of_reach` holds along every run over nested markup: the boundary of the session is
the start of the outermost markup around the visit, and is unset where there is none.
-/

namespace JsxLowering

/-- What a lowering is called on. -/
inductive Part
  | tree (tree : Tree)
  | trees (trees : List Tree)
  | markup (markup : Markup)
  | attributes (items : List Attribute)
  | children (items : List Child)

/-- Whether the markup in a part starts after the markup around it. -/
def Part.isNested (outer : Option Nat) : Part → Bool
  | .tree t => t.isNested outer
  | .trees ts => Tree.areNested outer ts
  | .markup m => m.isNested outer
  | .attributes items => Attribute.areNested outer items
  | .children items => Child.areNested outer items

/-- Whether a part occurs only inside markup. -/
def Part.isInner : Part → Bool
  | .attributes _ => true
  | .children _ => true
  | _ => false

/-- The part of an attribute that is lowered. -/
def Attribute.part? : Attribute → Option Part
  | .flag _ => none
  | .text _ _ => none
  | .container _ value => some (.tree value)
  | .markup _ value => some (.markup value)
  | .spread argument => some (.tree argument)

/-- The part of a child that is lowered. -/
def Child.part? : Child → Option Part
  | .text _ => none
  | .empty => none
  | .container value => some (.tree value)
  | .markup value => some (.markup value)
  | .spread argument => some (.tree argument)

/-- A call of the lowering. -/
structure Visit where
  part : Part
  scopes : Scopes
  session : Session
  /-- Where the outermost markup around the part starts. -/
  around : Option Nat

namespace Visit

/-- From a call to a call that it makes. A later part is reached only if the parts before it are
lowered, and starts with the session they leave. -/
inductive Step (settings : Settings) : Visit → Visit → Prop
  | node (form : Form) (children : List Tree) (scopes : Scopes) (s : Session) (o : Option Nat) :
    Step settings ⟨.tree (.node form children), scopes, s, o⟩
      ⟨.trees children, form.enclose children scopes, s, o⟩
  | markup (m : Markup) (scopes : Scopes) (s : Session) (o : Option Nat) :
    Step settings ⟨.tree (.markup m), scopes, s, o⟩ ⟨.markup m, scopes, s, o⟩
  | first (tree : Tree) (rest : List Tree) (scopes : Scopes) (s : Session) (o : Option Nat) :
    Step settings ⟨.trees (tree :: rest), scopes, s, o⟩ ⟨.tree tree, scopes, s, o⟩
  | rest {tree result : Tree} {scopes : Scopes} {s s' : Session} (others : List Tree)
      (o : Option Nat) (h : tree.lower settings scopes s = .ok (result, s')) :
    Step settings ⟨.trees (tree :: others), scopes, s, o⟩ ⟨.trees others, scopes, s', o⟩
  | attributes (start : Nat) (tag : TagName) (items : List Attribute) (children : List Child)
      (scopes : Scopes) (s : Session) (o : Option Nat) :
    Step settings ⟨.markup (.element start tag items children), scopes, s, o⟩
      ⟨.attributes items, scopes, s.enter start, o.or (some start)⟩
  | children {start : Nat} {tag : TagName} {items : List Attribute} {properties : List Property}
      {resolved : ResolvedTag} {scopes : Scopes} {s s' : Session} (children : List Child)
      (o : Option Nat)
      (ha : Attribute.lowerAll settings scopes items (s.enter start) = .ok (properties, s'))
      (ht : tag.resolve settings.rules scopes.binds = .ok resolved) :
    Step settings ⟨.markup (.element start tag items children), scopes, s, o⟩
      ⟨.children children, scopes, s', o.or (some start)⟩
  | fragment (start : Nat) (children : List Child) (scopes : Scopes) (s : Session)
      (o : Option Nat) :
    Step settings ⟨.markup (.fragment start children), scopes, s, o⟩
      ⟨.children children, scopes, s.enter start, o.or (some start)⟩
  | inAttribute {item : Attribute} {part : Part} (rest : List Attribute) (scopes : Scopes)
      (s : Session) (o : Option Nat) (h : item.part? = some part) :
    Step settings ⟨.attributes (item :: rest), scopes, s, o⟩ ⟨part, scopes, s, o⟩
  | nextAttribute {item : Attribute} {property : Property} {scopes : Scopes} {s s' : Session}
      (rest : List Attribute) (o : Option Nat)
      (h : item.lower settings scopes s = .ok (property, s')) :
    Step settings ⟨.attributes (item :: rest), scopes, s, o⟩ ⟨.attributes rest, scopes, s', o⟩
  | inChild {item : Child} {part : Part} (rest : List Child) (scopes : Scopes) (s : Session)
      (o : Option Nat) (h : item.part? = some part) :
    Step settings ⟨.children (item :: rest), scopes, s, o⟩ ⟨part, scopes, s, o⟩
  | nextChild {item : Child} {contribution : Contribution} {scopes : Scopes} {s s' : Session}
      (rest : List Child) (o : Option Nat)
      (h : item.lower settings scopes s = .ok (contribution, s')) :
    Step settings ⟨.children (item :: rest), scopes, s, o⟩ ⟨.children rest, scopes, s', o⟩

/-- The call on a whole program. -/
def start (bindings : Scopes) (program : Tree) : Visit := ⟨.tree program, bindings, {}, none⟩

/-- The calls made in the run over a program. -/
def Reached (settings : Settings) (bindings : Scopes) (program : Tree) (v : Visit) : Prop :=
  Relation.ReflTransGen (Step settings) (start bindings program) v

/-- The boundary is the start of the outermost markup around the part, and the markup in the part
starts after it. -/
structure Invariant (v : Visit) : Prop where
  low : v.session.boundary.low = v.around
  nested : v.part.isNested v.around
  inside : v.part.isInner → v.around.isSome

end Visit

/-! ## One step -/

theorem Boundary.eq_unset {b : Boundary} (h : b.low = none) : b = {} := by
  cases b
  subst h
  rfl

/-- Trying tags leaves the session as it is. -/
theorem Lower.session_of_gate {α : Type} {rules : TagRules} {found : List Occurrence} {a b : α}
    {s s' : Session} (h : Lower.gate rules found a s = .ok (b, s')) : b = a ∧ s' = s := by
  unfold Lower.gate at h
  split at h
  · cases h
  · cases h
    exact ⟨rfl, rfl⟩

/-- Lowering a tree leaves the boundary as it is. -/
theorem Tree.low_of_lower {settings : Settings} {scopes : Scopes} {tree result : Tree}
    {s s' : Session} {o : Option Nat} (hs : s.boundary.low = o) (hn : tree.isNested o)
    (h : tree.lower settings scopes s = .ok (result, s')) : s'.boundary.low = o := by
  cases o with
  | some low =>
    rw [Tree.lower_interior settings hs scopes tree hn] at h
    obtain ⟨-, rfl⟩ := Lower.session_of_gate h
    exact hs
  | none =>
    rw [Tree.lower_exterior settings (Boundary.eq_unset hs) scopes tree hn] at h
    cases hc : tree.compileMarkup settings scopes with
    | error failure =>
      rw [hc] at h
      cases h
    | ok value =>
      rw [hc] at h
      cases h
      exact hs

/-- Entering markup from a visit makes its start the boundary if there is none. -/
theorem Session.low_enter {s : Session} {o : Option Nat} {start : Nat}
    (hs : s.boundary.low = o) (hlt : o.all (· < start)) :
    (s.enter start).boundary.low = o.or (some start) := by
  cases o with
  | none => simp [Session.enter, Boundary.enter, hs]
  | some low =>
    simp only [Option.all_some, decide_eq_true_eq] at hlt
    rw [Session.enter_of_lt hs hlt, hs]
    rfl

/-- What is nested in markup is nested in the outermost markup around it. -/
theorem Part.isNested_or {part : Part} {o : Option Nat} {start : Nat} (hlt : o.all (· < start))
    (h : part.isNested (some start)) : part.isNested (o.or (some start)) := by
  cases o with
  | none => exact h
  | some low =>
    simp only [Option.all_some, decide_eq_true_eq] at hlt
    have hle := Nat.le_of_lt hlt
    cases part with
    | tree t => exact Tree.isNested_of_le hle h
    | trees ts => exact Tree.areNested_of_le hle h
    | markup m => exact Markup.isNested_of_le hle h
    | attributes items => exact Attribute.areNested_of_le hle h
    | children items => exact Child.areNested_of_le hle h

namespace Visit

variable {settings : Settings}

theorem Invariant.step {v w : Visit} (hv : v.Invariant) (h : Step settings v w) : w.Invariant := by
  obtain ⟨low, nested, inside⟩ := hv
  cases h with
  | node form children scopes s o => exact ⟨low, nested, nofun⟩
  | markup m scopes s o => exact ⟨low, nested, nofun⟩
  | first tree rest scopes s o =>
    simp only [Part.isNested, Tree.areNested, Bool.and_eq_true] at nested
    exact ⟨low, nested.1, nofun⟩
  | rest others o h =>
    simp only [Part.isNested, Tree.areNested, Bool.and_eq_true] at nested
    exact ⟨Tree.low_of_lower low nested.1 h, nested.2, nofun⟩
  | attributes start tag items children scopes s o =>
    simp only [Part.isNested, Markup.isNested, Bool.and_eq_true] at nested
    exact ⟨Session.low_enter low nested.1, Part.isNested_or nested.1 nested.2.1, by simp⟩
  | @children start _ items _ _ scopes s s' children o ha _ =>
    simp only [Part.isNested, Markup.isNested, Bool.and_eq_true] at nested
    have enter := Session.low_enter low nested.1
    refine ⟨?_, Part.isNested_or nested.1 nested.2.2, by simp⟩
    -- the attributes are lowered inside the element, so they leave the session as it is
    obtain ⟨outer, houter⟩ : ∃ outer, o.or (some start) = some outer := by cases o <;> simp
    have nestedIn : (Part.attributes items).isNested (some outer) :=
      houter ▸ Part.isNested_or nested.1 nested.2.1
    rw [Attribute.lowerAll_interior settings (enter.trans houter) scopes items nestedIn] at ha
    obtain ⟨-, rfl⟩ := Lower.session_of_gate ha
    exact enter
  | fragment start children scopes s o =>
    simp only [Part.isNested, Markup.isNested, Bool.and_eq_true] at nested
    exact ⟨Session.low_enter low nested.1, Part.isNested_or nested.1 nested.2, by simp⟩
  | @inAttribute item part rest scopes s o h =>
    simp only [Part.isNested, Attribute.areNested, Bool.and_eq_true] at nested
    cases item with
    | flag name => cases h
    | text name raw => cases h
    | container name value => cases h; exact ⟨low, nested.1, nofun⟩
    | markup name value => cases h; exact ⟨low, nested.1, nofun⟩
    | spread argument => cases h; exact ⟨low, nested.1, nofun⟩
  | @nextAttribute item _ scopes s s' rest o h =>
    simp only [Part.isNested, Attribute.areNested, Bool.and_eq_true] at nested
    obtain ⟨outer, rfl⟩ := Option.isSome_iff_exists.mp (inside rfl)
    rw [Attribute.lower_interior settings low scopes item nested.1] at h
    obtain ⟨-, rfl⟩ := Lower.session_of_gate h
    exact ⟨low, nested.2, inside⟩
  | @inChild item part rest scopes s o h =>
    simp only [Part.isNested, Child.areNested, Bool.and_eq_true] at nested
    cases item with
    | text raw => cases h
    | empty => cases h
    | container value => cases h; exact ⟨low, nested.1, nofun⟩
    | markup value => cases h; exact ⟨low, nested.1, nofun⟩
    | spread argument => cases h; exact ⟨low, nested.1, nofun⟩
  | @nextChild item _ scopes s s' rest o h =>
    simp only [Part.isNested, Child.areNested, Bool.and_eq_true] at nested
    obtain ⟨outer, rfl⟩ := Option.isSome_iff_exists.mp (inside rfl)
    rw [Child.lower_interior settings low scopes item nested.1] at h
    obtain ⟨-, rfl⟩ := Lower.session_of_gate h
    exact ⟨low, nested.2, inside⟩

/-! ## A whole run -/

/-- The invariant holds at every call of a run. -/
theorem invariant_of_reach {bindings : Scopes} {program : Tree} {v : Visit}
    (hn : program.isNested none) (h : Reached settings bindings program v) : v.Invariant := by
  induction h with
  | refl => exact ⟨rfl, hn, nofun⟩
  | tail _ step ih => exact ih.step step

end Visit

end JsxLowering
