import JsxLowering.Proofs.Nesting
import Mathlib.Data.List.Forall2

/-!
# The stack of scopes

The lowering is given the scopes around a tree. `Tree.walk` keeps them on a stack instead: it opens
a scope when it comes to a node that forms one and closes it when it leaves the node, it goes on
over the rest of the program after a failure, and markup starts walks of its own over the values in
it. Walk and lowering have the same outcome. The walk records each tag that it resolves with the
stack of that moment, and the stack binds exactly the names that the nodes around the element bind.
-/

namespace JsxLowering

/-! ## The walk -/

/-- The state of a walk. -/
structure Walker where
  /-- The scopes that are open, innermost first. -/
  stack : Scopes
  session : Session := {}
  /-- The first failure, until markup around it takes it up. -/
  failure : Option Failure := none
  /-- The elements whose tags were resolved, with the stack at that moment. -/
  resolved : List Occurrence := []

/-- A part of a walk. A failure is left in the state. -/
abbrev Walk := StateM Walker

/-- A part of a walk that a failure ends. -/
abbrev Attempt := ExceptT Failure Walk

namespace Walk

/-- Opens a scope. -/
def push (scope : Scope) : Walk Unit := fun w => ((), { w with stack := scope :: w.stack })

/-- Closes the innermost scope. -/
def pop : Walk Unit := fun w => ((), { w with stack := w.stack.tail })

/-- A part of a walk inside the scope that a node forms, if it forms one. -/
def within {α : Type} (scope? : Option Scope) (body : Walk α) : Walk α :=
  match scope? with
  | some scope => do
    push scope
    let result ← body
    pop
    pure result
  | none => body

/-- Lowers markup, unless there was a failure before. Markup that fails stays as it is. -/
def replace (markup : Tree) (lowering : Attempt Tree) : Walk Tree := fun w =>
  if w.failure.isSome then (markup, w)
  else match lowering w with
    | (.ok result, w) => (result, w)
    | (.error failure, w) => (markup, { w with failure := some failure })

end Walk

namespace Attempt

/-- A walk over a value in markup. Its failure is taken up. -/
def nested {α : Type} (body : Walk α) : Attempt α := fun w =>
  match body w with
  | (result, w) =>
    match w.failure with
    | some failure => (.error failure, { w with failure := none })
    | none => (.ok result, w)

/-- Opens markup. -/
def enter (start : Nat) : Attempt Unit := fun w =>
  (.ok (), { w with session := w.session.enter start })

/-- Closes markup. -/
def leave (text : String) (start : Nat) : Attempt Tree := fun w =>
  match w.session.exit text start with
  | (result, session) => (result, { w with session })

/-- Resolves the tag of an element against the stack. -/
def resolve (settings : Settings) (tag : TagName) (start : Nat) : Attempt ResolvedTag := fun w =>
  let w' := { w with resolved := w.resolved ++ [⟨w.stack, tag, start⟩] }
  match tag.resolve settings.rules w.stack.binds with
  | .ok tag => (.ok tag, w')
  | .error fault => (.error ⟨fault, start⟩, w')

end Attempt

mutual

/-- Walks over a tree and replaces the markup in it. -/
def Tree.walk (settings : Settings) : Tree → Walk Tree
  | .leaf content => pure (.leaf content)
  | .node form children => do
    let children ← Walk.within (form.scope? children) (Tree.walkAll settings children)
    pure (.node form children)
  | .markup value => Walk.replace (.markup value) (value.walk settings)

def Tree.walkAll (settings : Settings) : List Tree → Walk (List Tree)
  | [] => pure []
  | tree :: rest => do
    let tree ← tree.walk settings
    let rest ← Tree.walkAll settings rest
    pure (tree :: rest)

/-- Lowers an element or a fragment. -/
def Markup.walk (settings : Settings) : Markup → Attempt Tree
  | .element start tag attributes children => do
    Attempt.enter start
    let properties ← Attribute.walkAll settings attributes
    let tag ← Attempt.resolve settings tag start
    let children ← Child.walkAll settings children
    Attempt.leave (compose tag.text (propertyText properties) (childrenText children)) start
  | .fragment start children => do
    Attempt.enter start
    let children ← Child.walkAll settings children
    Attempt.leave (childrenText children) start

def Attribute.walk (settings : Settings) : Attribute → Attempt Property
  | .flag name => pure (.named name Property.flagValue none)
  | .text name raw => pure (.named name (Property.textValue raw) none)
  | .container name value => do
    let result ← Attempt.nested (value.walk settings)
    pure (.named name result (settings.placeholder? value))
  | .markup name value => do
    let value ← value.walk settings
    pure (.named name value none)
  | .spread argument => do
    let argument ← Attempt.nested (argument.walk settings)
    pure (.spread argument)

def Attribute.walkAll (settings : Settings) : List Attribute → Attempt (List Property)
  | [] => pure []
  | first :: rest => do
    let first ← first.walk settings
    let rest ← Attribute.walkAll settings rest
    pure (first :: rest)

def Child.walk (settings : Settings) : Child → Attempt Contribution
  | .text raw =>
    match Text.clean raw with
    | some content => pure (.text content)
    | none => pure .inert
  | .empty => pure .inert
  | .container value => do
    let result ← Attempt.nested (value.walk settings)
    pure (.ofTree result (settings.placeholder? value))
  | .markup value => do
    let value ← value.walk settings
    pure (.ofTree value none)
  | .spread argument => do
    let argument ← Attempt.nested (argument.walk settings)
    pure (.dynamic argument none)

def Child.walkAll (settings : Settings) : List Child → Attempt (List Contribution)
  | [] => pure []
  | first :: rest => do
    let first ← first.walk settings
    let rest ← Child.walkAll settings rest
    pure (first :: rest)

end

/-! ## Places -/

/-- A node of a tree. -/
structure Node where
  form : Form
  children : List Tree

/-- The scope that a node forms around its children, if it forms one. -/
def Node.scope? (node : Node) : Option Scope := node.form.scope? node.children

/-- The place of an element in a program: the nodes around it, innermost first. -/
structure Placed where
  around : List Node
  tag : TagName
  start : Nat

mutual

/-- The elements of a tree at their places, in the order in which their tags are resolved. -/
def Tree.placed (around : List Node) : Tree → List Placed
  | .leaf _ => []
  | .node form children => Tree.placedIn (⟨form, children⟩ :: around) children
  | .markup value => value.placed around

def Tree.placedIn (around : List Node) : List Tree → List Placed
  | [] => []
  | tree :: rest => tree.placed around ++ Tree.placedIn around rest

def Markup.placed (around : List Node) : Markup → List Placed
  | .element start tag attributes children =>
    Attribute.placedIn around attributes ++ ⟨around, tag, start⟩ :: Child.placedIn around children
  | .fragment _ children => Child.placedIn around children

def Attribute.placed (around : List Node) : Attribute → List Placed
  | .flag _ => []
  | .text _ _ => []
  | .container _ value => value.placed around
  | .markup _ value => value.placed around
  | .spread argument => argument.placed around

def Attribute.placedIn (around : List Node) : List Attribute → List Placed
  | [] => []
  | first :: rest => first.placed around ++ Attribute.placedIn around rest

def Child.placed (around : List Node) : Child → List Placed
  | .text _ => []
  | .empty => []
  | .container value => value.placed around
  | .markup value => value.placed around
  | .spread argument => argument.placed around

def Child.placedIn (around : List Node) : List Child → List Placed
  | [] => []
  | first :: rest => first.placed around ++ Child.placedIn around rest

end

namespace Placed

/-- The scopes at a place; `bindings` are the scopes around the program. -/
def scopesAt (bindings : Scopes) (around : List Node) : Scopes :=
  around.filterMap Node.scope? ++ bindings

/-- The element with the scopes at its place. -/
def occurrence (bindings : Scopes) (p : Placed) : Occurrence :=
  ⟨scopesAt bindings p.around, p.tag, p.start⟩

/-- A node adds its own scope to those at its place, if it forms one. -/
theorem scopesAt_cons (bindings : Scopes) (node : Node) (around : List Node) :
    scopesAt bindings (node :: around) = node.scope?.toList ++ scopesAt bindings around := by
  unfold scopesAt
  rw [List.filterMap_cons]
  cases node.scope? <;> rfl

end Placed

/-! ## Walks after a failure -/

namespace Walk

variable {α β : Type}

/-- The second part of a walk starts from the state that the first one leaves. -/
theorem bind_apply (x : Walk α) (f : α → Walk β) (w : Walker) :
    (x >>= f) w = f (x w).1 (x w).2 := rfl

/-- What is inside a scope runs with it on the stack, and the stack is cut back after it. -/
theorem within_some (scope : Scope) (body : Walk α) (w : Walker) :
    within (some scope) body w
      = ((body { w with stack := scope :: w.stack }).1,
          { (body { w with stack := scope :: w.stack }).2 with
            stack := (body { w with stack := scope :: w.stack }).2.stack.tail }) := rfl

end Walk

section
variable {settings : Settings}

mutual

/-- After a failure a walk opens and closes scopes, and changes nothing in the end. -/
theorem Tree.walk_of_failed : (tree : Tree) → {w : Walker} → w.failure.isSome →
    tree.walk settings w = (tree, w)
  | .leaf _, _, _ => rfl
  | .node form children, w, h => by
    rw [Tree.walk, Walk.bind_apply]
    cases form.scope? children with
    | none =>
      rw [Walk.within, Tree.walkAll_of_failed children h]
      rfl
    | some scope =>
      have inner := Tree.walkAll_of_failed children (w := { w with stack := scope :: w.stack }) h
      rw [Walk.within_some, inner]
      rfl
  | .markup _, _, h => if_pos h

/-- After a failure a walk over a list changes nothing. -/
theorem Tree.walkAll_of_failed : (trees : List Tree) → {w : Walker} → w.failure.isSome →
    Tree.walkAll settings trees w = (trees, w)
  | [], _, _ => rfl
  | tree :: rest, w, h => by
    rw [Tree.walkAll, Walk.bind_apply, Tree.walk_of_failed tree h, Walk.bind_apply,
      Tree.walkAll_of_failed rest h]
    rfl

end

end

/-! ## Walks without a failure -/

/-- A part of a walk does what a part of the lowering does. It leaves the stack as it was, and it
resolves the tags of the elements in `found`; if it fails, it resolves the first of them. -/
def Walk.Follows {α : Type} (x : Walk α) (y : Lower α) (scopes : Scopes)
    (found : List Occurrence) : Prop :=
  ∀ w : Walker, w.stack = scopes → w.failure = none →
    match y w.session with
    | .ok (a, session) => x w = (a, { w with session, resolved := w.resolved ++ found })
    | .error failure => ∃ a session reached, reached <+: found
        ∧ x w = (a, ⟨scopes, session, some failure, w.resolved ++ reached⟩)

/-- The same for a part of a walk that a failure ends. -/
def Attempt.Follows {α : Type} (x : Attempt α) (y : Lower α) (scopes : Scopes)
    (found : List Occurrence) : Prop :=
  ∀ w : Walker, w.stack = scopes → w.failure = none →
    match y w.session with
    | .ok (a, session) => x w = (.ok a, { w with session, resolved := w.resolved ++ found })
    | .error failure => ∃ session reached, reached <+: found
        ∧ x w = (.error failure, { w with session, resolved := w.resolved ++ reached })

namespace Attempt

variable {α β : Type} {scopes : Scopes} {found more : List Occurrence}

theorem bind_apply (x : Attempt α) (f : α → Attempt β) (w : Walker) :
    (x >>= f) w = match x w with
      | (.ok a, w) => f a w
      | (.error failure, w) => (.error failure, w) := by
  show (match x w with | (a, w) => ExceptT.bindCont f a w) = _
  rcases x w with ⟨_ | _, w⟩ <;> rfl

theorem Follows.pure (a : α) : Follows (Pure.pure a) (Pure.pure a) scopes [] := by
  intro w _ _
  show _ = (Except.ok a, { w with resolved := w.resolved ++ [] })
  rw [List.append_nil]
  rfl

/-- Two parts in a row: a failure of the first ends both, and else the elements of the second come
after. -/
theorem Follows.bind {x : Attempt α} {y : Lower α} {f : α → Attempt β} {g : α → Lower β}
    (hx : Follows x y scopes found) (hf : ∀ a, Follows (f a) (g a) scopes more) :
    Follows (x >>= f) (y >>= g) scopes (found ++ more) := by
  intro w hs hn
  have first := hx w hs hn
  rw [Lower.bind_apply, bind_apply]
  cases hy : y w.session with
  | error failure =>
    rw [hy] at first
    obtain ⟨session, reached, before, run⟩ := first
    exact ⟨session, reached, before.trans (List.prefix_append _ _), by rw [run]⟩
  | ok result =>
    rw [hy] at first
    have second := hf result.1 { w with session := result.2, resolved := w.resolved ++ found } hs hn
    simp only [Except.bind] at first ⊢
    rw [first]
    -- the second part fails or not, and in both cases the elements of the first come before
    cases hg : g result.1 result.2 with
    | error failure =>
      rw [hg] at second
      obtain ⟨session, reached, before, run⟩ := second
      refine ⟨session, found ++ reached, (List.prefix_append_right_inj _).mpr before, ?_⟩
      simp only [run, List.append_assoc]
    | ok last =>
      rw [hg] at second
      simp only [second, List.append_assoc]

/-- A function of the value. -/
theorem Follows.map {x : Attempt α} {y : Lower α} (hx : Follows x y scopes found) (f : α → β) :
    Follows (x >>= fun a => Pure.pure (f a)) (y >>= fun a => Pure.pure (f a)) scopes found := by
  rw [← List.append_nil found]
  exact hx.bind fun a => Follows.pure (f a)

/-- Opening markup moves the boundary on both sides. -/
theorem Follows.enter (start : Nat) :
    Follows (Attempt.enter start) (Lower.enter start) scopes [] := by
  intro w _ _
  show _ = (Except.ok (), { w with session := _, resolved := w.resolved ++ [] })
  rw [List.append_nil]
  rfl

/-- Closing markup gives the same text or function on both sides, and the same failure. -/
theorem Follows.leave (text : String) (start : Nat) :
    Follows (Attempt.leave text start) (Lower.leave text start) scopes [] := by
  intro w _ _
  unfold Attempt.leave Lower.leave
  rcases w.session.exit text start with ⟨failure | tree, session⟩
  · exact ⟨session, [], List.prefix_refl _, by rw [List.append_nil]⟩
  · simp only [List.append_nil]

/-- The tag of an element is resolved against the stack, and recorded with it. -/
theorem Follows.resolve (settings : Settings) (tag : TagName) (start : Nat) :
    Follows (Attempt.resolve settings tag start) (Lower.resolve settings scopes tag start) scopes
      [⟨scopes, tag, start⟩] := by
  intro w hs _
  subst hs
  unfold Attempt.resolve Lower.resolve
  cases tag.resolve settings.rules w.stack.binds with
  | error fault => exact ⟨w.session, _, List.prefix_refl _, rfl⟩
  | ok resolved => rfl

end Attempt

namespace Walk

variable {α β : Type} {scopes : Scopes} {found more : List Occurrence}

theorem Follows.pure (a : α) : Follows (Pure.pure a) (Pure.pure a) scopes [] := by
  intro w _ _
  show _ = (a, { w with resolved := w.resolved ++ [] })
  rw [List.append_nil]
  rfl

/-- The second part also runs after a failure of the first, and changes nothing then. -/
theorem Follows.bind {x : Walk α} {y : Lower α} {f : α → Walk β} {g : α → Lower β}
    (hx : Follows x y scopes found) (hf : ∀ a, Follows (f a) (g a) scopes more)
    (failed : ∀ (a : α) (w : Walker), w.failure.isSome → (f a w).2 = w) :
    Follows (x >>= f) (y >>= g) scopes (found ++ more) := by
  intro w hs hn
  have first := hx w hs hn
  rw [Lower.bind_apply, bind_apply]
  cases hy : y w.session with
  | error failure =>
    rw [hy] at first
    obtain ⟨a, session, reached, before, run⟩ := first
    -- the value of the second part is whatever it gives after a failure
    refine ⟨_, session, reached, before.trans (List.prefix_append _ _), Prod.ext rfl ?_⟩
    rw [run]
    exact failed a _ rfl
  | ok result =>
    rw [hy] at first
    have second := hf result.1 { w with session := result.2, resolved := w.resolved ++ found } hs hn
    simp only [Except.bind] at first ⊢
    rw [first]
    cases hg : g result.1 result.2 with
    | error failure =>
      rw [hg] at second
      obtain ⟨a, session, reached, before, run⟩ := second
      refine ⟨a, session, found ++ reached, (List.prefix_append_right_inj _).mpr before, ?_⟩
      simp only [run, List.append_assoc]
    | ok last =>
      rw [hg] at second
      simp only [second, List.append_assoc]

theorem Follows.map {x : Walk α} {y : Lower α} (hx : Follows x y scopes found) (f : α → β) :
    Follows (x >>= fun a => Pure.pure (f a)) (y >>= fun a => Pure.pure (f a)) scopes found := by
  rw [← List.append_nil found]
  exact hx.bind (fun a => Follows.pure (f a)) fun _ _ _ => rfl

/-- A scope that is opened before a part is closed after it, whether the part fails or not. -/
theorem Follows.within {x : Walk α} {y : Lower α} {scope? : Option Scope}
    (hx : Follows x y (scope?.toList ++ scopes) found) :
    Follows (Walk.within scope? x) y scopes found := by
  intro w hs hn
  cases scope? with
  | none => exact hx w hs hn
  | some scope =>
    have inner := hx { w with stack := scope :: w.stack } (congrArg (scope :: ·) hs) hn
    rw [within_some]
    -- the body leaves the scope on top of the stack, so the tail is the stack before
    cases hy : y w.session with
    | error failure =>
      simp only [hy] at inner
      obtain ⟨a, session, reached, before, run⟩ := inner
      exact ⟨a, session, reached, before, by rw [run]; rfl⟩
    | ok result =>
      simp only [hy] at inner
      simp only [inner]
      rfl

/-- A walk over a value in markup. -/
theorem Follows.nested {x : Walk α} {y : Lower α} (hx : Follows x y scopes found) :
    (Attempt.nested x).Follows y scopes found := by
  intro w hs hn
  have inner := hx w hs hn
  unfold Attempt.nested
  cases hy : y w.session with
  | error failure =>
    rw [hy] at inner
    obtain ⟨a, session, reached, before, run⟩ := inner
    refine ⟨session, reached, before, ?_⟩
    rw [run, ← hs, ← hn]
  | ok result =>
    rw [hy] at inner
    simp only [inner, hn]

end Walk

/-- Markup that is lowered in the place of a tree. -/
theorem Attempt.Follows.replace {scopes : Scopes} {found : List Occurrence} {x : Attempt Tree}
    {y : Lower Tree} (hx : x.Follows y scopes found) (markup : Tree) :
    (Walk.replace markup x).Follows y scopes found := by
  intro w hs hn
  have inner := hx w hs hn
  have unfailed : ¬ w.failure.isSome := by simp [hn]
  unfold Walk.replace
  rw [if_neg unfailed]
  cases hy : y w.session with
  | error failure =>
    rw [hy] at inner
    obtain ⟨session, reached, before, run⟩ := inner
    exact ⟨markup, session, reached, before, by rw [run, ← hs]⟩
  | ok result =>
    rw [hy] at inner
    simp only [inner]

/-! ## The walk and the lowering -/

section
variable (settings : Settings) (bindings : Scopes)

mutual

/-- A walk over a tree does what its lowering does, and resolves the tags of its elements against
the scopes at their places. -/
theorem Tree.walk_follows : (tree : Tree) → (around : List Node) →
    (tree.walk settings).Follows (tree.lower settings (Placed.scopesAt bindings around))
      (Placed.scopesAt bindings around)
      ((tree.placed around).map (Placed.occurrence bindings))
  | .leaf content, _ => Walk.Follows.pure (Tree.leaf content)
  | .node form children, around => by
    have inner := Tree.walkAll_follows children (⟨form, children⟩ :: around)
    rw [Placed.scopesAt_cons] at inner
    rw [Tree.walk, Tree.lower, Tree.placed, Form.enclose_eq]
    exact inner.within.map _
  | .markup value, around => (Markup.walk_follows value around).replace (.markup value)

/-- The walk over a list goes tree by tree; after a failure the rest changes nothing. -/
theorem Tree.walkAll_follows : (trees : List Tree) → (around : List Node) →
    (Tree.walkAll settings trees).Follows
      (Tree.lowerAll settings (Placed.scopesAt bindings around) trees)
      (Placed.scopesAt bindings around)
      ((Tree.placedIn around trees).map (Placed.occurrence bindings))
  | [], _ => Walk.Follows.pure []
  | tree :: rest, around => by
    rw [Tree.walkAll, Tree.lowerAll, Tree.placedIn, List.map_append]
    apply (Tree.walk_follows tree around).bind
    · intro first
      exact (Tree.walkAll_follows rest around).map _
    · intro first w failed
      rw [Walk.bind_apply, Tree.walkAll_of_failed rest failed]
      rfl

/-- An element resolves its tag between its attributes and its children, on both sides. -/
theorem Markup.walk_follows : (m : Markup) → (around : List Node) →
    (m.walk settings).Follows (m.lower settings (Placed.scopesAt bindings around))
      (Placed.scopesAt bindings around)
      ((m.placed around).map (Placed.occurrence bindings))
  | .element start tag attributes children, around => by
    rw [Markup.walk, Markup.lower, Markup.placed, List.map_append, List.map_cons]
    -- entering and leaving resolve no tag
    rw [← List.nil_append (List.map _ _ ++ _), ← List.singleton_append,
      ← List.append_nil (List.map _ (Child.placedIn around children))]
    apply (Attempt.Follows.enter start).bind
    intro _
    apply (Attribute.walkAll_follows attributes around).bind
    intro properties
    apply (Attempt.Follows.resolve settings tag start).bind
    intro resolved
    apply (Child.walkAll_follows children around).bind
    intro contributions
    exact Attempt.Follows.leave _ start
  | .fragment start children, around => by
    rw [Markup.walk, Markup.lower, Markup.placed, ← List.nil_append (List.map _ _),
      ← List.append_nil (List.map _ _)]
    apply (Attempt.Follows.enter start).bind
    intro _
    apply (Child.walkAll_follows children around).bind
    intro contributions
    exact Attempt.Follows.leave _ start

theorem Attribute.walk_follows : (item : Attribute) → (around : List Node) →
    (item.walk settings).Follows (item.lower settings (Placed.scopesAt bindings around))
      (Placed.scopesAt bindings around)
      ((item.placed around).map (Placed.occurrence bindings))
  | .flag _, _ => Attempt.Follows.pure _
  | .text _ _, _ => Attempt.Follows.pure _
  | .container _ value, around => (Tree.walk_follows value around).nested.map _
  | .markup _ value, around => (Markup.walk_follows value around).map _
  | .spread argument, around => (Tree.walk_follows argument around).nested.map _

theorem Attribute.walkAll_follows : (items : List Attribute) → (around : List Node) →
    (Attribute.walkAll settings items).Follows
      (Attribute.lowerAll settings (Placed.scopesAt bindings around) items)
      (Placed.scopesAt bindings around)
      ((Attribute.placedIn around items).map (Placed.occurrence bindings))
  | [], _ => Attempt.Follows.pure []
  | item :: rest, around => by
    rw [Attribute.walkAll, Attribute.lowerAll, Attribute.placedIn, List.map_append]
    apply (Attribute.walk_follows item around).bind
    intro first
    exact (Attribute.walkAll_follows rest around).map _

/-- A value among children is walked over on its own, markup among them is not. -/
theorem Child.walk_follows : (item : Child) → (around : List Node) →
    (item.walk settings).Follows (item.lower settings (Placed.scopesAt bindings around))
      (Placed.scopesAt bindings around)
      ((item.placed around).map (Placed.occurrence bindings))
  | .text raw, _ => by
    rw [Child.walk, Child.lower, Child.placed]
    cases Text.clean raw with
    | none => exact Attempt.Follows.pure _
    | some content => exact Attempt.Follows.pure _
  | .empty, _ => Attempt.Follows.pure _
  | .container value, around => (Tree.walk_follows value around).nested.map _
  | .markup value, around => (Markup.walk_follows value around).map _
  | .spread argument, around => (Tree.walk_follows argument around).nested.map _

theorem Child.walkAll_follows : (items : List Child) → (around : List Node) →
    (Child.walkAll settings items).Follows
      (Child.lowerAll settings (Placed.scopesAt bindings around) items)
      (Placed.scopesAt bindings around)
      ((Child.placedIn around items).map (Placed.occurrence bindings))
  | [], _ => Attempt.Follows.pure []
  | item :: rest, around => by
    rw [Child.walkAll, Child.lowerAll, Child.placedIn, List.map_append]
    apply (Child.walk_follows item around).bind
    intro first
    exact (Child.walkAll_follows rest around).map _

end

end

/-- A walk over a tree leaves the stack as it was, also if it fails or comes after a failure. -/
theorem Tree.stack_walk (settings : Settings) (tree : Tree) (w : Walker) :
    (tree.walk settings w).2.stack = w.stack := by
  -- before a failure the walk follows the lowering, which is given the scopes and keeps none
  by_cases failed : w.failure.isSome
  · rw [Tree.walk_of_failed tree failed]
  · have unfailed : w.failure = none := by simpa using failed
    have run := Tree.walk_follows settings w.stack tree [] w rfl unfailed
    cases hl : tree.lower settings (Placed.scopesAt w.stack []) w.session with
    | error failure =>
      rw [hl] at run
      obtain ⟨left, session, reached, -, run⟩ := run
      rw [run]
      rfl
    | ok result =>
      rw [hl] at run
      simp only [run]

/-! ## Whole programs -/

/-- The walk over a program; `bindings` are the scopes around it. -/
def walkProgram (settings : Settings) (bindings : Scopes) (program : Tree) : Tree × Walker :=
  program.walk settings { stack := bindings }

/-- What a walk over a program ends with. -/
def Walker.outcome (w : Walker) (program : Tree) : Except Failure Lowered :=
  match w.failure with
  | some failure => .error failure
  | none => .ok { program, boundaries := w.session.compiled }

/-- An element was resolved at a place: the stack of that moment binds a name exactly if a scope
around the program or a node around the place binds it. -/
structure Occurrence.IsAt (bindings : Scopes) (o : Occurrence) (p : Placed) : Prop where
  tag : o.tag = p.tag
  start : o.start = p.start
  binds : ∀ name, o.scopes.binds name
    ↔ bindings.binds name ∨ ∃ node ∈ p.around, ∃ scope, node.scope? = some scope ∧ name ∈ scope

/-- The scopes at a place bind what the nodes around it bind, and what is bound around the
program. -/
theorem Placed.isAt_occurrence (bindings : Scopes) (p : Placed) :
    (p.occurrence bindings).IsAt bindings p where
  tag := rfl
  start := rfl
  binds := by
    intro name
    have formed : Scopes.binds (p.around.filterMap Node.scope?) name
        ↔ ∃ node ∈ p.around, ∃ scope, node.scope? = some scope ∧ name ∈ scope := by
      rw [Scopes.binds_iff]
      constructor
      · rintro ⟨scope, hs, hn⟩
        obtain ⟨node, hm, formed⟩ := List.mem_filterMap.mp hs
        exact ⟨node, hm, scope, formed, hn⟩
      · rintro ⟨node, hm, scope, formed, hn⟩
        exact ⟨scope, List.mem_filterMap.mpr ⟨node, hm, formed⟩, hn⟩
    rw [Placed.occurrence, Placed.scopesAt, Scopes.binds_append, Bool.or_eq_true, formed]
    exact or_comm

/-- A walk over a program ends like its lowering, and resolves the tags of the elements up to the
first failure, in order and at their places. -/
theorem walkProgram_eq (settings : Settings) (bindings : Scopes) (program : Tree) :
    (walkProgram settings bindings program).2.outcome (walkProgram settings bindings program).1
        = lowerProgram settings bindings program
      ∧ ∃ reached, reached <+: program.placed []
          ∧ (walkProgram settings bindings program).2.resolved
              = reached.map (Placed.occurrence bindings)
          ∧ ((lowerProgram settings bindings program).toBool → reached = program.placed []) := by
  have run := Tree.walk_follows settings bindings program [] { stack := bindings } rfl rfl
  unfold walkProgram lowerProgram
  cases hl : program.lower settings bindings {} with
  | error failure =>
    simp only [Placed.scopesAt, List.filterMap_nil, List.nil_append, hl] at run
    obtain ⟨left, session, found, before, run⟩ := run
    obtain ⟨reached, first, rfl⟩ := List.prefix_map_iff.mp before
    rw [run]
    exact ⟨rfl, reached, first, rfl, nofun⟩
  | ok result =>
    simp only [Placed.scopesAt, List.filterMap_nil, List.nil_append, hl] at run
    rw [run]
    exact ⟨rfl, _, List.prefix_refl _, rfl, fun _ => rfl⟩

/-- The stack of scopes is the lexical environment. Whenever a walk over a program resolves the tag
of an element, the stack binds a name exactly if a scope around the program or a node around that
element binds it; all elements are resolved, or those up to the first failure. Any walk over any
tree leaves the stack as it was before, whether it fails or not. The walk ends like the
lowering. -/
theorem walkProgram_resolves_in_lexical_scopes (settings : Settings) (bindings : Scopes)
    (program : Tree) :
    (walkProgram settings bindings program).2.outcome (walkProgram settings bindings program).1
        = lowerProgram settings bindings program
      ∧ (∃ reached, reached <+: program.placed []
          ∧ List.Forall₂ (Occurrence.IsAt bindings)
              (walkProgram settings bindings program).2.resolved reached
          ∧ ((lowerProgram settings bindings program).toBool → reached = program.placed []))
      ∧ ∀ (tree : Tree) (w : Walker), (tree.walk settings w).2.stack = w.stack := by
  obtain ⟨outcome, reached, first, resolved, all⟩ := walkProgram_eq settings bindings program
  have places : List.Forall₂ (Occurrence.IsAt bindings)
      (walkProgram settings bindings program).2.resolved reached := by
    rw [resolved, List.forall₂_map_left_iff, List.forall₂_same]
    intro p _
    exact p.isAt_occurrence bindings
  exact ⟨outcome, ⟨reached, first, places, all⟩, fun tree w => Tree.stack_walk settings tree w⟩

/-- An element with a tag that an arrow function in its attribute binds, and that its child
misses. -/
def arrowTag : Tree :=
  .markup (.element 0 (.plain "p")
    [.container "a" (.node (.arrow false true)
       [.node .parameters [.identifier "A"], .markup (.element 13 (.reference "A") [] [])])]
    [.markup (.element 20 (.reference "A") [] [])])

example :
    let w := (walkProgram { captureScope := true, builtins := some ["p"] : Options }.settings []
      arrowTag).2
    (w.resolved.map fun o => (o.tag.text, o.scopes.binds "A"), w.stack, w.failure)
      = ([("A", true), ("p", false), ("A", false)], [], some ⟨.unresolvedTag "A", 20⟩) := by
  decide

end JsxLowering
