import JsxLowering.Proofs.MarkupText

/-!
# Nested markup

Markup inside other markup starts after it. For a tree in which it does, the lowering is described
without its session: interior markup becomes the text it denotes, outermost markup is compiled from
that text, and the tags of all elements are tried in the order of the pass.

* `Tree.lower_interior`: what becomes of a tree while other markup is open.
* `Tree.lower_exterior`: what becomes of a tree while no markup is open.
-/

namespace JsxLowering

/-! ## Offsets -/

mutual

/-- Whether all markup in the tree starts after the markup around it; `outer` is the start of the
markup around the tree. -/
def Tree.isNested (outer : Option Nat) : Tree → Bool
  | .leaf _ => true
  | .node _ children => Tree.areNested outer children
  | .markup value => value.isNested outer

def Tree.areNested (outer : Option Nat) : List Tree → Bool
  | [] => true
  | tree :: rest => tree.isNested outer && Tree.areNested outer rest

def Markup.isNested (outer : Option Nat) : Markup → Bool
  | .element start _ attributes children =>
    outer.all (· < start) && (Attribute.areNested (some start) attributes
      && Child.areNested (some start) children)
  | .fragment start children => outer.all (· < start) && Child.areNested (some start) children

def Attribute.isNested (outer : Option Nat) : Attribute → Bool
  | .flag _ => true
  | .text _ _ => true
  | .container _ value => value.isNested outer
  | .markup _ value => value.isNested outer
  | .spread argument => argument.isNested outer

def Attribute.areNested (outer : Option Nat) : List Attribute → Bool
  | [] => true
  | first :: rest => first.isNested outer && Attribute.areNested outer rest

def Child.isNested (outer : Option Nat) : Child → Bool
  | .text _ => true
  | .empty => true
  | .container value => value.isNested outer
  | .markup value => value.isNested outer
  | .spread argument => argument.isNested outer

def Child.areNested (outer : Option Nat) : List Child → Bool
  | [] => true
  | first :: rest => first.isNested outer && Child.areNested outer rest

end

/-- What is nested in markup is nested in markup that starts before it. -/
theorem Markup.isNested_of_le {low outer : Nat} (hle : low ≤ outer) {m : Markup}
    (h : m.isNested (some outer)) : m.isNested (some low) := by
  cases m with
  | element start tag attributes children =>
    simp only [Markup.isNested, Option.all_some, Bool.and_eq_true, decide_eq_true_eq] at h ⊢
    exact ⟨by omega, h.2⟩
  | fragment start children =>
    simp only [Markup.isNested, Option.all_some, Bool.and_eq_true, decide_eq_true_eq] at h ⊢
    exact ⟨by omega, h.2⟩

/-- Nested markup starts after the markup around it. -/
theorem Markup.lt_start {low : Nat} {m : Markup} (h : m.isNested (some low)) : low < m.start := by
  cases m with
  | element start tag attributes children =>
    simp only [Markup.isNested, Option.all_some, Bool.and_eq_true, decide_eq_true_eq] at h
    exact h.1
  | fragment start children =>
    simp only [Markup.isNested, Option.all_some, Bool.and_eq_true, decide_eq_true_eq] at h
    exact h.1

mutual

/-- A tree nested in markup is nested in markup that starts before it. -/
theorem Tree.isNested_of_le {low outer : Nat} (hle : low ≤ outer) :
    ∀ {tree : Tree}, tree.isNested (some outer) → tree.isNested (some low)
  | .leaf _, _ => rfl
  | .node _ _, h => Tree.areNested_of_le hle h
  | .markup _, h => Markup.isNested_of_le hle h

theorem Tree.areNested_of_le {low outer : Nat} (hle : low ≤ outer) :
    ∀ {trees : List Tree}, Tree.areNested (some outer) trees → Tree.areNested (some low) trees
  | [], _ => rfl
  | tree :: rest, h => by
    rw [Tree.areNested, Bool.and_eq_true] at h ⊢
    exact ⟨Tree.isNested_of_le hle h.1, Tree.areNested_of_le hle h.2⟩

end

theorem Attribute.areNested_of_le {low outer : Nat} (hle : low ≤ outer) {items : List Attribute}
    (h : Attribute.areNested (some outer) items) : Attribute.areNested (some low) items := by
  induction items with
  | nil => rfl
  | cons first rest ih =>
    rw [Attribute.areNested, Bool.and_eq_true] at h ⊢
    refine ⟨?_, ih h.2⟩
    cases first with
    | flag name => rfl
    | text name raw => rfl
    | container name value => exact Tree.isNested_of_le hle h.1
    | markup name value => exact Markup.isNested_of_le hle h.1
    | spread argument => exact Tree.isNested_of_le hle h.1

theorem Child.areNested_of_le {low outer : Nat} (hle : low ≤ outer) {items : List Child}
    (h : Child.areNested (some outer) items) : Child.areNested (some low) items := by
  induction items with
  | nil => rfl
  | cons first rest ih =>
    rw [Child.areNested, Bool.and_eq_true] at h ⊢
    refine ⟨?_, ih h.2⟩
    cases first with
    | text raw => rfl
    | empty => rfl
    | container value => exact Tree.isNested_of_le hle h.1
    | markup value => exact Markup.isNested_of_le hle h.1
    | spread argument => exact Tree.isNested_of_le hle h.1

/-! ## Elements and their tags -/

/-- An element of a tree: its tag, where it starts, and the scopes around it. -/
structure Occurrence where
  scopes : Scopes
  tag : TagName
  start : Nat

mutual

/-- The elements of a tree in the order in which their tags are resolved: within an element, those
in its attributes come before it, and those in its children after it. -/
def Tree.elements (scopes : Scopes) : Tree → List Occurrence
  | .leaf _ => []
  | .node form children => Tree.elementsIn (form.enclose children scopes) children
  | .markup value => value.elements scopes

def Tree.elementsIn (scopes : Scopes) : List Tree → List Occurrence
  | [] => []
  | tree :: rest => tree.elements scopes ++ Tree.elementsIn scopes rest

def Markup.elements (scopes : Scopes) : Markup → List Occurrence
  | .element start tag attributes children =>
    Attribute.elementsIn scopes attributes
      ++ ⟨scopes, tag, start⟩ :: Child.elementsIn scopes children
  | .fragment _ children => Child.elementsIn scopes children

def Attribute.elements (scopes : Scopes) : Attribute → List Occurrence
  | .flag _ => []
  | .text _ _ => []
  | .container _ value => value.elements scopes
  | .markup _ value => value.elements scopes
  | .spread argument => argument.elements scopes

def Attribute.elementsIn (scopes : Scopes) : List Attribute → List Occurrence
  | [] => []
  | first :: rest => first.elements scopes ++ Attribute.elementsIn scopes rest

def Child.elements (scopes : Scopes) : Child → List Occurrence
  | .text _ => []
  | .empty => []
  | .container value => value.elements scopes
  | .markup value => value.elements scopes
  | .spread argument => argument.elements scopes

def Child.elementsIn (scopes : Scopes) : List Child → List Occurrence
  | [] => []
  | first :: rest => first.elements scopes ++ Child.elementsIn scopes rest

end

namespace Occurrence

/-- Whether the tag of an element cannot be resolved. -/
def isMissing (rules : TagRules) (o : Occurrence) : Bool :=
  rules.captureScope && match o.tag.lookup? with
    | some (name, _) => rules.decide o.tag.text (o.scopes.binds name) = .missing
    | none => false

/-- The failure that an element whose tag cannot be resolved ends the lowering with. -/
def failure (o : Occurrence) : Failure := ⟨.unresolvedTag o.tag.text, o.start⟩

/-- The failure of the first element whose tag cannot be resolved. -/
def firstFailure (rules : TagRules) (found : List Occurrence) : Option Failure :=
  (found.find? (isMissing rules)).map failure

/-- The first failure of two lists is one of the first list, if there is one. -/
theorem firstFailure_append (rules : TagRules) (found more : List Occurrence) :
    firstFailure rules (found ++ more)
      = (firstFailure rules found).or (firstFailure rules more) := by
  rw [firstFailure, List.find?_append, Option.map_or]
  rfl

end Occurrence

/-- A tag that resolves keeps its text, and one that does not is missing. -/
theorem TagName.resolve_eq (rules : TagRules) (scopes : Scopes) (tag : TagName) (start : Nat) :
    if Occurrence.isMissing rules ⟨scopes, tag, start⟩ then
      tag.resolve rules scopes.binds = .error (.unresolvedTag tag.text)
    else ∃ resolved, tag.resolve rules scopes.binds = .ok resolved ∧ resolved.text = tag.text := by
  unfold TagName.resolve Occurrence.isMissing
  cases rules.captureScope with
  | false => exact ⟨_, rfl, rfl⟩
  | true =>
    cases tag.lookup? with
    | none => exact ⟨_, rfl, rfl⟩
    | some found =>
      cases h : rules.decide tag.text (scopes.binds found.1) with
      | intrinsic => simp [h, ResolvedTag.text]
      | bound => simp [h, ResolvedTag.text]
      | missing => simp [h]

/-! ## Steps of a lowering -/

namespace Lower

variable {α β : Type}

/-- Two steps in a row: the second starts from the session that the first leaves. -/
theorem bind_apply (x : Lower α) (f : α → Lower β) (s : Session) :
    (x >>= f) s = (x s).bind fun result => f result.1 result.2 := rfl

theorem bind_of_ok {x : Lower α} {a : α} {s s' : Session} (h : x s = .ok (a, s'))
    (f : α → Lower β) : (x >>= f) s = f a s' := by
  rw [bind_apply, h]
  rfl

/-- Two steps that succeed succeed one after the other. -/
theorem bind_eq_ok {x : Lower α} {f : α → Lower β} {s s' : Session} {b : β}
    (h : (x >>= f) s = .ok (b, s')) : ∃ a mid, x s = .ok (a, mid) ∧ f a mid = .ok (b, s') := by
  rw [bind_apply] at h
  cases hx : x s with
  | error failure =>
    rw [hx] at h
    cases h
  | ok result =>
    rw [hx] at h
    exact ⟨result.1, result.2, rfl, h⟩

/-- Gives a value once the tags of some elements are seen to resolve. -/
def gate (rules : TagRules) (found : List Occurrence) (a : α) : Lower α := fun s =>
  match Occurrence.firstFailure rules found with
  | some failure => .error failure
  | none => .ok (a, s)

/-- Two steps that only try tags are one step that tries the tags of both. -/
theorem bind_gate {rules : TagRules} {found more : List Occurrence} {x : Lower α} {a : α}
    {f : α → Lower β} {b : β} {s : Session} (hx : x s = gate rules found a s)
    (hf : f a s = gate rules more b s) : (x >>= f) s = gate rules (found ++ more) b s := by
  rw [bind_apply, hx]
  unfold gate at hf ⊢
  rw [Occurrence.firstFailure_append]
  cases Occurrence.firstFailure rules found with
  | some failure => rfl
  | none => exact hf

/-- A step that only tries tags and a function of its value. -/
theorem bind_gate_pure {rules : TagRules} {found : List Occurrence} {x : Lower α} {a : α}
    {s : Session} (hx : x s = gate rules found a s) (g : α → β) :
    (x >>= fun a => pure (g a)) s = gate rules found (g a) s := by
  rw [← List.append_nil found]
  exact bind_gate hx rfl

/-- The tag of an element is tried, and its text does not depend on how it resolves. -/
theorem bind_resolve {settings : Settings} {scopes : Scopes} {tag : TagName} {start : Nat}
    {f : ResolvedTag → Lower α} {g : String → Lower α} (hf : ∀ tag, f tag = g tag.text)
    (s : Session) :
    (resolve settings scopes tag start >>= f) s
      = (gate settings.rules [⟨scopes, tag, start⟩] tag.text >>= g) s := by
  have h := tag.resolve_eq settings.rules scopes start
  rw [bind_apply, bind_apply, resolve, gate, Occurrence.firstFailure, List.find?_singleton]
  cases hm : Occurrence.isMissing settings.rules ⟨scopes, tag, start⟩ with
  | true =>
    rw [hm, if_pos rfl] at h
    rw [h]
    rfl
  | false =>
    rw [hm, if_neg Bool.false_ne_true] at h
    obtain ⟨resolved, hr, ht⟩ := h
    rw [hr]
    simp only [Except.bind, hf, ht]
    rfl

end Lower

/-- A program is lowered if the run over it succeeds, and the run counts the templates. -/
theorem lowerProgram_eq_ok_iff {settings : Settings} {bindings : Scopes} {program : Tree}
    {lowered : Lowered} :
    lowerProgram settings bindings program = .ok lowered
      ↔ ∃ session, program.lower settings bindings {} = .ok (lowered.program, session)
          ∧ session.compiled = lowered.boundaries := by
  unfold lowerProgram
  cases program.lower settings bindings {} with
  | error failure =>
    constructor
    · exact nofun
    · rintro ⟨session, run, -⟩
      cases run
  | ok result =>
    constructor
    · intro h
      cases h
      exact ⟨result.2, rfl, rfl⟩
    · rintro ⟨session, run, count⟩
      cases run
      show Except.ok (Lowered.mk lowered.program session.compiled) = _
      rw [count]

/-- Entering markup inside the boundary leaves the session as it is. -/
theorem Session.enter_of_lt {s : Session} {low start : Nat} (hs : s.boundary.low = some low)
    (hlt : low < start) : s.enter start = s := by
  obtain ⟨⟨low'⟩, compiled⟩ := s
  subst hs
  simp [Session.enter, Boundary.enter, Nat.min_eq_left (Nat.le_of_lt hlt)]

/-- Inside the boundary markup becomes its text, and other markup is compiled from it. -/
theorem Lower.leave_eq (text : String) (start : Nat) (s : Session) :
    Lower.leave text start s
      = if s.boundary.isInterior start then .ok (.string text, s)
        else match Template.compile text with
          | .ok function => .ok (function, { boundary := {}, compiled := s.compiled + 1 })
          | .error fault => .error ⟨fault, start⟩ := by
  unfold Lower.leave Session.exit
  cases s.boundary.isInterior start with
  | true => rfl
  | false => cases Template.compile text <;> rfl

/-- Markup after the start of the boundary becomes its text and leaves the session as it is. -/
theorem Lower.leave_of_lt {s : Session} {low start : Nat} (hs : s.boundary.low = some low)
    (hlt : low < start) (text : String) : Lower.leave text start s = .ok (.string text, s) := by
  simp [Lower.leave_eq, Boundary.isInterior, hs, hlt]

/-! ## Interior markup -/

/-- The text that markup is closed with: all of its lowering but the last step. -/
def Markup.composed (settings : Settings) (scopes : Scopes) : Markup → Lower String
  | .element start tag attributes children => do
    Lower.enter start
    let properties ← Attribute.lowerAll settings scopes attributes
    let tag ← Lower.resolve settings scopes tag start
    let children ← Child.lowerAll settings scopes children
    pure (compose tag.text (propertyText properties) (childrenText children))
  | .fragment start children => do
    Lower.enter start
    let children ← Child.lowerAll settings scopes children
    pure (childrenText children)

/-- The last step of lowering markup closes it with its text. -/
theorem Markup.lower_eq_composed (settings : Settings) (scopes : Scopes) (m : Markup) :
    m.lower settings scopes
      = m.composed settings scopes >>= fun text => Lower.leave text m.start := by
  cases m with
  | element start tag attributes children =>
    simp only [Markup.lower, Markup.composed, Markup.start, bind_assoc, pure_bind]
  | fragment start children =>
    simp only [Markup.lower, Markup.composed, Markup.start, bind_assoc, pure_bind]

section
variable {settings : Settings} {scopes : Scopes} {s : Session} {start : Nat}

/-- An element is closed with the text it denotes, if its parts only try their tags. -/
theorem Markup.composed_element {tag : TagName} {attributes : List Attribute}
    {children : List Child}
    (ha : Attribute.lowerAll settings scopes attributes (s.enter start)
      = Lower.gate settings.rules (Attribute.elementsIn scopes attributes)
          (attributes.map (Attribute.property settings.memberPlaceholders)) (s.enter start))
    (hc : Child.lowerAll settings scopes children (s.enter start)
      = Lower.gate settings.rules (Child.elementsIn scopes children)
          (children.map (Child.contribution settings.memberPlaceholders)) (s.enter start)) :
    (Markup.element start tag attributes children).composed settings scopes s
      = Lower.gate settings.rules ((Markup.element start tag attributes children).elements scopes)
          ((Markup.element start tag attributes children).denoted settings.memberPlaceholders)
          (s.enter start) := by
  rw [Markup.composed, Lower.bind_of_ok rfl, Markup.elements, Markup.denoted,
    ← propertyText_map_property, ← childrenText_map_contribution, ← List.singleton_append]
  apply Lower.bind_gate ha
  -- only the text of the resolved tag is used after this point
  rw [Lower.bind_resolve (g := fun name => do
    let children ← Child.lowerAll settings scopes children
    pure (compose name _ (childrenText children))) (fun _ => rfl)]
  apply Lower.bind_gate rfl
  exact Lower.bind_gate_pure hc _

/-- A fragment is closed with the text it denotes, if its parts only try their tags. -/
theorem Markup.composed_fragment {children : List Child}
    (hc : Child.lowerAll settings scopes children (s.enter start)
      = Lower.gate settings.rules (Child.elementsIn scopes children)
          (children.map (Child.contribution settings.memberPlaceholders)) (s.enter start)) :
    (Markup.fragment start children).composed settings scopes s
      = Lower.gate settings.rules ((Markup.fragment start children).elements scopes)
          ((Markup.fragment start children).denoted settings.memberPlaceholders)
          (s.enter start) := by
  rw [Markup.composed, Lower.bind_of_ok rfl, Markup.elements, Markup.denoted,
    ← childrenText_map_contribution]
  exact Lower.bind_gate_pure hc _

end

/-- Markup that is closed inside the boundary becomes its text. -/
theorem Markup.lower_of_composed {settings : Settings} {scopes : Scopes} {s : Session} {low : Nat}
    {m : Markup} (hs : s.boundary.low = some low) (hlt : low < m.start)
    (hm : m.composed settings scopes s
      = Lower.gate settings.rules (m.elements scopes) (m.denoted settings.memberPlaceholders) s) :
    m.lower settings scopes s
      = Lower.gate settings.rules (m.elements scopes)
          (m.literal settings.memberPlaceholders) s := by
  rw [Markup.lower_eq_composed, Lower.bind_apply, hm]
  unfold Lower.gate
  -- a missing tag ends the lowering before the markup is closed
  cases Occurrence.firstFailure settings.rules (m.elements scopes) with
  | some failure => rfl
  | none => exact Lower.leave_of_lt hs hlt _

mutual

/-- While markup is open, lowering a tree tries the tags in it and turns its markup into text. -/
theorem Tree.lower_interior (settings : Settings) {low : Nat} {s : Session}
    (hs : s.boundary.low = some low) (scopes : Scopes) :
    ∀ tree : Tree, tree.isNested (some low) → tree.lower settings scopes s
      = Lower.gate settings.rules (tree.elements scopes)
          (tree.replaceMarkup (Markup.literal settings.memberPlaceholders)) s
  | .leaf content, _ => rfl
  | .node form children, h => by
    rw [Tree.lower, Tree.elements, Tree.replaceMarkup]
    have parts := Tree.lowerAll_interior settings hs (form.enclose children scopes) children h
    exact Lower.bind_gate_pure parts _
  | .markup value, h => by
    rw [Tree.lower, Tree.elements, Tree.replaceMarkup]
    exact Markup.lower_interior settings hs scopes value h

theorem Tree.lowerAll_interior (settings : Settings) {low : Nat} {s : Session}
    (hs : s.boundary.low = some low) (scopes : Scopes) :
    ∀ trees : List Tree, Tree.areNested (some low) trees →
      Tree.lowerAll settings scopes trees s
        = Lower.gate settings.rules (Tree.elementsIn scopes trees)
            (Tree.replaceMarkupIn (Markup.literal settings.memberPlaceholders) trees) s
  | [], _ => rfl
  | tree :: rest, h => by
    rw [Tree.areNested, Bool.and_eq_true] at h
    rw [Tree.lowerAll, Tree.elementsIn, Tree.replaceMarkupIn]
    apply Lower.bind_gate (Tree.lower_interior settings hs scopes tree h.1)
    exact Lower.bind_gate_pure (Tree.lowerAll_interior settings hs scopes rest h.2) _

/-- While other markup is open, markup is closed with the text it denotes. -/
theorem Markup.composed_interior (settings : Settings) {low : Nat} {s : Session}
    (hs : s.boundary.low = some low) (scopes : Scopes) :
    ∀ m : Markup, m.isNested (some low) → m.composed settings scopes s
      = Lower.gate settings.rules (m.elements scopes)
          (m.denoted settings.memberPlaceholders) s
  | .element start tag attributes children, h => by
    simp only [Markup.isNested, Option.all_some, Bool.and_eq_true, decide_eq_true_eq] at h
    obtain ⟨hlt, ha, hc⟩ := h
    have enter := Session.enter_of_lt hs hlt
    -- the parts are nested in this element, and so in the outermost one
    have ha := Attribute.lowerAll_interior settings hs scopes attributes
      (Attribute.areNested_of_le (Nat.le_of_lt hlt) ha)
    have hc := Child.lowerAll_interior settings hs scopes children
      (Child.areNested_of_le (Nat.le_of_lt hlt) hc)
    rw [Markup.composed_element (by rwa [enter]) (by rwa [enter]), enter]
  | .fragment start children, h => by
    simp only [Markup.isNested, Option.all_some, Bool.and_eq_true, decide_eq_true_eq] at h
    obtain ⟨hlt, hc⟩ := h
    have enter := Session.enter_of_lt hs hlt
    have hc := Child.lowerAll_interior settings hs scopes children
      (Child.areNested_of_le (Nat.le_of_lt hlt) hc)
    rw [Markup.composed_fragment (by rwa [enter]), enter]

/-- While other markup is open, markup becomes the text it denotes. -/
theorem Markup.lower_interior (settings : Settings) {low : Nat} {s : Session}
    (hs : s.boundary.low = some low) (scopes : Scopes) (m : Markup) (h : m.isNested (some low)) :
    m.lower settings scopes s
      = Lower.gate settings.rules (m.elements scopes) (m.literal settings.memberPlaceholders) s :=
  Markup.lower_of_composed hs (Markup.lt_start h) (Markup.composed_interior settings hs scopes m h)

/-- While markup is open, an attribute becomes a property with its text. -/
theorem Attribute.lower_interior (settings : Settings) {low : Nat} {s : Session}
    (hs : s.boundary.low = some low) (scopes : Scopes) :
    ∀ item : Attribute, item.isNested (some low) → item.lower settings scopes s
      = Lower.gate settings.rules (item.elements scopes)
          (item.property settings.memberPlaceholders) s
  | .flag _, _ => rfl
  | .text _ _, _ => rfl
  | .container _ value, h => by
    rw [Attribute.lower, Attribute.elements, Attribute.property]
    exact Lower.bind_gate_pure (Tree.lower_interior settings hs scopes value h) _
  | .markup _ value, h => by
    rw [Attribute.lower, Attribute.elements, Attribute.property]
    exact Lower.bind_gate_pure (Markup.lower_interior settings hs scopes value h) _
  | .spread argument, h => by
    rw [Attribute.lower, Attribute.elements, Attribute.property]
    exact Lower.bind_gate_pure (Tree.lower_interior settings hs scopes argument h) _

theorem Attribute.lowerAll_interior (settings : Settings) {low : Nat} {s : Session}
    (hs : s.boundary.low = some low) (scopes : Scopes) :
    ∀ items : List Attribute, Attribute.areNested (some low) items →
      Attribute.lowerAll settings scopes items s
        = Lower.gate settings.rules (Attribute.elementsIn scopes items)
            (items.map (Attribute.property settings.memberPlaceholders)) s
  | [], _ => rfl
  | first :: rest, h => by
    rw [Attribute.areNested, Bool.and_eq_true] at h
    rw [Attribute.lowerAll, Attribute.elementsIn, List.map_cons]
    apply Lower.bind_gate (Attribute.lower_interior settings hs scopes first h.1)
    exact Lower.bind_gate_pure (Attribute.lowerAll_interior settings hs scopes rest h.2) _

/-- While markup is open, a child becomes what it contributes. -/
theorem Child.lower_interior (settings : Settings) {low : Nat} {s : Session}
    (hs : s.boundary.low = some low) (scopes : Scopes) :
    ∀ item : Child, item.isNested (some low) → item.lower settings scopes s
      = Lower.gate settings.rules (item.elements scopes)
          (item.contribution settings.memberPlaceholders) s
  | .text raw, _ => by
    rw [Child.lower, Child.elements, Child.contribution]
    cases Text.clean raw <;> rfl
  | .empty, _ => rfl
  | .container value, h => by
    rw [Child.lower, Child.elements, Child.contribution]
    exact Lower.bind_gate_pure (Tree.lower_interior settings hs scopes value h) _
  | .markup value, h => by
    rw [Child.lower, Child.elements, Child.contribution]
    exact Lower.bind_gate_pure (Markup.lower_interior settings hs scopes value h) _
  | .spread argument, h => by
    rw [Child.lower, Child.elements, Child.contribution]
    exact Lower.bind_gate_pure (Tree.lower_interior settings hs scopes argument h) _

theorem Child.lowerAll_interior (settings : Settings) {low : Nat} {s : Session}
    (hs : s.boundary.low = some low) (scopes : Scopes) :
    ∀ items : List Child, Child.areNested (some low) items →
      Child.lowerAll settings scopes items s
        = Lower.gate settings.rules (Child.elementsIn scopes items)
            (items.map (Child.contribution settings.memberPlaceholders)) s
  | [], _ => rfl
  | first :: rest, h => by
    rw [Child.areNested, Bool.and_eq_true] at h
    rw [Child.lowerAll, Child.elementsIn, List.map_cons]
    apply Lower.bind_gate (Child.lower_interior settings hs scopes first h.1)
    exact Lower.bind_gate_pure (Child.lowerAll_interior settings hs scopes rest h.2) _

end

/-! ## Outermost markup -/

/-- Outermost markup is compiled from the text it denotes, once the tags in it are seen to
resolve. -/
def Markup.compile (settings : Settings) (scopes : Scopes) (m : Markup) : Except Failure Tree :=
  match Occurrence.firstFailure settings.rules (m.elements scopes) with
  | some failure => .error failure
  | none =>
    match Template.compile (m.denoted settings.memberPlaceholders) with
    | .ok function => .ok function
    | .error fault => .error ⟨fault, m.start⟩

mutual

/-- The tree with each outermost markup compiled, or the first failure on the way. -/
def Tree.compileMarkup (settings : Settings) (scopes : Scopes) : Tree → Except Failure Tree
  | .leaf content => .ok (.leaf content)
  | .node form children =>
    (Tree.compileMarkupIn settings (form.enclose children scopes) children).map (.node form)
  | .markup value => value.compile settings scopes

def Tree.compileMarkupIn (settings : Settings) (scopes : Scopes) :
    List Tree → Except Failure (List Tree)
  | [] => .ok []
  | tree :: rest => do
    let tree ← tree.compileMarkup settings scopes
    let rest ← Tree.compileMarkupIn settings scopes rest
    pure (tree :: rest)

end

/-- The session after some templates more. -/
def Session.afterTemplates (s : Session) (count : Nat) : Session :=
  { s with compiled := s.compiled + count }

/-- Templates are counted one after the other. -/
theorem Session.afterTemplates_add (s : Session) (a b : Nat) :
    (s.afterTemplates a).afterTemplates b = s.afterTemplates (a + b) := by
  simp only [Session.afterTemplates, Nat.add_assoc]

/-- With no markup open, entering markup makes it the boundary. -/
theorem Session.enter_of_unset {s : Session} (hs : s.boundary = {}) (start : Nat) :
    s.enter start = { s with boundary := ⟨some start⟩ } := by
  simp [Session.enter, Boundary.enter, hs]

/-- Closing the markup that set the boundary compiles it. -/
theorem Lower.leave_boundary (s : Session) (text : String) (start : Nat) :
    Lower.leave text start { s with boundary := ⟨some start⟩ }
      = match Template.compile text with
        | .ok function => .ok (function, { boundary := {}, compiled := s.compiled + 1 })
        | .error fault => .error ⟨fault, start⟩ := by
  simp only [Lower.leave_eq, Boundary.isInterior, Nat.lt_irrefl, decide_false, Bool.false_eq_true,
    if_false]

/-- Outermost markup sets the boundary, and is closed with the text it denotes. -/
theorem Markup.composed_exterior (settings : Settings) {s : Session} (hs : s.boundary = {})
    (scopes : Scopes) (m : Markup) (h : m.isNested none) :
    m.composed settings scopes s
      = Lower.gate settings.rules (m.elements scopes) (m.denoted settings.memberPlaceholders)
          { s with boundary := ⟨some m.start⟩ } := by
  cases m with
  | element start tag attributes children =>
    simp only [Markup.isNested, Bool.and_eq_true] at h
    have enter := Session.enter_of_unset hs start
    have ha := Attribute.lowerAll_interior settings (s := s.enter start) (by rw [enter]) scopes
      attributes h.2.1
    have hc := Child.lowerAll_interior settings (s := s.enter start) (by rw [enter]) scopes
      children h.2.2
    rw [Markup.composed_element ha hc, enter]
    rfl
  | fragment start children =>
    simp only [Markup.isNested, Bool.and_eq_true] at h
    have enter := Session.enter_of_unset hs start
    have hc := Child.lowerAll_interior settings (s := s.enter start) (by rw [enter]) scopes
      children h.2
    rw [Markup.composed_fragment hc, enter]
    rfl

/-- Outermost markup is compiled and counted, and the boundary is unset again. -/
theorem Markup.lower_exterior (settings : Settings) {s : Session} (hs : s.boundary = {})
    (scopes : Scopes) (m : Markup) (h : m.isNested none) :
    m.lower settings scopes s
      = (m.compile settings scopes).map fun function => (function, s.afterTemplates 1) := by
  -- the session at the end has the boundary of this markup, so closing it compiles
  rw [Markup.lower_eq_composed, Lower.bind_apply, Markup.composed_exterior settings hs scopes m h]
  unfold Lower.gate Markup.compile
  cases Occurrence.firstFailure settings.rules (m.elements scopes) with
  | some failure => rfl
  | none =>
    simp only [Except.bind, Lower.leave_boundary]
    cases Template.compile (m.denoted settings.memberPlaceholders) with
    | error fault => rfl
    | ok function => simp only [Except.map, Session.afterTemplates, hs]

mutual

/-- While no markup is open, lowering a tree compiles its outermost markup and counts it. -/
theorem Tree.lower_exterior (settings : Settings) {s : Session} (hs : s.boundary = {})
    (scopes : Scopes) :
    ∀ tree : Tree, tree.isNested none → tree.lower settings scopes s
      = (tree.compileMarkup settings scopes).map
          fun result => (result, s.afterTemplates tree.outermost.length)
  | .leaf content, _ => rfl
  | .node form children, h => by
    rw [Tree.lower, Lower.bind_apply, Tree.lowerAll_exterior settings hs _ children h,
      Tree.compileMarkup, Tree.outermost]
    cases Tree.compileMarkupIn settings (form.enclose children scopes) children <;> rfl
  | .markup value, h => Markup.lower_exterior settings hs scopes value h

/-- The outermost markup of a list is compiled tree by tree, and all of it is counted. -/
theorem Tree.lowerAll_exterior (settings : Settings) {s : Session} (hs : s.boundary = {})
    (scopes : Scopes) :
    ∀ trees : List Tree, Tree.areNested none trees → Tree.lowerAll settings scopes trees s
      = (Tree.compileMarkupIn settings scopes trees).map
          fun results => (results, s.afterTemplates (Tree.outermostIn trees).length)
  | [], _ => rfl
  | tree :: rest, h => by
    rw [Tree.areNested, Bool.and_eq_true] at h
    rw [Tree.lowerAll, Lower.bind_apply, Tree.lower_exterior settings hs scopes tree h.1,
      Tree.compileMarkupIn, Tree.outermostIn, List.length_append]
    cases tree.compileMarkup settings scopes with
    | error failure => rfl
    | ok result =>
      -- the rest starts from a session that again has no open markup
      have hrest := Tree.lowerAll_exterior settings (s := s.afterTemplates tree.outermost.length)
        hs scopes rest h.2
      simp only [Except.map, Except.bind, Lower.bind_apply, hrest, Session.afterTemplates_add]
      cases Tree.compileMarkupIn settings scopes rest <;> rfl

end

end JsxLowering
