import JsxLowering.Proofs.Boundaries
import JsxLowering.Proofs.CompleteCode
import JsxLowering.Proofs.Interpolations
import JsxLowering.Proofs.Parameters

/-!
# What the function of a template captures

The hole for a member path moves the path as text into the function of a template, and nothing is
renamed. `MemberRoot.meaning` says what the root of a path means at a place, by the nodes around the
place. At the hole of a path the only node that may give its root another meaning is the function
itself: it has a `this`, arguments, a parameter and two variables of its own.
-/

namespace JsxLowering

/-! ## What a root means -/

/-- Whether a node is a function other than an arrow function. -/
def Node.hasArguments : Node → Bool
  | ⟨.function .., _⟩ => true
  | _ => false

/-- Whether a node gives what it holds a `this` of its own. The value of a field is in the object
that the field belongs to. -/
def Node.hasThis : Node → Bool
  | ⟨.staticBlock, _⟩ => true
  | ⟨.field .., _⟩ => true
  | node => node.hasArguments

/-- The names that a node binds in what it holds: those of its scope, its parameters and its
statement list, and `arguments`. -/
def Node.boundNames (node : Node) : List String :=
  node.scope?.getD [] ++ node.parameters.flatMap Tree.patternNames ++ Tree.scopeOf node.statements
    ++ if node.hasArguments then ["arguments"] else []

/-- Whether a node gives a root a meaning of its own in what it holds. -/
def Node.binds (node : Node) : MemberRoot → Bool
  | .this => node.hasThis
  | .name word => node.boundNames.contains word

/-- What a root means at a place, by the nodes around the place, innermost first: that which the
innermost node that binds it gives to it. The node is told by the nodes around it, and there is none
if the root is bound nowhere. -/
def MemberRoot.meaning (root : MemberRoot) (around : List Node) : List Node :=
  around.dropWhile fun node => !node.binds root

/-- The roots that the function of a template binds. -/
def MemberRoot.isCaptured : MemberRoot → Bool
  | .this => true
  | .name word => ["data", "__t", "__p", "arguments"].contains word

/-- A part stands in a tree, below the nodes of a place. -/
inductive Tree.StandsIn (part : Tree) : List Node → Tree → Prop
  | here : StandsIn part [] part
  | inside {form : Form} {children : List Tree} {child : Tree} {place : List Node}
      (hm : child ∈ children) (h : StandsIn part place child) :
    StandsIn part (place ++ [⟨form, children⟩]) (.node form children)

/-- Whether a node of this form binds nothing: an expression with parts, an expression statement or
a body without the function around it. -/
def Form.isTransparent : Form → Bool
  | .paren | .assign _ | .binary _ | .conditional | .expression | .body => true
  | _ => false

/-- A transparent node gives no root a meaning of its own. -/
theorem Form.binds_of_isTransparent {form : Form} (h : form.isTransparent)
    (children : List Tree) (root : MemberRoot) : Node.binds ⟨form, children⟩ root = false := by
  unfold Form.isTransparent at h
  split at h
  case h_7 => cases h
  all_goals cases root <;> rfl

namespace MemberRoot

variable {root : MemberRoot} {place : List Node}

/-- Below a node, and with nothing between that binds a root, the root means what it means outside
of the node exactly if the node does not bind it. -/
theorem meaning_append_iff (h : ∀ node ∈ place, node.binds root = false) (node : Node)
    (around : List Node) :
    root.meaning (place ++ [node] ++ around) = root.meaning around
      ↔ node.binds root = false := by
  have inner : root.meaning (place ++ (node :: around)) = root.meaning (node :: around) :=
    List.dropWhile_append_of_pos fun other ho => by rw [h other ho, Bool.not_false]
  rw [List.append_assoc, List.singleton_append, inner, meaning, List.dropWhile_cons]
  cases own : node.binds root with
  | false => exact ⟨fun _ => rfl, fun _ => rfl⟩
  | true =>
    -- what is found outside is shorter than all that starts at the node
    have outside : (root.meaning around).length ≤ around.length :=
      (List.dropWhile_suffix _).length_le
    refine ⟨fun same => ?_, nofun⟩
    have lengths := congrArg List.length same
    rw [← meaning, Bool.not_true, if_neg Bool.false_ne_true, List.length_cons] at lengths
    omega

end MemberRoot

/-! ## Inside the function -/

/-- A part stands in a tree, and no node between them binds anything. -/
def Tree.StandsFreeIn (part tree : Tree) : Prop :=
  ∃ place, part.StandsIn place tree ∧ ∀ node ∈ place, node.form.isTransparent

/-- A part stands in itself. -/
theorem Tree.StandsFreeIn.here (part : Tree) : part.StandsFreeIn part :=
  ⟨[], .here, fun _ h => absurd h List.not_mem_nil⟩

/-- A part still stands free when a transparent node is put around it. -/
theorem Tree.StandsFreeIn.below {part child : Tree} (h : part.StandsFreeIn child) {form : Form}
    {children : List Tree} (hf : form.isTransparent) (hm : child ∈ children) :
    part.StandsFreeIn (.node form children) := by
  obtain ⟨place, stands, free⟩ := h
  refine ⟨place ++ [⟨form, children⟩], .inside hm stands, fun node hn => ?_⟩
  rcases List.mem_append.mp hn with inner | own
  · exact free node inner
  · rw [List.mem_singleton.mp own]
    exact hf

namespace Template

/-- The value of a hole stands in its tests and assignments, which bind nothing. -/
theorem standsFreeIn_holeTree (value : Tree) : value.StandsFreeIn (holeTree value) := by
  have kept : value.StandsFreeIn (.node .paren [value]) :=
    (Tree.StandsFreeIn.here value).below rfl List.mem_cons_self
  have assigned : value.StandsFreeIn
      (.node (.assign "=") [valueVariable, .node .paren [value]]) :=
    kept.below rfl (.tail _ (.head _))
  have tested : value.StandsFreeIn
      (.node (.binary "==") [.node .paren [.node (.assign "=")
        [valueVariable, .node .paren [value]]], .null]) :=
    Tree.StandsFreeIn.below (assigned.below rfl List.mem_cons_self) rfl List.mem_cons_self
  exact Tree.StandsFreeIn.below (tested.below rfl List.mem_cons_self) rfl List.mem_cons_self

/-- Joining a hole puts only sums around what is joined. -/
theorem standsFreeIn_joinHole {part left : Tree} {slot : Slot}
    (h : part.StandsFreeIn left ∨ part.StandsFreeIn (holeTree slot.value)) :
    part.StandsFreeIn (joinHole left slot) := by
  refine Tree.StandsFreeIn.below ?_ rfl List.mem_cons_self
  rcases h with before | own
  · exact before.below rfl List.mem_cons_self
  · exact own.below rfl (.tail _ (.head _))

/-- What stands before holes is kept when they are joined to it. -/
theorem standsFreeIn_joined {part left : Tree} (h : part.StandsFreeIn left) (slots : List Slot) :
    part.StandsFreeIn (slots.foldl joinHole left) := by
  induction slots generalizing left with
  | nil => exact h
  | cons slot rest ih => exact ih (standsFreeIn_joinHole (.inl h))

/-- The value of each joined hole stands in the sum. -/
theorem standsFreeIn_joined_of_mem {slot : Slot} {slots : List Slot} (h : slot ∈ slots)
    (left : Tree) : slot.value.StandsFreeIn (slots.foldl joinHole left) := by
  induction slots generalizing left with
  | nil => cases h
  | cons first rest ih =>
    rcases List.mem_cons.mp h with rfl | later
    · exact standsFreeIn_joined
        (standsFreeIn_joinHole (.inr (standsFreeIn_holeTree slot.value))) rest
    · exact ih later _

/-- The value of a hole stands in the function of its template, and of the nodes around it only the
function binds anything. -/
theorem standsIn_functionTree {slot : Slot} {slots : List Slot} (h : slot ∈ slots)
    (head : List Char) :
    ∃ place form children, functionTree .absent head slots = .node form children
      ∧ slot.value.StandsIn (place ++ [⟨form, children⟩]) (functionTree .absent head slots)
      ∧ ∀ node ∈ place, node.form.isTransparent := by
  have joined : slot.value.StandsFreeIn (joinTree head slots) := standsFreeIn_joined_of_mem h _
  have assigned : slot.value.StandsFreeIn
      (.node (.assign "+=") [resultVariable, joinTree head slots]) :=
    joined.below rfl (.tail _ (.head _))
  have statement : slot.value.StandsFreeIn
      (.node .expression [.node (.assign "+=") [resultVariable, joinTree head slots]]) :=
    assigned.below rfl List.mem_cons_self
  obtain ⟨place, stands, free⟩ : slot.value.StandsFreeIn (.node .body _) :=
    statement.below rfl (.tail _ (.head _))
  exact ⟨place, _, _, rfl, .inside (.tail _ (.tail _ (.head _))) stands, free⟩

/-- The function binds its `this` and its arguments, its parameter and its two variables. -/
theorem binds_functionTree {head : List Char} {slots : List Slot} {form : Form}
    {children : List Tree} (h : functionTree .absent head slots = .node form children)
    (root : MemberRoot) : Node.binds ⟨form, children⟩ root = root.isCaptured := by
  cases h
  cases root with
  | this => rfl
  | name word =>
    have names : Node.boundNames ⟨.function (.expression false) false false,
        [.absent, .node .parameters [.identifier dataName],
         .node .body
           [.node (.variableList .var)
              [.node .declarator [valueVariable, .absent],
               .node .declarator [resultVariable, .string ""]],
            .node .expression [.node (.assign "+=") [resultVariable, joinTree head slots]],
            .node .returns [resultVariable]]]⟩
        = ["__t", "__p", "data", "data", "__t", "__p", "arguments"] := rfl
    rw [Node.binds, names, MemberRoot.isCaptured]
    simp only [List.contains_eq_mem, List.mem_cons, List.not_mem_nil, or_false]
    grind

end Template

/-! ## Holes of paths -/

/-- The hole for a path, as text. -/
def MemberName.holeText (p : MemberName) : String := "<%= " ++ p.dotted ++ " %>"

/-- The text of a hole has its code between the marks. -/
theorem MemberName.toList_holeText (p : MemberName) :
    p.holeText.toList = Template.spelledHole (Template.pathCode p) := by
  have opening : "<%= ".toList = Template.openMark ++ [' '] := by decide
  have closing : " %>".toList = ' ' :: Template.closeMark := by decide
  rw [holeText, String.toList_append, String.toList_append, opening, closing,
    Template.spelledHole, Template.pathCode]
  simp only [List.append_assoc, List.cons_append, List.nil_append]

/-- A hole has no quote in it, so it is the same inside an attribute. -/
theorem MemberName.literalText_holeText {p : MemberName} (h : p.isLegal) (quoted : Bool) :
    literalText quoted p.holeText = p.holeText := by
  refine literalText_of_not_mem ?_ quoted
  have path : '\'' ∉ p.dotted.toList := MemberName.not_mem_dotted h rfl (by decide)
  rw [holeText, String.toList_append, String.toList_append, List.mem_append, List.mem_append]
  simp [path]

namespace Template

theorem pathCode_ne_nil (p : MemberName) : pathCode p ≠ [] := List.cons_ne_nil _ _

/-- The code of a path holds no mark that would end it early. -/
theorem gt_not_mem_pathCode {p : MemberName} (h : p.isLegal) : '>' ∉ pathCode p := by
  have path : '>' ∉ p.dotted.toList := MemberName.not_mem_dotted h rfl (by decide)
  simp [pathCode, path]

/-- The value of closed code is told by the code. -/
theorem Slot.IsClosed.value_eq {slot other : Slot} (h : slot.IsClosed) (ho : other.IsClosed)
    (same : slot.code = other.code) : slot.value = other.value := by
  have own := h.read 0 0 []
  have read := ho.read 0 0 []
  rw [same, read] at own
  simp only [Option.some.injEq, Prod.mk.injEq, Tree.node.injEq, List.cons.injEq] at own
  exact own.1.2.1.symm

end Template

/-- The member paths among the values in braces that the text of markup is made of. -/
def Markup.paths (m : Markup) : List MemberName := m.items.filterMap Item.path?

/-- The holes of the member paths among some items, as texts. -/
def holeTexts (items : List Item) : List String :=
  (items.filterMap Item.path?).map MemberName.holeText

theorem holeTexts_append (items more : List Item) :
    holeTexts (items ++ more) = holeTexts items ++ holeTexts more := by
  rw [holeTexts, List.filterMap_append, List.map_append]
  rfl

/-- An item that is no path has no hole. -/
theorem holeTexts_cons_of_none {item : Item} (h : item.path? = none) (items : List Item) :
    holeTexts (item :: items) = holeTexts items := by
  rw [holeTexts, List.filterMap_cons_none h]
  rfl

namespace Segment

/-- What a piece is written from. -/
def source? : Segment → Option String
  | .frame _ => none
  | .piece _ source => some source

/-- What the pieces among some segments are written from. -/
def sources (segments : List Segment) : List String := segments.filterMap source?

theorem sources_append (segments more : List Segment) :
    sources (segments ++ more) = sources segments ++ sources more := List.filterMap_append

theorem sources_frame (text : String) (segments : List Segment) :
    sources (.frame text :: segments) = sources segments := rfl

/-- Quoting a piece does not change what it is written from. -/
theorem sources_map_quote (segments : List Segment) :
    sources (segments.map quote) = sources segments := by
  have same : source? ∘ quote = source? := by
    funext segment
    cases segment <;> rfl
  rw [sources, List.filterMap_map, same]
  rfl

/-- An attribute has the pieces of its value. -/
theorem sources_ofAttribute (name : String) (value : List Segment) :
    sources (ofAttribute name value) = sources value := by
  rw [ofAttribute, sources_frame, sources_append, sources_map_quote]
  exact List.append_nil _

end Segment

/-- A value that is neither a literal nor markup is written as its hole, if it is a path. -/
theorem sources_node (form : Form) (children : List Tree) (other : String) :
    (holeTexts [.value (.node form children)]).Sublist
      (Segment.sources [.piece false
        ((Tree.hole? true (.node form children)).getD other)]) := by
  have text : Tree.hole? true (.node form children)
      = (Tree.node form children).memberName?.map MemberName.holeText := by
    rw [Tree.hole?, if_pos rfl, Tree.staticPath?_eq, Option.map_map]
    rfl
  rw [text]
  cases path : (Tree.node form children).memberName? with
  | none =>
    have unnamed : (Item.value (.node form children)).path? = none := path
    rw [holeTexts_cons_of_none unnamed]
    exact List.nil_sublist _
  | some p =>
    have own : (Item.value (.node form children)).path? = some p := path
    rw [holeTexts, List.filterMap_cons_some own]
    exact List.Sublist.refl _

mutual

/-- Each member path in markup has a piece of the text, in order, that is its hole. -/
theorem Markup.sublist_sources : (m : Markup) →
    (holeTexts m.items).Sublist (Segment.sources (m.segments true))
  | .element _ tag attributes children => by
    rw [Markup.items, Markup.segments, List.cons_append, holeTexts_cons_of_none rfl,
      holeTexts_append, Segment.sources_frame, Segment.sources_append, Segment.sources_frame,
      Segment.sources_append]
    exact (Attribute.sublist_sourcesIn attributes).append
      ((Child.sublist_sourcesIn children).trans (List.sublist_append_left _ _))
  | .fragment _ children => Child.sublist_sourcesIn children

theorem Tree.sublist_sourcesInAttribute : (value : Tree) →
    (holeTexts value.items).Sublist (Segment.sources (value.segmentsInAttribute true))
  | .leaf _ => List.nil_sublist _
  | .node form children => sources_node form children "undefined"
  | .markup value => Markup.sublist_sources value

theorem Tree.sublist_sourcesInChild : (value : Tree) →
    (holeTexts value.items).Sublist (Segment.sources (value.segmentsInChild true))
  | .leaf _ => List.nil_sublist _
  | .node form children => sources_node form children ""
  | .markup value => Markup.sublist_sources value

theorem Attribute.sublist_sources : (item : Attribute) →
    (holeTexts item.items).Sublist (Segment.sources (item.segments true))
  | .flag _ => List.nil_sublist _
  | .text _ _ => List.nil_sublist _
  | .container name value => by
    rw [Attribute.items, Attribute.segments, holeTexts_cons_of_none rfl,
      Segment.sources_ofAttribute]
    exact Tree.sublist_sourcesInAttribute value
  | .markup name value => by
    rw [Attribute.items, Attribute.segments, holeTexts_cons_of_none rfl,
      Segment.sources_ofAttribute]
    exact Markup.sublist_sources value
  | .spread _ => List.nil_sublist _

theorem Attribute.sublist_sourcesIn : (items : List Attribute) →
    (holeTexts (Attribute.itemsIn items)).Sublist
      (Segment.sources (Attribute.segmentsIn true items))
  | [] => List.nil_sublist _
  | first :: rest => by
    rw [Attribute.itemsIn, Attribute.segmentsIn, holeTexts_append, Segment.sources_append]
    exact (Attribute.sublist_sources first).append (Attribute.sublist_sourcesIn rest)

theorem Child.sublist_sources : (child : Child) →
    (holeTexts child.items).Sublist (Segment.sources (child.segments true))
  | .text _ => List.nil_sublist _
  | .empty => List.nil_sublist _
  | .container value => Tree.sublist_sourcesInChild value
  | .markup value => Markup.sublist_sources value
  | .spread _ => List.nil_sublist _

theorem Child.sublist_sourcesIn : (children : List Child) →
    (holeTexts (Child.itemsIn children)).Sublist (Segment.sources (Child.segmentsIn true children))
  | [] => List.nil_sublist _
  | first :: rest => by
    rw [Child.itemsIn, Child.segmentsIn, holeTexts_append, Segment.sources_append]
    exact (Child.sublist_sources first).append (Child.sublist_sourcesIn rest)

end

/-! ## The holes that are found -/

/-- The code of the hole that ends where the hole of a path is written: the path, unless the text
before it opens that hole. -/
def Template.EndsWith (p : MemberName) (code : List Char) : Prop :=
  code = pathCode p ∨ openMark ++ pathCode p <:+ code

/-- Among the holes that are found in the text of segments, the written holes have one each, in
order. -/
theorem Segment.exists_codes {paths : List MemberName} (hp : ∀ p ∈ paths, p.isLegal)
    {segments : List Segment}
    (h : (paths.map MemberName.holeText).Sublist (sources segments)) (before : List Char) :
    ∃ own, own.Sublist (Template.ofText (before ++ (written segments).toList)).codes
      ∧ List.Forall₂ Template.EndsWith paths own := by
  induction segments generalizing paths before with
  | nil =>
    rw [sources, List.filterMap_nil, List.sublist_nil, List.map_eq_nil_iff] at h
    rw [h]
    exact ⟨[], List.nil_sublist _, .nil⟩
  | cons segment rest ih =>
    -- a segment that is no hole of these paths is part of the text before the next one
    have skipped (later : (paths.map MemberName.holeText).Sublist (sources rest)) := by
      have found := ih hp later (before ++ segment.text.toList)
      rw [List.append_assoc, ← String.toList_append, ← written_cons] at found
      exact found
    -- a piece is the hole of the next path, or not one of theirs
    cases segment with
    | frame text => exact skipped h
    | piece quoted source =>
      rcases List.sublist_cons_iff.mp h with later | ⟨holes, cut, later⟩
      · exact skipped later
      · obtain ⟨p, more, rfl, rfl, rfl⟩ := List.map_eq_cons_iff.mp cut
        obtain ⟨legal, others⟩ := List.forall_mem_cons.mp hp
        obtain ⟨own, sub, ends⟩ := ih others later []
        have whole : before ++ (written (.piece quoted p.holeText :: rest)).toList
            = before ++ (Template.spelledHole (Template.pathCode p)
                ++ (written rest).toList) := by
          rw [written_cons, text, p.literalText_holeText legal, String.toList_append,
            p.toList_holeText]
        obtain ⟨found, code, codes, last⟩ := Template.exists_code_of_spelledHole
          (Template.pathCode_ne_nil p) (Template.gt_not_mem_pathCode legal) before
          (written rest).toList
        rw [whole, codes]
        exact ⟨code :: own, (sub.cons_cons code).trans (List.sublist_append_right _ _),
          .cons last ends⟩

namespace Template

/-- Leaving out line breaks keeps the end of a text at its end. -/
theorem unbroken_suffix {text code : List Char} (h : code <:+ text) :
    unbroken code <:+ unbroken text := by
  obtain ⟨before, rfl⟩ := h
  rw [unbroken_append]
  exact List.suffix_append _ _

/-- Nothing changes for a path when the line breaks in code are left out. -/
theorem EndsWith.unbroken {p : MemberName} {code : List Char} (hp : p.isLegal)
    (h : EndsWith p code) : EndsWith p (unbroken code) := by
  have same := unbroken_pathCode hp
  rcases h with rfl | later
  · exact .inl same
  · have ends := unbroken_suffix later
    rw [unbroken_append, same] at ends
    exact .inr ends

/-- The codes of a template, without line breaks, are those of its slots. -/
theorem codes_of_onOneLine {t : Template} {head : List Char} {slots : List Slot}
    (h : t.onOneLine = ofSlots head slots) : t.codes.map unbroken = slots.map Slot.code := by
  have holes : t.holes.map (fun hole => (unbroken hole.1, hole.2)) = slots.map Slot.hole :=
    congrArg Template.holes h
  have codes := congrArg (List.map Prod.fst) holes
  rw [List.map_map, List.map_map] at codes
  rw [Template.codes, List.map_map]
  exact codes

/-- The reference that a path spells means the same at its hole as outside the function, unless the
function captures it. -/
theorem meaning_functionTree {slot : Slot} {slots : List Slot} (h : slot ∈ slots)
    (head : List Char) :
    ∃ place, slot.value.StandsIn place (functionTree .absent head slots)
      ∧ ∀ (root : MemberRoot) (around : List Node),
          root.meaning (place ++ around) = root.meaning around ↔ root.isCaptured = false := by
  -- of the nodes around the value only the function binds roots
  obtain ⟨place, form, children, function, stands, free⟩ := standsIn_functionTree h head
  refine ⟨place ++ [⟨form, children⟩], stands, fun root around => ?_⟩
  rw [← binds_functionTree function root]
  have inner : ∀ node ∈ place, node.binds root = false := fun node hn =>
    Form.binds_of_isTransparent (free node hn) node.children root
  exact MemberRoot.meaning_append_iff inner _ around

end Template

/-- Outermost markup that is lowered to the function of a template in which each hole is a whole
expression: every member path whose placeholder is in the composed text has a hole of its own there,
in order, unless the text before the path opens that hole. The path stands in its hole, and its root
means the same there as outside the function, unless it is `this`, `arguments`, the parameter or a
variable of the function. Markup inside another expression is no part of the text, and neither are
the paths in it. -/
theorem Markup.lower_captures {settings : Settings} {scopes : Scopes} {s s' : Session} {m : Markup}
    {function : Tree} {head : List Char} {slots : List Template.Slot}
    (hs : settings.memberPlaceholders = true) (hb : s.boundary = {}) (hn : m.isNested none)
    (hp : ∀ p ∈ m.paths, p.isLegal) (hl : m.lower settings scopes s = .ok (function, s'))
    (hf : (Template.ofText (m.denoted true).toList).onOneLine = Template.ofSlots head slots)
    (hc : ∀ slot ∈ slots, slot.IsClosed) :
    function = Template.functionTree .absent head slots
      ∧ ∃ own : List Template.Slot, own.Sublist slots
        ∧ List.Forall₂ (fun p slot =>
            Template.openMark ++ Template.pathCode p <:+ slot.code
              ∨ slot.code = Template.pathCode p ∧ slot.value = p.reference
                ∧ ∃ place, p.reference.StandsIn place function
                  ∧ ∀ around, p.root.meaning (place ++ around) = p.root.meaning around
                      ↔ p.root.isCaptured = false)
          m.paths own := by
  have compiled : Template.compile (m.denoted true) = .ok function := by
    rw [Markup.lower_exterior settings hb scopes m hn] at hl
    cases run : m.compile settings scopes with
    | error failure =>
      rw [run] at hl
      cases hl
    | ok result =>
      rw [run] at hl
      cases hl
      rw [← hs]
      exact (Markup.compile_eq_ok run).2.1
  rw [Template.compile_ofSlots hc hf] at compiled
  cases compiled
  -- the written holes have one hole each among those that are found, and so among the slots
  obtain ⟨codes, found, ends⟩ := Segment.exists_codes hp m.sublist_sources []
  rw [List.nil_append, m.written_segments] at found
  have kept := found.map Template.unbroken
  rw [Template.codes_of_onOneLine hf] at kept
  obtain ⟨own, sub, same⟩ := List.sublist_map_iff.mp kept
  have holes : List.Forall₂ (fun p slot => Template.EndsWith p slot.code) m.paths own := by
    rw [← List.forall₂_map_right_iff, ← same, List.forall₂_map_right_iff]
    have legal := (List.forall₂_and_left _ _).mpr ⟨hp, ends⟩
    exact legal.imp fun p code h => h.2.unbroken h.1
  refine ⟨rfl, own, sub, ?_⟩
  have legal := (List.forall₂_and_left _ _).mpr ⟨hp, holes⟩
  have closed := (List.forall₂_and_left _ _).mpr ⟨fun slot h => sub.subset h, legal.flip⟩
  refine closed.flip.imp fun p slot ⟨hm, legal, last⟩ => ?_
  rcases last with own | later
  · have path : (Template.pathSlot (p, [])).IsClosed := Template.isClosed_pathSlot legal
    have value : slot.value = p.reference := (hc slot hm).value_eq path own
    obtain ⟨place, stands, means⟩ := Template.meaning_functionTree hm head
    rw [value] at stands
    exact .inr ⟨own, value, place, stands, means p.root⟩
  · exact .inl later

/-- With no look-up of tags, outermost markup is lowered to what its text is compiled to. -/
theorem Markup.lower_of_compile {settings : Settings} {scopes : Scopes} {m : Markup}
    {function : Tree} {s : Session} (hc : settings.rules.captureScope = false)
    (hs : s.boundary = {}) (hn : m.isNested none)
    (h : Template.compile (m.denoted settings.memberPlaceholders) = .ok function) :
    m.lower settings scopes s = .ok (function, s.afterTemplates 1) := by
  rw [Markup.lower_exterior settings hs scopes m hn, Markup.compile_of_ok h,
    Occurrence.firstFailure_of_captureScope hc]
  rfl

/-- The path `user.name`. -/
def userName : MemberName := .base (.name "user") "name"

/-- An element with `this.title` in an attribute, and with `user.name` after other code. -/
def titled : Markup :=
  .element 0 (.plain "p") [.container "title" (.node (.member "title" false) [.this])]
    [.container (.string "<%='it'%>"),
     .container (.node (.member "name" false) [.identifier "user"])]

def titledSlots : List Template.Slot :=
  [Template.pathSlot (.base .this "title", "'>".toList), Template.quotedSlot "it".toList [],
   Template.pathSlot (userName, "</p>".toList)]

/-- The path at `this` is captured by the function, and the one at `user` is not. -/
theorem lower_titled : ∃ function session,
    titled.lower ({} : Options).settings [] {} = .ok (function, session)
      ∧ (∃ place, (MemberName.base .this "title").reference.StandsIn place function
          ∧ ∀ around, MemberRoot.this.meaning (place ++ around) ≠ MemberRoot.this.meaning around)
      ∧ ∃ place, userName.reference.StandsIn place function
          ∧ ∀ around, userName.root.meaning (place ++ around) = userName.root.meaning around := by
  have split : (Template.ofText (titled.denoted true).toList).onOneLine
      = Template.ofSlots "<p title='".toList titledSlots := by decide
  have closed : ∀ slot ∈ titledSlots, slot.IsClosed := by
    intro slot hm
    simp only [titledSlots, List.mem_cons, List.not_mem_nil, or_false] at hm
    rcases hm with rfl | rfl | rfl
    · exact Template.isClosed_pathSlot rfl
    · exact Template.isClosed_quotedSlot _ _
    · exact Template.isClosed_pathSlot rfl
  have compiled : Template.compile (titled.denoted true)
      = .ok (Template.functionTree .absent "<p title='".toList titledSlots) :=
    Template.compile_ofSlots closed split
  have lowered : titled.lower ({} : Options).settings [] {}
      = .ok (Template.functionTree .absent "<p title='".toList titledSlots,
          Session.afterTemplates {} 1) :=
    Markup.lower_of_compile rfl rfl (by decide) compiled
  obtain ⟨-, own, sub, holes⟩ :=
    Markup.lower_captures rfl rfl (by decide) (by decide) lowered split closed
  -- no code has an opening mark in it
  have found {p : MemberName} {slot : Template.Slot} (hm : slot ∈ own) :
      ¬ Template.openMark ++ Template.pathCode p <:+ slot.code := by
    have plain : ∀ slot ∈ titledSlots, '<' ∉ slot.code := by decide
    intro later
    exact plain slot (sub.subset hm) (later.subset List.mem_cons_self)
  have paths : titled.paths = [.base .this "title", userName] := rfl
  rw [paths] at holes
  obtain ⟨first, rest, title, later, rfl⟩ := List.forall₂_cons_left_iff.mp holes
  obtain ⟨second, more, name, -, rfl⟩ := List.forall₂_cons_left_iff.mp later
  obtain ⟨-, -, titlePlace, titleStands, titleMeans⟩ := title.resolve_left (found (.head _))
  obtain ⟨-, -, place, stands, means⟩ := name.resolve_left (found (.tail _ (.head _)))
  refine ⟨_, _, lowered, ⟨titlePlace, titleStands, fun around => ?_⟩,
    place, stands, fun around => (means around).mpr rfl⟩
  exact mt (titleMeans around).mp Bool.noConfusion

/-! ## Captured roots -/

/-- An element with a path among its children. -/
def pathMarkup (p : MemberName) : Markup :=
  .element 10 (.plain "p") [] [.container p.reference]

/-- Paths whose roots the function binds. -/
def capturedPaths : List MemberName :=
  [.base .this "x", .base (.name "arguments") "length", .base (.name "__t") "x",
   .base (.name "__p") "x"]

/-- An element whose text declares a variable in the function. -/
def declaring : Markup :=
  .element 10 (.plain "p") []
    [.container (.string "<%=0)));var user;(((0%>"),
     .container userName.reference]

/-- A path that starts at `this`, at the arguments or at a variable of the function means another
thing there than outside. So does one that starts at a name that the text of the markup declares in
the function. -/
theorem lower_capturedPaths :
    (∀ p ∈ capturedPaths, p ∈ (pathMarkup p).paths
        ∧ ∃ function session place,
          (pathMarkup p).lower ({} : Options).settings [] {} = .ok (function, session)
            ∧ p.reference.StandsIn place function
            ∧ ∀ around, p.root.meaning (place ++ around) ≠ p.root.meaning around)
      ∧ userName ∈ declaring.paths
      ∧ ((declaring.lower ({} : Options).settings [] {}).toOption.map fun lowered =>
          match lowered.1 with
          | .node form children => Node.binds ⟨form, children⟩ userName.root
          | _ => false) = some true := by
  refine ⟨fun p hp => ?_, by decide, by decide +kernel⟩
  -- the four paths are told apart only where their texts are computed
  have shape : p.isLegal ∧ p ∈ (pathMarkup p).paths ∧ p.root.isCaptured
      ∧ (pathMarkup p).isNested none
      ∧ Template.ofText ((pathMarkup p).denoted true).toList
        = Template.ofPaths "<p>".toList [(p, "</p>".toList)] := by
    simp only [capturedPaths, List.mem_cons, List.not_mem_nil, or_false] at hp
    rcases hp with rfl | rfl | rfl | rfl <;> decide
  obtain ⟨legal, own, captured, nested, text⟩ := shape
  have compiled : Template.compile ((pathMarkup p).denoted true)
      = .ok (Template.functionTree .absent "<p>".toList
          [Template.pathSlot (p, "</p>".toList)]) :=
    Template.compile_ofPaths (List.forall_mem_singleton.mpr legal) text
  have lowered : (pathMarkup p).lower ({} : Options).settings [] {}
      = .ok (Template.functionTree .absent "<p>".toList
          [Template.pathSlot (p, "</p>".toList)], Session.afterTemplates {} 1) :=
    Markup.lower_of_compile rfl rfl nested compiled
  obtain ⟨place, stands, means⟩ := Template.meaning_functionTree
    (List.mem_singleton.mpr rfl : Template.pathSlot (p, "</p>".toList) ∈ _) "<p>".toList
  refine ⟨own, _, _, place, lowered, stands, fun around same => ?_⟩
  rw [(means p.root around).mp same] at captured
  cases captured

end JsxLowering
