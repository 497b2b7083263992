import JsxLowering.Proofs.Joining
import JsxLowering.Proofs.Rendering

/-!
# Interpolations in the pieces of a text

The text that markup denotes is made of generated text and of pieces of the source, and it is
scanned for holes as a whole. `Segment.joined` joins what the scan finds in each piece alone. The
scan of the whole text finds the same exactly if no mark is left over in the joined texts. That is
so if no piece ends with a mark that it does not close.
-/

namespace JsxLowering

/-! ## Segments -/

/-- A part of the text of markup: generated text, or a piece of the source, which may stand inside
an attribute. -/
inductive Segment
  | frame (text : String)
  | piece (quoted : Bool) (source : String)
deriving DecidableEq, Repr

namespace Segment

/-- A segment as it is written. -/
def text : Segment → String
  | .frame text => text
  | .piece quoted source => literalText quoted source

/-- The segment inside an attribute. -/
def quote : Segment → Segment
  | .frame text => .frame (Property.quote text)
  | .piece _ source => .piece true source

/-- What the scan finds in a segment alone. Generated text is not scanned, and what is found inside
an attribute is written with entities. -/
def template : Segment → Template
  | .frame text => ⟨text.toList, []⟩
  | .piece false source => .ofText source.toList
  | .piece true source => (Template.ofText source.toList).quoted

/-- What the scan finds in the segments, each scanned alone. -/
def joined (segments : List Segment) : Template :=
  segments.foldr (fun segment rest => segment.template.append rest) ⟨[], []⟩

/-- Whether a piece closes the marks that it opens. Nothing is asked of generated text. -/
def isClosed : Segment → Bool
  | .frame _ => true
  | .piece _ source => !Template.opens (Template.ofText source.toList).last

/-- The text that the segments make up. -/
def written (segments : List Segment) : String := String.join (segments.map text)

/-- The segments of an attribute, from those of its value. -/
def ofAttribute (name : String) (value : List Segment) : List Segment :=
  .frame (" " ++ name ++ "='") :: (value.map quote ++ [.frame "'"])

end Segment

mutual

/-- The segments of the text of an element or a fragment. -/
def Markup.segments (holes : Bool) : Markup → List Segment
  | .element _ tag attributes children =>
    .frame ("<" ++ tag.text) :: (Attribute.segmentsIn holes attributes
      ++ .frame ">" :: (Child.segmentsIn holes children ++ [.frame ("</" ++ tag.text ++ ">")]))
  | .fragment _ children => Child.segmentsIn holes children

/-- Those of a value in an attribute. The hole of a member path is a piece. -/
def Tree.segmentsInAttribute (holes : Bool) : Tree → List Segment
  | .leaf content => [.piece false content.attributeText]
  | .node form children =>
    [.piece false ((Tree.hole? holes (.node form children)).getD "undefined")]
  | .markup value => value.segments holes

/-- Those of a value among children. -/
def Tree.segmentsInChild (holes : Bool) : Tree → List Segment
  | .leaf content => [.piece false content.childText]
  | .node form children => [.piece false ((Tree.hole? holes (.node form children)).getD "")]
  | .markup value => value.segments holes

def Attribute.segments (holes : Bool) : Attribute → List Segment
  | .flag name => Segment.ofAttribute name [.frame "true"]
  | .text name raw => Segment.ofAttribute name [.piece false (Text.collapseWrapped raw)]
  | .container name value => Segment.ofAttribute name (value.segmentsInAttribute holes)
  | .markup name value => Segment.ofAttribute name (value.segments holes)
  | .spread _ => []

def Attribute.segmentsIn (holes : Bool) : List Attribute → List Segment
  | [] => []
  | first :: rest => first.segments holes ++ Attribute.segmentsIn holes rest

def Child.segments (holes : Bool) : Child → List Segment
  | .text raw => [.piece false ((Text.clean raw).getD "")]
  | .empty => []
  | .container value => value.segmentsInChild holes
  | .markup value => value.segments holes
  | .spread _ => []

def Child.segmentsIn (holes : Bool) : List Child → List Segment
  | [] => []
  | first :: rest => first.segments holes ++ Child.segmentsIn holes rest

end

/-! ## The text of segments -/

theorem spaced_singleton (text : String) : spaced [text] = " " ++ text := by
  rw [spaced_cons, spaced, List.map_nil, String.join_nil, String.append_empty]

namespace Segment

@[simp] theorem written_nil : written [] = "" := rfl

@[simp] theorem written_cons (segment : Segment) (rest : List Segment) :
    written (segment :: rest) = segment.text ++ written rest := by
  rw [written, List.map_cons, String.join_cons, ← written]

@[simp] theorem written_append (segments more : List Segment) :
    written (segments ++ more) = written segments ++ written more := by
  rw [written, List.map_append, String.join_append, ← written, ← written]

theorem written_singleton (segment : Segment) : written [segment] = segment.text := by
  rw [written_cons, written_nil, String.append_empty]

/-- A segment inside an attribute is written with its quotes as entities, once: a quoted piece has
none left. -/
theorem text_quote (segment : Segment) : segment.quote.text = Property.quote segment.text := by
  cases segment with
  | frame text => rfl
  | piece quoted source =>
    cases quoted with
    | false => rfl
    | true => exact (literalText_of_not_mem (Property.not_mem_quote source) true).symm

/-- Quoting each segment quotes the whole text. -/
theorem written_map_quote (segments : List Segment) :
    written (segments.map quote) = Property.quote (written segments) := by
  induction segments with
  | nil => rfl
  | cons segment rest ih =>
    rw [List.map_cons, written_cons, written_cons, Property.quote_append, ih, text_quote]

/-- The segments of an attribute make up a space and its text. -/
theorem written_ofAttribute (name : String) (value : List Segment) :
    written (ofAttribute name value) = " " ++ attributeText name (written value) := by
  rw [ofAttribute, written_cons, written_append, written_map_quote, attributeText]
  simp [text, String.append_assoc]

/-- What is found in a piece is what is found in it as it is written. -/
theorem template_piece (quoted : Bool) (source : String) :
    template (.piece quoted source) = .ofText (literalText quoted source).toList := by
  cases quoted with
  | false => rfl
  | true =>
    rw [literalText, if_pos rfl, Property.quote, String.toList_ofList]
    exact (Template.ofText_quoteChars source.toList).symm

/-- The joined template spells the text of the segments. -/
theorem spelled_joined (segments : List Segment) :
    (joined segments).spelled = (written segments).toList := by
  induction segments with
  | nil => rfl
  | cons segment rest ih =>
    have own : segment.template.spelled = segment.text.toList := by
      cases segment with
      | frame text => exact List.append_nil text.toList
      | piece quoted source =>
        rw [template_piece]
        exact Template.spelled_ofText _
    show (segment.template.append (joined rest)).spelled = _
    rw [Template.spelled_append, ih, own, written_cons, String.toList_append]

/-- The joined template has the codes of the segments, in order. -/
theorem codes_joined (segments : List Segment) :
    (joined segments).codes = segments.flatMap fun segment => segment.template.codes := by
  induction segments with
  | nil => rfl
  | cons segment rest ih =>
    show (segment.template.append (joined rest)).codes = _
    rw [Template.codes_append, ih, List.flatMap_cons]

/-- The scan of the whole text finds what the scan of its pieces finds exactly if no mark is left
over in the texts. -/
theorem ofText_written_eq_iff (segments : List Segment) :
    Template.ofText (written segments).toList = joined segments
      ↔ (joined segments).IsSettled := by
  rw [Template.ofText_eq_iff]
  have found : ∀ code ∈ (joined segments).codes, Template.IsCode code := by
    intro code hc
    rw [codes_joined, List.mem_flatMap] at hc
    obtain ⟨segment, -, own⟩ := hc
    cases segment with
    | frame text => exact absurd own List.not_mem_nil
    | piece quoted source =>
      rw [template_piece] at own
      exact (Template.isCanonical_ofText _).codes code own
  constructor
  · rintro ⟨-, canonical⟩
    exact canonical.texts
  · intro settled
    exact ⟨spelled_joined segments, found, settled⟩

/-- Segments of which none ends with a mark that it does not close leave no mark over. -/
theorem isMarkFree_joined {segments : List Segment}
    (h : ∀ segment ∈ segments, Template.opens segment.template.last = false) :
    (joined segments).IsMarkFree := by
  induction segments with
  | nil =>
    intro text ht
    rw [List.mem_singleton.mp ht]
    decide
  | cons segment rest ih =>
    have later := ih fun other ho => h other (List.mem_cons_of_mem _ ho)
    have ends := h segment List.mem_cons_self
    -- a scanned piece is settled by the scan; generated text is one text, which opens nothing
    have own : segment.template.IsSettled := by
      cases segment with
      | frame text =>
        exact fun hole => Template.not_infix_of_opens ends
          (Template.openMark_infix_of_holdsHole hole)
      | piece quoted source =>
        rw [template_piece]
        exact (Template.isCanonical_ofText _).texts
    exact (own.isMarkFree ends).append ends later

end Segment

mutual

/-- The segments of markup make up the text that it denotes. -/
theorem Markup.written_segments (holes : Bool) : (m : Markup) →
    Segment.written (m.segments holes) = m.denoted holes
  | .element _ tag attributes children => by
    rw [Markup.segments, Markup.denoted, compose_eq fun _ => Attribute.ne_empty_of_mem_denotedAll,
      ← Attribute.written_segmentsIn holes attributes, ← Child.written_segmentsIn holes children]
    simp only [Segment.written_cons, Segment.written_append, Segment.written_nil, Segment.text,
      String.append_assoc, String.append_empty]
  | .fragment _ children => Child.written_segmentsIn holes children

theorem Tree.written_segmentsInAttribute (holes : Bool) : (value : Tree) →
    Segment.written (value.segmentsInAttribute holes) = value.textInAttribute holes
  | .leaf content => by
    rw [Tree.textInAttribute, content.attributeText_eq]
    exact Segment.written_singleton _
  | .node _ _ => Segment.written_singleton _
  | .markup value => Markup.written_segments holes value

theorem Tree.written_segmentsInChild (holes : Bool) : (value : Tree) →
    Segment.written (value.segmentsInChild holes) = value.textInChild holes
  | .leaf content => by
    rw [Tree.textInChild, content.childText_eq]
    exact Segment.written_singleton _
  | .node _ _ => Segment.written_singleton _
  | .markup value => Markup.written_segments holes value

/-- The segments of an attribute make up its text after a space, and those of a spread nothing. -/
theorem Attribute.written_segments (holes : Bool) : (item : Attribute) →
    Segment.written (item.segments holes) = spaced (item.denoted? holes).toList
  | .flag name => by
    rw [Attribute.segments, Segment.written_ofAttribute, Segment.written_singleton,
      Attribute.denoted?, Option.toList_some, spaced_singleton, Segment.text]
  | .text name raw => by
    rw [Attribute.segments, Segment.written_ofAttribute, Segment.written_singleton,
      Attribute.denoted?, Option.toList_some, spaced_singleton, Segment.text]
    rfl
  | .container name value => by
    rw [Attribute.segments, Segment.written_ofAttribute,
      Tree.written_segmentsInAttribute holes value, Attribute.denoted?, Option.toList_some,
      spaced_singleton]
  | .markup name value => by
    rw [Attribute.segments, Segment.written_ofAttribute, Markup.written_segments holes value,
      Attribute.denoted?, Option.toList_some, spaced_singleton]
  | .spread _ => rfl

theorem Attribute.written_segmentsIn (holes : Bool) : (items : List Attribute) →
    Segment.written (Attribute.segmentsIn holes items)
      = spaced (Attribute.denotedAll holes items)
  | [] => rfl
  | first :: rest => by
    rw [Attribute.segmentsIn, Segment.written_append, Attribute.written_segments holes first,
      Attribute.written_segmentsIn holes rest, Attribute.denotedAll, spaced_append]

theorem Child.written_segments (holes : Bool) : (child : Child) →
    Segment.written (child.segments holes) = child.denoted holes
  | .text _ => Segment.written_singleton _
  | .empty => rfl
  | .container value => Tree.written_segmentsInChild holes value
  | .markup value => Markup.written_segments holes value
  | .spread _ => rfl

theorem Child.written_segmentsIn (holes : Bool) : (children : List Child) →
    Segment.written (Child.segmentsIn holes children) = Child.denotedAll holes children
  | [] => rfl
  | first :: rest => by
    rw [Child.segmentsIn, Segment.written_append, Child.written_segments holes first,
      Child.written_segmentsIn holes rest, Child.denotedAll]

end

/-! ## Generated text -/

/-- Whether generated text has no percent sign and does not end with an angle bracket. Nothing is
asked of pieces. -/
def Segment.IsSealed : Segment → Prop
  | .frame text => '%' ∉ text.toList ∧ text.toList.getLast? ≠ some '<'
  | .piece .. => True

/-- Quoting puts in entities, which neither hold a percent sign nor end with a bracket. -/
theorem Segment.IsSealed.quote {segment : Segment} (h : segment.IsSealed) :
    segment.quote.IsSealed := by
  cases segment with
  | piece quoted source => trivial
  | frame text =>
    obtain ⟨percent, bracket⟩ := h
    show '%' ∉ (Property.quote text).toList ∧ (Property.quote text).toList.getLast? ≠ some '<'
    rw [Property.quote, String.toList_ofList]
    constructor
    · rw [List.mem_flatMap]
      rintro ⟨c, hc, hm⟩
      by_cases quoted : c = '\''
      · rw [if_pos quoted] at hm
        exact absurd hm (by decide)
      · rw [if_neg quoted, List.mem_singleton] at hm
        exact percent (hm ▸ hc)
    · -- only the last character matters, and a quote there becomes an entity
      rcases List.eq_nil_or_concat' text.toList with empty | ⟨before, c, cut⟩
      · rw [empty]
        decide
      · rw [cut, List.getLast?_concat] at bracket
        rw [cut, List.flatMap_append, List.flatMap_singleton, List.getLast?_append]
        by_cases quoted : c = '\''
        · have last : "&#39;".toList.getLast? = some ';' := by decide
          rw [if_pos quoted, last, Option.some_or]
          decide
        · rw [if_neg quoted]
          exact bracket

namespace Segment

/-- Without percent signs, a text is sealed by its last character. -/
theorem isSealed_append {text more : String} {c : Char} (h : '%' ∉ text.toList)
    (hm : '%' ∉ more.toList) (hl : more.toList.getLast? = some c) (hc : c ≠ '<') :
    IsSealed (.frame (text ++ more)) := by
  constructor
  · rw [String.toList_append, List.mem_append, not_or]
    exact ⟨h, hm⟩
  · rw [String.toList_append, List.getLast?_append, hl, Option.some_or]
    exact fun heq => hc (Option.some.inj heq)

/-- The opening of a tag ends with its name. -/
theorem isSealed_opening {tag : String} (h : Text.isMarkupName tag) :
    IsSealed (.frame ("<" ++ tag)) := by
  have percent : '%' ∉ tag.toList := Text.not_mem_markupName h rfl (by decide)
  have bracket : '<' ∉ tag.toList := Text.not_mem_markupName h rfl (by decide)
  obtain ⟨first, head, -⟩ := Text.head?_markupName h
  cases last : tag.toList.getLast? with
  | none =>
    rw [List.getLast?_eq_none_iff.mp last] at head
    cases head
  | some c =>
    refine isSealed_append (by decide) percent last ?_
    rintro rfl
    exact bracket (List.mem_of_getLast? last)

/-- The closing of a tag ends with a closing bracket. -/
theorem isSealed_closing {tag : String} (h : Text.isMarkupName tag) :
    IsSealed (.frame ("</" ++ tag ++ ">")) := by
  have percent : '%' ∉ tag.toList := Text.not_mem_markupName h rfl (by decide)
  have before : '%' ∉ ("</" ++ tag).toList := by
    simp [String.toList_append, percent]
  exact isSealed_append before (by decide) rfl (by decide)

/-- An attribute puts its name, an equals sign and quotes around the segments of its value. -/
theorem isSealed_ofAttribute {name : String} {value : List Segment} (h : Text.isMarkupName name)
    (hv : ∀ segment ∈ value, segment.IsSealed) :
    ∀ segment ∈ ofAttribute name value, segment.IsSealed := by
  have percent : '%' ∉ name.toList := Text.not_mem_markupName h rfl (by decide)
  intro segment hs
  rw [ofAttribute, List.mem_cons, List.mem_append, List.mem_map, List.mem_singleton] at hs
  rcases hs with rfl | ⟨inner, hi, rfl⟩ | rfl
  · have before : '%' ∉ (" " ++ name).toList := by
      simp [String.toList_append, percent]
    exact isSealed_append before (by decide) rfl (by decide)
  · exact (hv inner hi).quote
  · exact ⟨by decide, by decide⟩

end Segment

section
variable (holes : Bool)

mutual

/-- The generated text of markup with legal names is sealed. -/
theorem Markup.isSealed_segments : (m : Markup) → (∀ item ∈ m.items, item.isLegal) →
    ∀ segment ∈ m.segments holes, segment.IsSealed
  | .element _ tag attributes children, h, segment, hs => by
    rw [Markup.items] at h
    have named := TagName.isMarkupName_of_isLegal (h (.tag tag) (by simp))
    rw [Markup.segments] at hs
    simp only [List.mem_cons, List.mem_append, List.not_mem_nil, or_false] at hs
    rcases hs with rfl | own | rfl | inner | rfl
    · exact Segment.isSealed_opening named
    · exact Attribute.isSealed_segmentsIn attributes (fun item hi => h item (by simp [hi]))
        segment own
    · exact ⟨by decide, by decide⟩
    · exact Child.isSealed_segmentsIn children (fun item hi => h item (by simp [hi])) segment inner
    · exact Segment.isSealed_closing named
  | .fragment _ children, h, segment, hs => Child.isSealed_segmentsIn children h segment hs

theorem Tree.isSealed_segmentsInAttribute : (value : Tree) →
    (∀ item ∈ value.items, item.isLegal) →
    ∀ segment ∈ value.segmentsInAttribute holes, segment.IsSealed
  | .leaf _, _, _, hs => List.mem_singleton.mp hs ▸ trivial
  | .node _ _, _, _, hs => List.mem_singleton.mp hs ▸ trivial
  | .markup value, h, segment, hs => Markup.isSealed_segments value h segment hs

theorem Tree.isSealed_segmentsInChild : (value : Tree) →
    (∀ item ∈ value.items, item.isLegal) →
    ∀ segment ∈ value.segmentsInChild holes, segment.IsSealed
  | .leaf _, _, _, hs => List.mem_singleton.mp hs ▸ trivial
  | .node _ _, _, _, hs => List.mem_singleton.mp hs ▸ trivial
  | .markup value, h, segment, hs => Markup.isSealed_segments value h segment hs

theorem Attribute.isSealed_segments : (item : Attribute) → (∀ part ∈ item.items, part.isLegal) →
    ∀ segment ∈ item.segments holes, segment.IsSealed
  | .flag name, h => by
    refine Segment.isSealed_ofAttribute (h _ List.mem_cons_self) fun segment hs => ?_
    rw [List.mem_singleton.mp hs]
    exact ⟨by decide, by decide⟩
  | .text name raw, h => by
    refine Segment.isSealed_ofAttribute (h _ List.mem_cons_self) fun segment hs => ?_
    rw [List.mem_singleton.mp hs]
    trivial
  | .container name value, h =>
    Segment.isSealed_ofAttribute (h _ List.mem_cons_self) (Tree.isSealed_segmentsInAttribute value
      fun part hp => h part (List.mem_cons_of_mem _ hp))
  | .markup name value, h =>
    Segment.isSealed_ofAttribute (h _ List.mem_cons_self) (Markup.isSealed_segments value
      fun part hp => h part (List.mem_cons_of_mem _ hp))
  | .spread _, _ => fun _ hs => absurd hs List.not_mem_nil

theorem Attribute.isSealed_segmentsIn : (items : List Attribute) →
    (∀ item ∈ Attribute.itemsIn items, item.isLegal) →
    ∀ segment ∈ Attribute.segmentsIn holes items, segment.IsSealed
  | [], _, _, hs => absurd hs List.not_mem_nil
  | first :: rest, h, segment, hs => by
    rw [Attribute.itemsIn] at h
    rw [Attribute.segmentsIn, List.mem_append] at hs
    rcases hs with own | later
    · exact Attribute.isSealed_segments first (fun item hi => h item (by simp [hi])) segment own
    · exact Attribute.isSealed_segmentsIn rest (fun item hi => h item (by simp [hi])) segment later

theorem Child.isSealed_segments : (child : Child) → (∀ item ∈ child.items, item.isLegal) →
    ∀ segment ∈ child.segments holes, segment.IsSealed
  | .text _, _, _, hs => List.mem_singleton.mp hs ▸ trivial
  | .empty, _, _, hs => absurd hs List.not_mem_nil
  | .container value, h, segment, hs => Tree.isSealed_segmentsInChild value h segment hs
  | .markup value, h, segment, hs => Markup.isSealed_segments value h segment hs
  | .spread _, _, _, hs => absurd hs List.not_mem_nil

theorem Child.isSealed_segmentsIn : (children : List Child) →
    (∀ item ∈ Child.itemsIn children, item.isLegal) →
    ∀ segment ∈ Child.segmentsIn holes children, segment.IsSealed
  | [], _, _, hs => absurd hs List.not_mem_nil
  | first :: rest, h, segment, hs => by
    rw [Child.itemsIn] at h
    rw [Child.segmentsIn, List.mem_append] at hs
    rcases hs with own | later
    · exact Child.isSealed_segments first (fun item hi => h item (by simp [hi])) segment own
    · exact Child.isSealed_segmentsIn rest (fun item hi => h item (by simp [hi])) segment later

end

end

/-- A piece that closes its marks does so inside an attribute. -/
theorem Segment.opens_last_piece {quoted : Bool} {source : String}
    (h : isClosed (.piece quoted source)) :
    Template.opens (template (.piece quoted source)).last = false := by
  have own : Template.opens (Template.ofText source.toList).last = false := by
    simpa [isClosed] using h
  cases quoted with
  | false => exact own
  | true =>
    rw [template, Template.last_quoted]
    exact Template.opens_quoteChars own

/-- Markup with legal names leaves no mark over if no piece ends with a mark that it does not
close. -/
theorem Markup.isSettled_joined {holes : Bool} {m : Markup} (hi : ∀ item ∈ m.items, item.isLegal)
    (hp : ∀ segment ∈ m.segments holes, segment.isClosed) :
    (Segment.joined (m.segments holes)).IsSettled := by
  refine (Segment.isMarkFree_joined fun segment hs => ?_).isSettled
  cases segment with
  | frame text =>
    obtain ⟨percent, bracket⟩ := m.isSealed_segments holes hi _ hs
    exact Template.opens_of_not_mem percent bracket
  | piece quoted source => exact Segment.opens_last_piece (hp _ hs)

/-- The text that markup is closed with is made of its segments. The holes that are found in it are
those that are found in each piece alone, in order, exactly if the joined texts before a hole hold
no opening mark and the last one holds no hole. That is so if the names are legal and no piece ends
with a mark that it does not close. -/
theorem Markup.composed_interpolates {settings : Settings} {m : Markup} {scopes : Scopes}
    {s s' : Session} {around : Option Nat} {text : String} {holes : Bool}
    (hs : settings.memberPlaceholders = holes) (hn : m.isNested around)
    (hl : s.boundary.low = around) (hc : m.composed settings scopes s = .ok (text, s')) :
    text = Segment.written (m.segments holes)
      ∧ (Segment.joined (m.segments holes)).codes
          = (m.segments holes).flatMap (fun segment => segment.template.codes)
      ∧ (Template.ofText text.toList = Segment.joined (m.segments holes)
          ↔ (Segment.joined (m.segments holes)).IsSettled)
      ∧ ((∀ item ∈ m.items, item.isLegal) → (∀ segment ∈ m.segments holes, segment.isClosed) →
          Template.ofText text.toList = Segment.joined (m.segments holes)) := by
  -- what is composed is the denoted text, and the denoted text is the text of the segments
  have visit : Visit.Invariant ⟨.markup m, scopes, s, around⟩ := ⟨hl, hn, nofun⟩
  have whole : text = Segment.written (m.segments holes) := by
    rw [visit.composed hc, hs, m.written_segments]
  have found := Segment.ofText_written_eq_iff (m.segments holes)
  rw [← whole] at found
  refine ⟨whole, Segment.codes_joined _, found, fun legal closed => ?_⟩
  exact found.mpr (Markup.isSettled_joined legal closed)

/-- An element with a hole in its attribute, in an attribute of markup in another one, in a string
and for a member path. -/
def interpolated : Markup :=
  .element 0 (.plain "a")
    [.text "x" "<%= u %>", .markup "y" (.element 20 (.plain "b") [.text "z" "<%= f('v') %>"] [])]
    [.container (.string "<%= w %>"),
     .container (.node (.member "name" false) [.identifier "user"])]

/-- The holes of the element are found in order, the one in a quoted value with entities. -/
theorem composed_interpolated : ∃ text session,
    interpolated.composed ({} : Options).settings [] {} = .ok (text, session)
      ∧ (Template.ofText text.toList).codes
          = [" u ".toList, " f(&#39;v&#39;) ".toList, " w ".toList, " user.name ".toList] := by
  have run : ∃ result, interpolated.composed ({} : Options).settings [] {} = .ok result :=
    ⟨_, rfl⟩
  obtain ⟨⟨text, session⟩, run⟩ := run
  obtain ⟨-, codes, -, same⟩ := Markup.composed_interpolates
    (m := interpolated) rfl (by decide : interpolated.isNested none) rfl run
  refine ⟨text, session, run, ?_⟩
  rw [same (by decide) (by decide), codes]
  decide

/-- An element with an opening mark in one attribute and a closing mark in the next. -/
def straddling : Markup :=
  .element 10 (.plain "a") [.text "x" "<%=", .text "y" "%>"] []

/-- A hole is found across the two attributes, though no piece holds one. -/
theorem composed_straddling : ∃ text session,
    straddling.composed ({} : Options).settings [] {} = .ok (text, session)
      ∧ (Template.ofText text.toList).codes = ["' y='".toList]
      ∧ (straddling.segments true).flatMap (fun segment => segment.template.codes) = [] :=
  ⟨_, _, rfl, by decide, by decide⟩

end JsxLowering
