import JsxLowering.Proofs.Rendering

/-!
# Reading markup text back

The text of an element is a plain concatenation at every level, and the text of markup in an
attribute stands inside the quotes of that attribute. Still nothing is lost. `Outline.read?` is a
reader of `<tag name='value' …>…</tag>` that goes through a text character by character, and
`Markup.outline` is the shape of markup, given without any text of it as a whole. The reader finds
that shape in the text that the markup denotes.
-/

namespace JsxLowering

/-- The shape of markup: text, or an element with its attributes as they are written. -/
inductive Outline
  | text (content : String)
  | element (tag : String) (attributes : List (String × String)) (content : List Outline)

namespace Outline

/-- The shapes with adjacent texts made one and empty texts left out. -/
def merge : List Outline → List Outline
  | [] => []
  | .text content :: rest =>
    match merge rest with
    | .text more :: others => .text (content ++ more) :: others
    | others => if content = "" then others else .text content :: others
  | .element tag attributes content :: rest => .element tag attributes content :: merge rest

end Outline

/-! ## Shapes of markup -/

/-- The name and the text of an attribute as they are written, with quotes as entities. A spread
has none. -/
def Attribute.outline? (holes : Bool) : Attribute → Option (String × String)
  | .flag name => some (name, "true")
  | .text name raw => some (name, Property.quote (Text.collapseWrapped raw))
  | .container name value => some (name, Property.quote (value.textInAttribute holes))
  | .markup name value => some (name, Property.quote (value.denoted holes))
  | .spread _ => none

mutual

/-- What markup adds to the shape of the element around it. A fragment adds its children. -/
def Markup.outlines (holes : Bool) : Markup → List Outline
  | .element _ tag attributes children =>
    [.element tag.text (attributes.filterMap (Attribute.outline? holes))
      (Outline.merge (Child.outlinesIn holes children))]
  | .fragment _ children => Child.outlinesIn holes children

/-- What a value in braces adds. A value that is neither a literal nor markup adds nothing. -/
def Tree.outlines (holes : Bool) : Tree → List Outline
  | .leaf content => [.text content.childText]
  | .node _ _ => []
  | .markup value => value.outlines holes

def Child.outlines (holes : Bool) : Child → List Outline
  | .text raw => [.text ((Text.clean raw).getD "")]
  | .empty => []
  | .container value => value.outlines holes
  | .markup value => value.outlines holes
  | .spread _ => []

def Child.outlinesIn (holes : Bool) : List Child → List Outline
  | [] => []
  | first :: rest => first.outlines holes ++ Child.outlinesIn holes rest

end

/-- The shape of markup. -/
def Markup.outline (holes : Bool) (m : Markup) : List Outline := Outline.merge (m.outlines holes)

mutual

/-- Whether the names in markup are legal, no text among its children holds an angle bracket, and
no child becomes a hole. Nothing is asked of the texts of attributes. -/
def Markup.isReadable (holes : Bool) : Markup → Bool
  | .element _ tag attributes children =>
    Text.isMarkupName tag.text && attributes.all (fun item => item.name?.all Text.isMarkupName)
      && Child.areReadable holes children
  | .fragment _ children => Child.areReadable holes children

def Tree.isReadable (holes : Bool) : Tree → Bool
  | .leaf content => Text.isBracketFree content.childText
  | .node form children => (Tree.hole? holes (.node form children)).isNone
  | .markup value => value.isReadable holes

def Child.isReadable (holes : Bool) : Child → Bool
  | .text raw => Text.isBracketFree ((Text.clean raw).getD "")
  | .empty => true
  | .container value => value.isReadable holes
  | .markup value => value.isReadable holes
  | .spread _ => true

def Child.areReadable (holes : Bool) : List Child → Bool
  | [] => true
  | first :: rest => first.isReadable holes && Child.areReadable holes rest

end

/-! ## The reader -/

namespace Outline

/-- What has been read between two tags: shapes, and the text after the last of them. -/
structure Level where
  shapes : List Outline := []
  pending : List Char := []

/-- The shapes with the text after them, if there is any. -/
def Level.closed (level : Level) : List Outline :=
  if level.pending = [] then level.shapes
  else level.shapes ++ [.text (String.ofList level.pending)]

/-- An element that is open, and the shapes before it. -/
structure Opened where
  tag : String
  attributes : List (String × String)
  before : List Outline

/-- Where in a text the reader is. -/
inductive Place
  | content
  /-- After an opening angle bracket. -/
  | bracket
  | tag (name : List Char)
  | name (tag : String) (attributes : List (String × String)) (name : List Char)
  /-- After the equals sign of an attribute. -/
  | equals (tag : String) (attributes : List (String × String)) (name : String)
  | value (tag : String) (attributes : List (String × String)) (name : String)
      (written : List Char)
  /-- After the value of an attribute. -/
  | ended (tag : String) (attributes : List (String × String))
  | closing (name : List Char)

/-- The state of the reader. The elements around the place are given innermost first. -/
structure Reader where
  place : Place := .content
  level : Level := {}
  around : List Opened := []

namespace Reader

/-- Goes on inside a new element. -/
def openElement (r : Reader) (tag : String) (attributes : List (String × String)) : Reader :=
  ⟨.content, {}, ⟨tag, attributes, r.level.closed⟩ :: r.around⟩

/-- Goes on after the innermost element, which has to have the given tag. -/
def closeElement? (r : Reader) (tag : String) : Option Reader :=
  match r.around with
  | [] => none
  | opened :: around =>
    if opened.tag = tag then
      some ⟨.content,
        ⟨opened.before ++ [.element tag opened.attributes r.level.closed], []⟩, around⟩
    else none

/-- Reads a character. -/
def step (r : Reader) (c : Char) : Option Reader :=
  match r.place with
  | .content =>
    if c = '<' then some { r with place := .bracket }
    else some { r with level := { r.level with pending := r.level.pending ++ [c] } }
  | .bracket => some { r with place := if c = '/' then .closing [] else .tag [c] }
  | .tag name =>
    if c = '>' then some (r.openElement (String.ofList name) [])
    else if c = ' ' then some { r with place := .name (String.ofList name) [] [] }
    else some { r with place := .tag (name ++ [c]) }
  | .name tag attributes name =>
    if c = '=' then some { r with place := .equals tag attributes (String.ofList name) }
    else some { r with place := .name tag attributes (name ++ [c]) }
  | .equals tag attributes name =>
    if c = '\'' then some { r with place := .value tag attributes name [] } else none
  | .value tag attributes name written =>
    if c = '\'' then
      some { r with place := .ended tag (attributes ++ [(name, String.ofList written)]) }
    else some { r with place := .value tag attributes name (written ++ [c]) }
  | .ended tag attributes =>
    if c = '>' then some (r.openElement tag attributes)
    else if c = ' ' then some { r with place := .name tag attributes [] }
    else none
  | .closing name =>
    if c = '>' then r.closeElement? (String.ofList name)
    else some { r with place := .closing (name ++ [c]) }

/-- Reads a text. -/
def run (r : Reader) (text : List Char) : Option Reader := text.foldlM step r

/-- The shapes that were read, if no element is open and no tag is unfinished. -/
def finish? : Reader → Option (List Outline)
  | ⟨.content, level, []⟩ => some level.closed
  | _ => none

end Reader

/-- The shapes that a text spells. -/
def read? (text : String) : Option (List Outline) :=
  (Reader.run {} text.toList).bind Reader.finish?

end Outline

/-- An attribute as it is written. -/
def writtenAttribute (item : String × String) : String := item.1 ++ "='" ++ item.2 ++ "'"

/-- The characters of an attribute as it is written. -/
theorem toList_writtenAttribute (item : String × String) :
    (writtenAttribute item).toList
      = item.1.toList ++ '=' :: '\'' :: (item.2.toList ++ ['\'']) := by
  simp [writtenAttribute, String.toList_append]

/-! ## Steps of the reader -/

namespace Outline.Reader

theorem run_cons (r : Reader) (c : Char) (text : List Char) :
    r.run (c :: text) = (r.step c).bind fun r => r.run text := rfl

/-- A run over two texts is a run over the second from where the first ends. -/
theorem run_append (r : Reader) (text more : List Char) :
    r.run (text ++ more) = (r.run text).bind fun r => r.run more := List.foldlM_append

/-- A place that takes up characters takes up a text of such characters. `f` gives the state by what
has been taken up there. -/
theorem run_taken {f : List Char → Reader} {text : List Char}
    (h : ∀ taken, ∀ c ∈ text, (f taken).step c = some (f (taken ++ [c]))) (taken : List Char) :
    (f taken).run text = some (f (taken ++ text)) := by
  induction text generalizing taken with
  | nil =>
    rw [List.append_nil]
    rfl
  | cons c text ih =>
    have later := ih (fun before d hd => h before d (List.mem_cons_of_mem _ hd)) (taken ++ [c])
    rw [run_cons, h taken c List.mem_cons_self, Option.bind_some, later, List.append_assoc,
      List.singleton_append]

variable (level : Level) (around : List Opened)

/-- Text without angle brackets is added to what is pending. -/
theorem run_content {text : List Char} (h : '<' ∉ text) (shapes : List Outline)
    (pending : List Char) :
    run ⟨.content, ⟨shapes, pending⟩, around⟩ text
      = some ⟨.content, ⟨shapes, pending ++ text⟩, around⟩ := by
  refine run_taken (f := fun pending => ⟨.content, ⟨shapes, pending⟩, around⟩) ?_ pending
  intro taken c hc
  have other : c ≠ '<' := fun heq => h (heq ▸ hc)
  simp only [step, if_neg other]

/-- An opening angle bracket and the name of a tag. -/
theorem run_opening {name : String} (h : Text.isMarkupName name) :
    run ⟨.content, level, around⟩ ('<' :: name.toList)
      = some ⟨.tag name.toList, level, around⟩ := by
  obtain ⟨first, head, start⟩ := Text.head?_markupName h
  have closes : '>' ∉ name.toList := Text.not_mem_markupName h rfl (by decide)
  have blank : ' ' ∉ name.toList := Text.not_mem_markupName h rfl (by decide)
  cases hn : name.toList with
  | nil =>
    rw [hn] at head
    cases head
  | cons c rest =>
    rw [hn] at head closes blank
    cases head
    have slash : first ≠ '/' := by
      rintro rfl
      exact absurd start (by decide)
    have bracket : step ⟨.content, level, around⟩ '<' = some ⟨.bracket, level, around⟩ := rfl
    have tag : step ⟨.bracket, level, around⟩ first = some ⟨.tag [first], level, around⟩ := by
      simp only [step, if_neg slash]
    rw [run_cons, bracket, Option.bind_some, run_cons, tag, Option.bind_some]
    refine run_taken (f := fun name => ⟨.tag name, level, around⟩) ?_ [first]
    intro taken d hd
    have notClose : d ≠ '>' := fun heq => closes (heq ▸ List.mem_cons_of_mem _ hd)
    have notBlank : d ≠ ' ' := fun heq => blank (heq ▸ List.mem_cons_of_mem _ hd)
    simp only [step, if_neg notClose, if_neg notBlank]

/-- An attribute, read from its name. -/
theorem run_attribute {name written : String} (hn : Text.isMarkupName name)
    (hw : '\'' ∉ written.toList) (tag : String) (attributes : List (String × String)) :
    run ⟨.name tag attributes [], level, around⟩ (name ++ "='" ++ written ++ "'").toList
      = some ⟨.ended tag (attributes ++ [(name, written)]), level, around⟩ := by
  have equals : '=' ∉ name.toList := Text.not_mem_markupName hn rfl (by decide)
  have named : run ⟨.name tag attributes [], level, around⟩ name.toList
      = some ⟨.name tag attributes name.toList, level, around⟩ := by
    refine run_taken (f := fun name => ⟨.name tag attributes name, level, around⟩) ?_ []
    intro taken c hc
    have other : c ≠ '=' := fun heq => equals (heq ▸ hc)
    simp only [step, if_neg other]
  have quoted : run ⟨.value tag attributes name [], level, around⟩ written.toList
      = some ⟨.value tag attributes name written.toList, level, around⟩ := by
    refine run_taken (f := fun text => ⟨.value tag attributes name text, level, around⟩) ?_ []
    intro taken c hc
    have other : c ≠ '\'' := fun heq => hw (heq ▸ hc)
    simp only [step, if_neg other]
  have mark : run ⟨.name tag attributes name.toList, level, around⟩ ['=', '\'']
      = some ⟨.value tag attributes (String.ofList name.toList) [], level, around⟩ := rfl
  have last : run ⟨.value tag attributes name written.toList, level, around⟩ ['\'']
      = some ⟨.ended tag (attributes ++ [(name, String.ofList written.toList)]), level, around⟩ :=
    rfl
  have text : (name ++ "='" ++ written ++ "'").toList
      = name.toList ++ (['=', '\''] ++ (written.toList ++ ['\''])) :=
    toList_writtenAttribute (name, written)
  rw [text, run_append, named, Option.bind_some, run_append, mark, Option.bind_some,
    String.ofList_toList, run_append, quoted, Option.bind_some, last, String.ofList_toList]

/-- The attributes that are left, and the end of the tag. -/
theorem run_ended {attributes : List (String × String)}
    (h : ∀ item ∈ attributes, Text.isMarkupName item.1 ∧ '\'' ∉ item.2.toList) (tag : String)
    (before : List (String × String)) :
    run ⟨.ended tag before, level, around⟩
        ((spaced (attributes.map writtenAttribute)).toList ++ ['>'])
      = some ⟨.content, {}, ⟨tag, before ++ attributes, level.closed⟩ :: around⟩ := by
  -- the induction is on the attributes that are left; `before` takes up those that were read
  induction attributes generalizing before with
  | nil =>
    rw [List.append_nil]
    rfl
  | cons item rest ih =>
    obtain ⟨named, unquoted⟩ := h item List.mem_cons_self
    have blank : step ⟨.ended tag before, level, around⟩ ' '
        = some ⟨.name tag before [], level, around⟩ := rfl
    have first := run_attribute level around named unquoted tag before
    have later := ih (fun other ho => h other (List.mem_cons_of_mem _ ho)) (before ++ [item])
    rw [List.map_cons, toList_spaced_cons, List.cons_append, run_cons, blank, Option.bind_some,
      List.append_assoc, run_append, writtenAttribute, first, Option.bind_some, later,
      List.append_assoc, List.singleton_append]

/-- The attributes of a tag, read from the end of its name. -/
theorem run_attributes {attributes : List (String × String)}
    (h : ∀ item ∈ attributes, Text.isMarkupName item.1 ∧ '\'' ∉ item.2.toList) (tag : String) :
    run ⟨.tag tag.toList, level, around⟩
        ((spaced (attributes.map writtenAttribute)).toList ++ ['>'])
      = some ⟨.content, {}, ⟨tag, attributes, level.closed⟩ :: around⟩ := by
  rw [← List.nil_append attributes, ← run_ended level around h tag []]
  -- a tag without attributes goes on like one whose last attribute has ended
  have same (c : Char) (hc : c = ' ' ∨ c = '>') (text : List Char) :
      run ⟨.tag tag.toList, level, around⟩ (c :: text)
        = run ⟨.ended tag [], level, around⟩ (c :: text) := by
    rcases hc with rfl | rfl
    · simp only [run_cons, step, String.ofList_toList]
      rfl
    · simp only [run_cons, step, String.ofList_toList]
      rfl
  cases attributes with
  | nil => exact same '>' (.inr rfl) []
  | cons item rest =>
    rw [List.nil_append, List.map_cons, toList_spaced_cons]
    exact same ' ' (.inl rfl) _

/-- The tag that closes the innermost element. -/
theorem run_closing {tag : String} (h : Text.isMarkupName tag)
    (attributes : List (String × String)) (before : List Outline) :
    run ⟨.content, level, ⟨tag, attributes, before⟩ :: around⟩ ("</" ++ tag ++ ">").toList
      = some ⟨.content, ⟨before ++ [.element tag attributes level.closed], []⟩, around⟩ := by
  have closes : '>' ∉ tag.toList := Text.not_mem_markupName h rfl (by decide)
  have named : run ⟨.closing [], level, ⟨tag, attributes, before⟩ :: around⟩ tag.toList
      = some ⟨.closing tag.toList, level, ⟨tag, attributes, before⟩ :: around⟩ := by
    refine run_taken (f := fun name => ⟨.closing name, level, _⟩) ?_ []
    intro taken c hc
    have other : c ≠ '>' := fun heq => closes (heq ▸ hc)
    simp only [step, if_neg other]
  have bracket : run ⟨.content, level, ⟨tag, attributes, before⟩ :: around⟩ ['<', '/']
      = some ⟨.closing [], level, ⟨tag, attributes, before⟩ :: around⟩ := rfl
  have last : run ⟨.closing tag.toList, level, ⟨tag, attributes, before⟩ :: around⟩ ['>']
      = closeElement? ⟨.closing tag.toList, level, ⟨tag, attributes, before⟩ :: around⟩
          (String.ofList tag.toList) := Option.bind_fun_some _
  have text : ("</" ++ tag ++ ">").toList = ['<', '/'] ++ (tag.toList ++ ['>']) := by
    simp [String.toList_append]
  rw [text, run_append, bracket, Option.bind_some, run_append, named, Option.bind_some, last,
    String.ofList_toList, closeElement?]
  exact if_pos rfl

end Outline.Reader

/-! ## Merged texts -/

namespace Outline

/-- An empty text adds nothing. -/
theorem merge_text_empty (rest : List Outline) : merge (.text "" :: rest) = merge rest := by
  rw [merge]
  split
  · next heq => rw [heq, String.empty_append]
  · rfl

/-- Two adjacent texts are one. -/
theorem merge_text_text (content more : String) (rest : List Outline) :
    merge (.text content :: .text more :: rest) = merge (.text (content ++ more) :: rest) := by
  rw [merge, merge, merge]
  rcases merge rest with _ | ⟨_ | _, others⟩
  · by_cases h : more = ""
    · simp [h]
    · simp [h]
  · simp [String.append_assoc]
  · by_cases h : more = ""
    · simp [h]
    · simp [h]

/-- What has been read after one more shape. -/
def Level.add (level : Level) : Outline → Level
  | .text content => ⟨level.shapes, level.pending ++ content.toList⟩
  | .element tag attributes content => ⟨level.closed ++ [.element tag attributes content], []⟩

/-- What has been read after more shapes. -/
def Level.addAll (level : Level) (shapes : List Outline) : Level := shapes.foldl Level.add level

/-- The reader takes up texts from the left, and merging goes from the right. -/
theorem Level.closed_addAll (level : Level) (shapes : List Outline) :
    (level.addAll shapes).closed
      = level.shapes ++ merge (.text (String.ofList level.pending) :: shapes) := by
  -- the text that is pending in the level stands in front of the shapes that are still to come
  induction shapes generalizing level with
  | nil =>
    show level.closed = _
    unfold Level.closed
    by_cases h : level.pending = []
    · simp [h, merge]
    · simp [h, merge]
  | cons shape shapes ih =>
    show ((level.add shape).addAll shapes).closed = _
    rw [ih]
    cases shape with
    | text content =>
      rw [merge_text_text]
      simp [Level.add, String.ofList_append]
    | element tag attributes content =>
      have ended : level.closed = level.shapes
          ++ (if String.ofList level.pending = "" then []
            else [.text (String.ofList level.pending)]) := by
        unfold Level.closed
        by_cases h : level.pending = []
        · simp [h]
        · simp [h]
      show (level.closed ++ [.element tag attributes content]) ++ merge (.text "" :: shapes) = _
      rw [merge_text_empty, ended, merge, merge]
      by_cases h : String.ofList level.pending = ""
      · simp [h]
      · simp [h]

theorem closed_addAll_empty (shapes : List Outline) :
    (({} : Level).addAll shapes).closed = merge shapes := by
  rw [Level.closed_addAll]
  exact merge_text_empty shapes

theorem Level.addAll_append (level : Level) (shapes more : List Outline) :
    level.addAll (shapes ++ more) = (level.addAll shapes).addAll more := List.foldl_append

end Outline

/-! ## Attributes -/

theorem Attribute.denoted?_eq (holes : Bool) (item : Attribute) :
    item.denoted? holes = (item.outline? holes).map writtenAttribute := by
  cases item with
  | flag name =>
    have plain : Property.quote "true" = "true" := by decide
    rw [Attribute.denoted?, attributeText, plain]
    rfl
  | _ => rfl

/-- The attributes are written as their outlines are, and a spread not at all. -/
theorem Attribute.denotedAll_eq (holes : Bool) (items : List Attribute) :
    Attribute.denotedAll holes items
      = (items.filterMap (Attribute.outline? holes)).map writtenAttribute := by
  induction items with
  | nil => rfl
  | cons first rest ih =>
    rw [Attribute.denotedAll, Attribute.denoted?_eq, ih, List.filterMap_cons]
    cases first.outline? holes <;> rfl

/-- An attribute with a legal name is written with that name, and with no quote in its text. -/
theorem Attribute.outline?_eq_some {holes : Bool} {item : Attribute} {written : String × String}
    (h : item.name?.all Text.isMarkupName) (hw : item.outline? holes = some written) :
    Text.isMarkupName written.1 ∧ '\'' ∉ written.2.toList := by
  cases item with
  | flag name =>
    cases hw
    exact ⟨h, (by decide : '\'' ∉ "true".toList)⟩
  | text name raw =>
    cases hw
    exact ⟨h, Property.not_mem_quote _⟩
  | container name value =>
    cases hw
    exact ⟨h, Property.not_mem_quote _⟩
  | markup name value =>
    cases hw
    exact ⟨h, Property.not_mem_quote _⟩
  | spread argument => cases hw

/-! ## Markup -/

section
open Outline (Level Opened Reader)
open Outline.Reader

/-- An element is read back if what is between its tags is. -/
theorem Outline.Reader.run_element {tag : String} {attributes : List (String × String)}
    {children : List Char} {shapes : List Outline} (ht : Text.isMarkupName tag)
    (ha : ∀ item ∈ attributes, Text.isMarkupName item.1 ∧ '\'' ∉ item.2.toList)
    (hc : ∀ (level : Level) (around : List Opened), run ⟨.content, level, around⟩ children
      = some ⟨.content, level.addAll shapes, around⟩) (level : Level) (around : List Opened) :
    run ⟨.content, level, around⟩
        ('<' :: tag.toList ++ ((spaced (attributes.map writtenAttribute)).toList ++ ['>'])
          ++ children ++ ("</" ++ tag ++ ">").toList)
      = some ⟨.content, level.add (.element tag attributes (Outline.merge shapes)), around⟩ := by
  have inner : (({} : Level).addAll shapes).closed = Outline.merge shapes :=
    Outline.closed_addAll_empty shapes
  -- the opening bracket and name, the attributes, the children and the closing tag, in this order
  rw [run_append, run_append, run_append, run_opening level around ht, Option.bind_some,
    run_attributes level around ha, Option.bind_some, hc, Option.bind_some,
    run_closing _ around ht, inner]
  rfl

mutual

/-- The text that markup denotes takes the reader to the shapes that the markup adds. -/
theorem Markup.run_denoted {holes : Bool} : (m : Markup) → m.isReadable holes →
    (level : Level) → (around : List Opened) →
    run ⟨.content, level, around⟩ (m.denoted holes).toList
      = some ⟨.content, level.addAll (m.outlines holes), around⟩
  | .element _ tag attributes children, h, level, around => by
    rw [Markup.isReadable, Bool.and_eq_true, Bool.and_eq_true, List.all_eq_true] at h
    obtain ⟨⟨named, legal⟩, readable⟩ := h
    have written : ∀ item ∈ attributes.filterMap (Attribute.outline? holes),
        Text.isMarkupName item.1 ∧ '\'' ∉ item.2.toList := by
      intro item hi
      obtain ⟨source, hs, hw⟩ := List.mem_filterMap.mp hi
      exact Attribute.outline?_eq_some (legal source hs) hw
    -- the children start at an empty level, inside the element that the tag opens
    have inner := Child.run_denotedAll children readable
    have whole := run_element named written inner level around
    rw [Markup.denoted, compose_eq fun _ => Attribute.ne_empty_of_mem_denotedAll,
      Attribute.denotedAll_eq]
    simp only [String.toList_append, List.append_assoc] at whole ⊢
    exact whole
  | .fragment _ children, h, level, around => Child.run_denotedAll children h level around

/-- The text of a value among children takes the reader to the shapes that the value adds. -/
theorem Tree.run_textInChild {holes : Bool} : (value : Tree) → value.isReadable holes →
    (level : Level) → (around : List Opened) →
    run ⟨.content, level, around⟩ (value.textInChild holes).toList
      = some ⟨.content, level.addAll (value.outlines holes), around⟩
  | .leaf content, h, level, around => by
    rw [Tree.textInChild, Leaf.childText_eq]
    exact run_content around (Text.isBracketFree_iff.mp h) level.shapes level.pending
  | .node form children, h, level, around => by
    rw [Tree.isReadable, Option.isNone_iff_eq_none] at h
    rw [Tree.textInChild, h]
    rfl
  | .markup value, h, level, around => Markup.run_denoted value h level around

theorem Child.run_denoted {holes : Bool} : (child : Child) → child.isReadable holes →
    (level : Level) → (around : List Opened) →
    run ⟨.content, level, around⟩ (child.denoted holes).toList
      = some ⟨.content, level.addAll (child.outlines holes), around⟩
  | .text _, h, level, around =>
    run_content around (Text.isBracketFree_iff.mp h) level.shapes level.pending
  | .empty, _, _, _ => rfl
  | .container value, h, level, around => Tree.run_textInChild value h level around
  | .markup value, h, level, around => Markup.run_denoted value h level around
  | .spread _, _, _, _ => rfl

theorem Child.run_denotedAll {holes : Bool} : (children : List Child) →
    Child.areReadable holes children → (level : Level) → (around : List Opened) →
    run ⟨.content, level, around⟩ (Child.denotedAll holes children).toList
      = some ⟨.content, level.addAll (Child.outlinesIn holes children), around⟩
  | [], _, _, _ => rfl
  | first :: rest, h, level, around => by
    rw [Child.areReadable, Bool.and_eq_true] at h
    rw [Child.denotedAll, String.toList_append, run_append,
      Child.run_denoted first h.1 level around, Option.bind_some,
      Child.run_denotedAll rest h.2 _ around, Child.outlinesIn, Outline.Level.addAll_append]

end

end

/-- The whole text is read from an empty state, and no element is open at its end. -/
theorem Markup.read?_denoted {holes : Bool} {m : Markup} (h : m.isReadable holes) :
    Outline.read? (m.denoted holes) = some (m.outline holes) := by
  rw [Outline.read?, Markup.run_denoted m h, Option.bind_some]
  exact congrArg some (Outline.closed_addAll_empty _)

/-- The text of markup is read back to the shape of the markup, whatever the texts of its attributes
hold; so is the text that the markup is closed with wherever it is lowered. Markup with the same
text has the same shape. -/
theorem Markup.composed_reads_back {holes : Bool} {m : Markup} (h : m.isReadable holes) :
    Outline.read? (m.denoted holes) = some (m.outline holes)
      ∧ (∀ {settings : Settings} {scopes : Scopes} {s s' : Session} {around : Option Nat}
          {text : String}, settings.memberPlaceholders = holes → m.isNested around →
          s.boundary.low = around → m.composed settings scopes s = .ok (text, s') →
          Outline.read? text = some (m.outline holes))
      ∧ ∀ {other : Markup} {holes' : Bool}, other.isReadable holes' →
          other.denoted holes' = m.denoted holes → other.outline holes' = m.outline holes := by
  have own := Markup.read?_denoted h
  refine ⟨own, ?_, ?_⟩
  · intro settings scopes s s' around text hp nested low run
    have visit : Visit.Invariant ⟨.markup m, scopes, s, around⟩ := ⟨low, nested, nofun⟩
    rw [visit.composed run, hp]
    exact own
  · intro other holes' readable same
    have read := Markup.read?_denoted readable
    rw [same, own] at read
    exact (Option.some.inj read).symm

/-- An element with markup and quotes in its attributes, and with a fragment and two adjacent texts
among its children. -/
def catalog : Markup :=
  .element 0 (.plain "ul")
    [.text "t" "a<'b'>", .markup "icon" (.element 18 (.plain "b") [.flag "x"] []),
     .spread (.identifier "rest")]
    [.text "one ", .container (.string "two"),
     .markup (.fragment 52 [.markup (.element 54 (.namespaced "svg" "g") [] []), .empty])]

/-- The markup in the attribute is read as its text, and the fragment adds its child. -/
theorem read?_catalog : catalog.isReadable true
    ∧ Outline.read?
        "<ul t='a<&#39;b&#39;>' icon='<b x=&#39;true&#39;></b>'>one two<svg:g></svg:g></ul>"
      = some [.element "ul" [("t", "a<&#39;b&#39;>"), ("icon", "<b x=&#39;true&#39;></b>")]
          [.text "one two", .element "svg:g" [] []]] := by
  have readable : catalog.isReadable true := by decide
  have text : catalog.denoted true
      = "<ul t='a<&#39;b&#39;>' icon='<b x=&#39;true&#39;></b>'>one two<svg:g></svg:g></ul>" := by
    decide
  have shape : catalog.outline true
      = [.element "ul" [("t", "a<&#39;b&#39;>"), ("icon", "<b x=&#39;true&#39;></b>")]
          [.text "one two", .element "svg:g" [] []]] := by
    rfl
  have read := (Markup.composed_reads_back readable).1
  rw [text, shape] at read
  exact ⟨readable, read⟩

end JsxLowering
