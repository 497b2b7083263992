import JsxLowering.Proofs.Boundaries
import JsxLowering.Proofs.Evaluation
import JsxLowering.Proofs.MarkupItems
import Mathlib.Data.List.Basic

/-!
# Rendering

`Markup.rendered` renders an element or a fragment directly, given the values of the member paths in
it. The function that outermost markup is lowered to returns the same text.
-/

namespace JsxLowering

/-! ## The renderer -/

/-- The text of a literal in an attribute. -/
def Leaf.attributeText : Leaf → String
  | .string text => text
  | .boolean value => if value then "true" else "false"
  | .null => "null"
  | .number value => value.text
  | _ => "undefined"

/-- The text of a literal among children: zero, not-a-number, `false` and `null` show nothing. -/
def Leaf.childText : Leaf → String
  | .string text => text
  | .boolean true => "true"
  | .number value => if value.isZero || value = .nan then "" else value.text
  | _ => ""

/-- The quote around the value of an attribute. Inside another attribute it is an entity. -/
def quoteMark (quoted : Bool) : String := if quoted then "&#39;" else "'"

/-- Text that is not the value of a path. Inside an attribute its single quotes are entities. -/
def literalText (quoted : Bool) (text : String) : String :=
  if quoted then Property.quote text else text

/-- An attribute with the blank before it. -/
def attributeMarkup (quoted : Bool) (name value : String) : String :=
  " " ++ name ++ "=" ++ quoteMark quoted ++ value ++ quoteMark quoted

/-- The member path whose value a value shows, if member paths become holes. -/
def Tree.shownPath? (holes : Bool) (value : Tree) : Option String :=
  if holes then value.staticPath? else none

mutual

/-- The text of an element or a fragment. `holes` says whether member paths show their values, and
`quoted` that the text stands inside an attribute. -/
def Markup.rendered (holes : Bool) (paths : Paths) (quoted : Bool) : Markup → String
  | .element _ tag attributes children =>
    "<" ++ tag.text ++ Attribute.renderedAll holes paths quoted attributes ++ ">"
      ++ Child.renderedAll holes paths quoted children ++ "</" ++ tag.text ++ ">"
  | .fragment _ children => Child.renderedAll holes paths quoted children

/-- The text of a value in an attribute. What is neither a literal nor markup nor a member path
shows as `undefined`. -/
def Tree.renderedInAttribute (holes : Bool) (paths : Paths) (quoted : Bool) : Tree → String
  | .leaf content => literalText quoted content.attributeText
  | .node form children =>
    match Tree.shownPath? holes (.node form children) with
    | some path => (paths path).shown
    | none => "undefined"
  | .markup value => value.rendered holes paths quoted

/-- The text of a value among children. What is neither a literal nor markup nor a member path
shows nothing. -/
def Tree.renderedInChild (holes : Bool) (paths : Paths) (quoted : Bool) : Tree → String
  | .leaf content => literalText quoted content.childText
  | .node form children =>
    match Tree.shownPath? holes (.node form children) with
    | some path => (paths path).shown
    | none => ""
  | .markup value => value.rendered holes paths quoted

/-- The text of an attribute; a spread shows nothing. -/
def Attribute.rendered (holes : Bool) (paths : Paths) (quoted : Bool) : Attribute → String
  | .flag name => attributeMarkup quoted name "true"
  | .text name raw => attributeMarkup quoted name (literalText true (Text.collapseWrapped raw))
  | .container name value =>
    attributeMarkup quoted name (value.renderedInAttribute holes paths true)
  | .markup name value => attributeMarkup quoted name (value.rendered holes paths true)
  | .spread _ => ""

def Attribute.renderedAll (holes : Bool) (paths : Paths) (quoted : Bool) : List Attribute → String
  | [] => ""
  | first :: rest =>
    first.rendered holes paths quoted ++ Attribute.renderedAll holes paths quoted rest

/-- The text of a child; a spread shows nothing. -/
def Child.rendered (holes : Bool) (paths : Paths) (quoted : Bool) : Child → String
  | .text raw => literalText quoted ((Text.clean raw).getD "")
  | .empty => ""
  | .container value => value.renderedInChild holes paths quoted
  | .markup value => value.rendered holes paths quoted
  | .spread _ => ""

def Child.renderedAll (holes : Bool) (paths : Paths) (quoted : Bool) : List Child → String
  | [] => ""
  | first :: rest => first.rendered holes paths quoted ++ Child.renderedAll holes paths quoted rest

end

/-! ## Written pieces -/

/-- How a piece shows; `quoted` says that it stands inside an attribute. -/
def Piece.shown (paths : Paths) (quoted : Bool) : Piece → List Char
  | .char c => if quoted && c = '\'' then "&#39;".toList else [c]
  | .path p => (paths p.dotted).shown.toList

/-- A template text that is made of settled pieces, with the text that the pieces show for all
values of paths; the paths have a property. -/
def Written (allowed : MemberName → Prop) (text : String) (shown : Paths → Bool → String) : Prop :=
  ∃ pieces : List Piece, text.toList = pieces.flatMap Piece.spelled
    ∧ Piece.areSettled pieces
    ∧ (∀ p ∈ Piece.paths pieces, p.isLegal ∧ allowed p)
    ∧ ∀ paths quoted, (shown paths quoted).toList = pieces.flatMap (Piece.shown paths quoted)

namespace Written

variable {allowed : MemberName → Prop} {text more : String}
  {shown shownMore : Paths → Bool → String}

/-- Written texts are written one after the other: no piece of the first waits for the second. -/
theorem append (h : Written allowed text shown) (hm : Written allowed more shownMore) :
    Written allowed (text ++ more) fun paths quoted =>
      shown paths quoted ++ shownMore paths quoted := by
  obtain ⟨pieces, spelled, settled, legal, shows⟩ := h
  obtain ⟨pieces', spelled', settled', legal', shows'⟩ := hm
  refine ⟨pieces ++ pieces', ?_, Piece.areSettled_append settled settled', fun p hp => ?_,
    fun paths quoted => ?_⟩
  · rw [String.toList_append, spelled, spelled', List.flatMap_append]
  · rw [Piece.paths, List.filterMap_append, List.mem_append] at hp
    exact hp.elim (legal p) (legal' p)
  · rw [String.toList_append, shows, shows', List.flatMap_append]

theorem nil : Written allowed "" fun _ _ => "" :=
  ⟨[], rfl, rfl, fun _ hp => (by cases hp), fun _ _ => rfl⟩

/-- The hole of a path shows the value of the path. -/
theorem path {p : MemberName} (hl : p.isLegal) (ha : allowed p) :
    Written allowed ("<%= " ++ p.dotted ++ " %>") fun paths _ => (paths p.dotted).shown := by
  refine ⟨[.path p], ?_, rfl, fun q hq => ?_, fun paths quoted => ?_⟩
  · simp [Piece.spelled, Template.pathCode]
  · rw [List.mem_singleton.mp hq]
    exact ⟨hl, ha⟩
  · simp [Piece.shown]

/-- Characters that are settled among themselves. -/
theorem chars (h : Piece.areSettled (text.toList.map .char)) :
    Written allowed text fun _ quoted => literalText quoted text := by
  refine ⟨text.toList.map .char, ?_, h, fun p hp => ?_, fun paths quoted => ?_⟩
  · simp [List.flatMap_map, Piece.spelled]
  · simp [Piece.paths] at hp
  · cases quoted with
    | false => simp [literalText, List.flatMap_map, Piece.shown]
    | true => simp [literalText, Property.quote, List.flatMap_map, Piece.shown]

/-- Characters open no hole if there is no angle bracket among them. -/
theorem areSettled_chars {cs : List Char} (h : '<' ∉ cs) : Piece.areSettled (cs.map .char) := by
  induction cs with
  | nil => rfl
  | cons c cs ih =>
    rw [List.mem_cons, not_or] at h
    have other : c ≠ '<' := fun heq => h.1 heq.symm
    simp [Piece.areSettled, other, ih h.2]

/-- A text without angle brackets. -/
theorem literal (h : Text.isBracketFree text) :
    Written allowed text fun _ quoted => literalText quoted text :=
  chars (areSettled_chars (Text.isBracketFree_iff.mp h))

/-- An angle bracket before a text that starts with another character than `%`. -/
theorem bracket (h : Text.isBracketFree text) {c : Char} (hc : text.toList.head? = some c)
    (hp : c ≠ '%') :
    Written allowed ("<" ++ text) fun _ quoted => literalText quoted ("<" ++ text) := by
  have free := areSettled_chars (Text.isBracketFree_iff.mp h)
  refine chars ?_
  cases hs : text.toList with
  | nil =>
    rw [hs] at hc
    cases hc
  | cons d ds =>
    rw [hs] at hc free
    cases hc
    rw [String.toList_append, hs]
    show Piece.areSettled (.char '<' :: (c :: ds).map .char)
    rw [Piece.areSettled, free]
    simp [Piece.closesBracket, hp]

/-- How a piece is written inside an attribute. -/
def quotedPiece : Piece → List Piece
  | .char c => if c = '\'' then "&#39;".toList.map .char else [.char c]
  | .path p => [.path p]

/-- Quoting a spelled piece is spelling the quoted piece: a path has no quote in it. -/
theorem spelled_quotedPiece {piece : Piece} (hl : ∀ p, piece = .path p → p.isLegal) :
    piece.spelled.flatMap (fun c => if c = '\'' then "&#39;".toList else [c])
      = (quotedPiece piece).flatMap Piece.spelled := by
  cases piece with
  | char c =>
    rw [quotedPiece]
    by_cases hc : c = '\''
    · rw [if_pos hc, hc]
      rfl
    · simp [Piece.spelled, hc]
  | path p =>
    -- neither the marks of a hole nor the path in it have a quote
    have free : ∀ c ∈ (Piece.path p).spelled, c ≠ '\'' := by
      intro c hc
      rintro rfl
      have dotted := MemberName.not_mem_dotted (hl p rfl) (c := '\'') rfl (by decide)
      simp [Piece.spelled, Template.pathCode, dotted] at hc
    have same : (Piece.path p).spelled.flatMap (fun c => if c = '\'' then "&#39;".toList else [c])
        = (Piece.path p).spelled.flatMap fun c => [c] :=
      List.flatMap_congr fun c hc => if_neg (free c hc)
    rw [same]
    simp [quotedPiece]

/-- A quoted piece shows, inside an attribute or not, what the piece shows inside one. -/
theorem shown_quotedPiece (paths : Paths) (quoted : Bool) (piece : Piece) :
    piece.shown paths true = (quotedPiece piece).flatMap (Piece.shown paths quoted) := by
  cases piece with
  | char c =>
    rw [quotedPiece]
    by_cases hc : c = '\''
    · rw [if_pos hc, hc]
      cases quoted <;> rfl
    · simp [Piece.shown, hc]
  | path p => simp [quotedPiece, Piece.shown]

/-- The entity of a quote starts with a character that opens no hole after a bracket. -/
theorem closesBracket_quoted {pieces : List Piece} (h : Piece.closesBracket pieces) :
    Piece.closesBracket (pieces.flatMap quotedPiece) := by
  cases pieces with
  | nil => cases h
  | cons piece rest =>
    cases piece with
    | path p => cases h
    | char c =>
      rw [List.flatMap_cons, quotedPiece]
      split
      · rfl
      · exact h

/-- Quoting keeps pieces settled. -/
theorem areSettled_quoted {pieces : List Piece} (h : Piece.areSettled pieces) :
    Piece.areSettled (pieces.flatMap quotedPiece) := by
  induction pieces with
  | nil => rfl
  | cons piece rest ih =>
    cases piece with
    | path p => exact ih h
    | char c =>
      rw [Piece.areSettled, Bool.and_eq_true, Bool.or_eq_true] at h
      rw [List.flatMap_cons, quotedPiece]
      split
      · exact Piece.areSettled_append (by decide) (ih h.2)
      · show Piece.areSettled (.char c :: rest.flatMap quotedPiece)
        rw [Piece.areSettled, Bool.and_eq_true, Bool.or_eq_true]
        exact ⟨h.1.imp_right closesBracket_quoted, ih h.2⟩

/-- Quoting keeps the paths. -/
theorem paths_quoted (pieces : List Piece) :
    Piece.paths (pieces.flatMap quotedPiece) = Piece.paths pieces := by
  induction pieces with
  | nil => rfl
  | cons piece rest ih =>
    rw [List.flatMap_cons, Piece.paths, List.filterMap_append, ← Piece.paths, ← Piece.paths, ih]
    cases piece with
    | char c =>
      rw [quotedPiece]
      split <;> rfl
    | path p => rfl

/-- A written text is written inside an attribute as well. -/
theorem quote (h : Written allowed text shown) :
    Written allowed (Property.quote text) fun paths _ => shown paths true := by
  obtain ⟨pieces, spelled, settled, legal, shows⟩ := h
  -- the pieces of the quoted text are the quoted pieces
  refine ⟨pieces.flatMap quotedPiece, ?_, areSettled_quoted settled, ?_, fun paths quoted => ?_⟩
  · rw [Property.quote, String.toList_ofList, spelled, List.flatMap_assoc, List.flatMap_assoc]
    refine List.flatMap_congr fun piece hp => spelled_quotedPiece fun p heq => ?_
    rw [heq] at hp
    exact (legal p (List.mem_filterMap.mpr ⟨_, hp, rfl⟩)).1
  · rw [paths_quoted]
    exact legal
  · rw [shows, List.flatMap_assoc]
    exact List.flatMap_congr fun piece _ => shown_quotedPiece paths quoted piece

/-- What is written may be described in other words. -/
theorem congr (h : Written allowed text shown) (ht : text = more)
    (hs : ∀ paths quoted, shown paths quoted = shownMore paths quoted) :
    Written allowed more shownMore := by
  obtain rfl : shown = shownMore := funext fun paths => funext fun quoted => hs paths quoted
  exact ht ▸ h

end Written

/-! ## Names and attributes -/

/-- Quoting goes character by character. -/
theorem Property.quote_append (text more : String) :
    Property.quote (text ++ more) = Property.quote text ++ Property.quote more := by
  simp [Property.quote, String.ofList_append]

/-- A quoted text has no quote left in it. -/
theorem Property.not_mem_quote (text : String) : '\'' ∉ (Property.quote text).toList := by
  rw [Property.quote, String.toList_ofList, List.mem_flatMap]
  rintro ⟨c, -, hc⟩
  by_cases h : c = '\''
  · rw [if_pos h] at hc
    exact absurd hc (by decide)
  · rw [if_neg h, List.mem_singleton] at hc
    exact h hc.symm

/-- Text that is no value of a path is written character by character. -/
theorem literalText_append (quoted : Bool) (text more : String) :
    literalText quoted (text ++ more) = literalText quoted text ++ literalText quoted more := by
  cases quoted with
  | false => rfl
  | true => exact Property.quote_append text more

/-- Text without quotes is the same inside an attribute. -/
theorem literalText_of_not_mem {text : String} (h : '\'' ∉ text.toList) (quoted : Bool) :
    literalText quoted text = text := by
  cases quoted with
  | false => rfl
  | true =>
    have same : text.toList.flatMap (fun c => if c = '\'' then "&#39;".toList else [c])
        = text.toList.flatMap fun c => [c] :=
      List.flatMap_congr fun c hc => if_neg (by rintro rfl; exact h hc)
    show String.ofList _ = _
    rw [same]
    simp

/-- A name in markup has only parts of names, hyphens, colons and dots. -/
theorem Text.not_mem_markupName {name : String} (h : Text.isMarkupName name) {c : Char}
    (hn : Text.isNamePart c = false) (hc : c ∉ ['-', ':', '.']) : c ∉ name.toList := by
  unfold Text.isMarkupName at h
  split at h
  · cases h
  · next d ds heq =>
    simp only [Bool.and_eq_true, List.all_eq_true, Bool.or_eq_true, decide_eq_true_eq] at h
    rw [heq]
    intro hm
    rcases List.mem_cons.mp hm with rfl | hd
    · rw [Text.isNamePart_of_isNameStart h.1] at hn
      cases hn
    · rcases h.2 c hd with ((part | rfl) | rfl) | rfl
      · rw [hn] at part
        cases part
      all_goals exact hc (by decide)

/-- A legal tag is written as a name. -/
theorem TagName.isMarkupName_of_isLegal {tag : TagName} (h : tag.isLegal) :
    Text.isMarkupName tag.text := by
  unfold TagName.isLegal at h
  exact (Bool.and_eq_true _ _ ▸ h).1

/-- A name in markup starts as a name. -/
theorem Text.head?_markupName {name : String} (h : Text.isMarkupName name) :
    ∃ c, name.toList.head? = some c ∧ Text.isNameStart c := by
  unfold Text.isMarkupName at h
  split at h
  · cases h
  · next c cs heq =>
    rw [Bool.and_eq_true] at h
    exact ⟨c, by rw [heq]; rfl, h.1⟩

/-- A name in markup has no angle bracket. -/
theorem Text.isBracketFree_markupName {name : String} (h : Text.isMarkupName name) :
    Text.isBracketFree name :=
  Text.isBracketFree_iff.mpr (Text.not_mem_markupName h rfl (by decide))

/-- A name in markup has no quote, so it is the same inside an attribute. -/
theorem literalText_markupName {name : String} (h : Text.isMarkupName name) (quoted : Bool) :
    literalText quoted name = name :=
  literalText_of_not_mem (Text.not_mem_markupName h rfl (by decide)) quoted

/-- Two texts without angle brackets make up another one. -/
theorem Text.isBracketFree_append {text more : String} (h : Text.isBracketFree text)
    (hm : Text.isBracketFree more) : Text.isBracketFree (text ++ more) := by
  rw [Text.isBracketFree_iff] at *
  rw [String.toList_append, List.mem_append, not_or]
  exact ⟨h, hm⟩

/-- The texts of attributes, each after a blank. -/
def spaced (texts : List String) : String := String.join (texts.map (" " ++ ·))

theorem spaced_cons (text : String) (rest : List String) :
    spaced (text :: rest) = " " ++ text ++ spaced rest := by
  rw [spaced, List.map_cons, String.join_cons, ← spaced]

/-- The characters of attributes, the blank before the first of them included. -/
theorem toList_spaced_cons (text : String) (rest : List String) :
    (spaced (text :: rest)).toList = ' ' :: (text.toList ++ (spaced rest).toList) := by
  rw [spaced_cons, String.append_assoc, String.toList_append, String.toList_append]
  rfl

theorem spaced_append (texts more : List String) :
    spaced (texts ++ more) = spaced texts ++ spaced more := by
  rw [spaced, List.map_append, String.join_append, ← spaced, ← spaced]

/-- Blanks between attributes are blanks before all but the first. -/
theorem intercalate_eq_spaced (text : String) (rest : List String) :
    " ".intercalate (text :: rest) = text ++ spaced rest := by
  induction rest generalizing text with
  | nil => simp [spaced]
  | cons next rest ih =>
    rw [String.intercalate_cons_cons, ih, spaced_cons]
    simp only [String.append_assoc]

/-- The text of an element, with its attributes one by one. -/
theorem compose_eq {texts : List String} (h : ∀ text ∈ texts, text ≠ "") (tag children : String) :
    compose tag (" ".intercalate texts) children
      = "<" ++ tag ++ spaced texts ++ ">" ++ children ++ "</" ++ tag ++ ">" := by
  have properties : (if " ".intercalate texts = "" then "" else " " ++ " ".intercalate texts)
      = spaced texts := by
    cases texts with
    | nil => rfl
    | cons text rest =>
      -- no attribute is empty, so the joined text is not taken for a missing one
      have filled : " ".intercalate (text :: rest) ≠ "" := by
        rw [intercalate_eq_spaced]
        exact fun heq => h text List.mem_cons_self (String.append_eq_empty_iff.mp heq).1
      rw [if_neg filled, intercalate_eq_spaced, spaced_cons, String.append_assoc]
  rw [compose, properties]

section
variable {allowed : MemberName → Prop} {text : String} {shown : Paths → Bool → String}

/-- An attribute is written from its value inside quotes. -/
theorem Written.attribute {name : String} (h : Written allowed text shown)
    (hn : Text.isMarkupName name) :
    Written allowed (spaced [attributeText name text])
      fun paths quoted => attributeMarkup quoted name (shown paths true) := by
  have free : Text.isBracketFree (" " ++ name ++ "='") :=
    Text.isBracketFree_append (Text.isBracketFree_append rfl (Text.isBracketFree_markupName hn)) rfl
  have start : Written allowed (" " ++ name ++ "='") fun _ quoted =>
      literalText quoted (" " ++ name ++ "='") :=
    Written.literal free
  have finish : Written allowed "'" fun _ quoted => literalText quoted "'" := Written.literal rfl
  -- the value is quoted once here, and a second time if the element stands in an attribute
  refine ((start.append h.quote).append finish).congr ?_ fun paths quoted => ?_
  · rw [spaced_cons, attributeText]
    simp only [spaced, List.map_nil, String.join_nil, String.append_empty, String.append_assoc]
  · rw [literalText_append, literalText_append, literalText_markupName hn]
    have equals : literalText quoted "='" = "=" ++ quoteMark quoted := by cases quoted <;> decide
    have mark : literalText quoted "'" = quoteMark quoted := by cases quoted <;> decide
    have blank : literalText quoted " " = " " := by cases quoted <;> decide
    rw [equals, mark, blank]
    simp only [attributeMarkup, String.append_assoc]

/-- An attribute without a value. -/
theorem Written.flag {name : String} (hn : Text.isMarkupName name) :
    Written allowed (spaced [attributeText name "true"])
      fun _ quoted => attributeMarkup quoted name "true" := by
  have plain : literalText true "true" = "true" := by decide
  have value : Written allowed "true" fun _ quoted => literalText quoted "true" :=
    Written.literal rfl
  refine (value.attribute hn).congr rfl fun _ quoted => ?_
  rw [plain]

/-- An attribute with a quoted value. -/
theorem Written.quotedText {name raw : String} (hn : Text.isMarkupName name)
    (hr : Text.isBracketFree raw) :
    Written allowed (spaced [attributeText name (Text.collapseWrapped raw)]) fun _ quoted =>
      attributeMarkup quoted name (literalText true (Text.collapseWrapped raw)) := by
  have value : Written allowed (Text.collapseWrapped raw) fun _ quoted =>
      literalText quoted (Text.collapseWrapped raw) :=
    Written.literal (Text.isBracketFree_collapseWrapped hr)
  exact value.attribute hn

/-- An element, from its attributes and children. -/
theorem Written.element {tag : String} {texts : List String} {children : String}
    {attributesShown childrenShown : Paths → Bool → String} (ht : Text.isMarkupName tag)
    (hf : ∀ text ∈ texts, text ≠ "") (ha : Written allowed (spaced texts) attributesShown)
    (hc : Written allowed children childrenShown) :
    Written allowed (compose tag (" ".intercalate texts) children) fun paths quoted =>
      "<" ++ tag ++ attributesShown paths quoted ++ ">" ++ childrenShown paths quoted
        ++ "</" ++ tag ++ ">" := by
  have free := Text.isBracketFree_markupName ht
  have plain (quoted : Bool) := literalText_markupName ht quoted
  have opening : Written allowed ("<" ++ tag) fun _ quoted => literalText quoted ("<" ++ tag) := by
    -- a name does not start with the mark that would make the bracket open a hole
    obtain ⟨c, hc, start⟩ := Text.head?_markupName ht
    refine Written.bracket free hc ?_
    rintro rfl
    exact absurd start (by decide)
  have middle : Written allowed ">" fun _ quoted => literalText quoted ">" := Written.literal rfl
  have closing : Written allowed ("<" ++ ("/" ++ tag ++ ">")) fun _ quoted =>
      literalText quoted ("<" ++ ("/" ++ tag ++ ">")) :=
    Written.bracket (Text.isBracketFree_append (Text.isBracketFree_append rfl free) rfl)
      (by simp only [String.toList_append]; rfl) (by decide)
  refine ((((opening.append ha).append middle).append hc).append closing).congr ?_
    fun paths quoted => ?_
  · rw [compose_eq hf]
    simp only [String.append_assoc]
    rfl
  · have less : literalText quoted "<" = "<" := by cases quoted <;> decide
    have greater : literalText quoted ">" = ">" := by cases quoted <;> decide
    have slash : literalText quoted "/" = "/" := by cases quoted <;> decide
    simp only [literalText_append, plain, less, greater, slash, String.append_assoc]
    rfl

end

/-! ## Values -/

/-- The serializer writes a literal in an attribute as it is rendered. -/
theorem Leaf.attributeText_eq (content : Leaf) :
    Property.valueText (.leaf content) = content.attributeText := by
  cases content <;> rfl

/-- The serializer writes a literal among children as it is rendered. -/
theorem Leaf.childText_eq (content : Leaf) :
    (Contribution.ofValue (.leaf content)).markup = content.childText := by
  -- the empty string, zero, `NaN` and `false` contribute nothing, which is the empty text
  cases content with
  | string text =>
    unfold Contribution.ofValue Leaf.childText
    by_cases h : text = "" <;> simp [h, Contribution.markup]
  | number value =>
    simp only [Contribution.ofValue, Leaf.childText]
    split <;> rfl
  | boolean value => cases value <;> rfl
  | _ => rfl

/-- An item that can be written: it is legal, its texts have no angle brackets, and its path is
allowed. -/
structure Item.IsWritable (allowed : MemberName → Prop) (item : Item) : Prop where
  isLegal : item.isLegal
  isBracketFree : item.isBracketFree
  path : ∀ p ∈ item.path?, allowed p

/-- Only a string can bring an angle bracket into an attribute. -/
theorem Leaf.isBracketFree_attributeText {content : Leaf}
    (h : (Item.value (.leaf content)).isBracketFree) :
    Text.isBracketFree content.attributeText := by
  cases content with
  | string text => exact h
  | number value => exact value.isBracketFree_text
  | boolean value => cases value <;> rfl
  | null => rfl
  | _ => exact (rfl : Text.isBracketFree "undefined" = true)

/-- Only a string can bring an angle bracket among the children. -/
theorem Leaf.isBracketFree_childText {content : Leaf}
    (h : (Item.value (.leaf content)).isBracketFree) : Text.isBracketFree content.childText := by
  cases content with
  | string text => exact h
  | number value =>
    rw [Leaf.childText]
    split
    · rfl
    · exact value.isBracketFree_text
  | boolean value => cases value <;> rfl
  | _ => exact (rfl : Text.isBracketFree "" = true)

/-- A value that is neither a literal nor markup: its hole if it is a path, else the text for what
has none. -/
theorem Written.node {allowed : MemberName → Prop} {form : Form} {children : List Tree}
    (h : Item.IsWritable allowed (.value (.node form children))) {other : String}
    (ho : Text.isBracketFree other) (hq : ∀ quoted, literalText quoted other = other)
    (holes : Bool) :
    Written allowed ((Tree.hole? holes (.node form children)).getD other) fun paths _ =>
      match Tree.shownPath? holes (.node form children) with
      | some path => (paths path).shown
      | none => other := by
  have legal := h.isLegal
  have allow := h.path
  simp only [Item.isLegal, Item.path?] at legal allow
  -- a value has a hole only if it is a path and paths are given holes
  cases holes with
  | false => exact (Written.literal ho).congr rfl fun _ quoted => hq quoted
  | true =>
    rw [Tree.hole?, if_pos rfl, Tree.shownPath?, if_pos rfl, Tree.staticPath?_eq]
    cases hp : (Tree.node form children).memberName? with
    | none => exact (Written.literal ho).congr rfl fun _ quoted => hq quoted
    | some p =>
      rw [hp] at legal allow
      exact Written.path legal (allow p rfl)

/-! ## Markup -/

/-- Every attribute that is written has at least an equals sign and quotes. -/
theorem Attribute.ne_empty_of_mem_denotedAll {holes : Bool} {items : List Attribute} {text : String}
    (h : text ∈ Attribute.denotedAll holes items) : text ≠ "" := by
  have filled (name value : String) : attributeText name value ≠ "" := by
    rw [attributeText]
    exact fun heq => absurd (String.append_eq_empty_iff.mp heq).2 (by decide)
  induction items with
  | nil => cases h
  | cons first rest ih =>
    rw [Attribute.denotedAll, List.mem_append] at h
    rcases h with own | later
    · cases first with
      | spread argument => cases own
      | _ =>
        rw [Attribute.denoted?] at own
        rw [List.mem_singleton.mp own]
        exact filled _ _
    · exact ih later

section
variable {allowed : MemberName → Prop} (holes : Bool)

mutual

/-- The text that markup denotes shows what is rendered. -/
theorem Markup.written : (value : Markup) → (∀ item ∈ value.items, item.IsWritable allowed) →
    Written allowed (value.denoted holes) fun paths quoted => value.rendered holes paths quoted
  | .element _ tag attributes children, h => by
    rw [Markup.items] at h
    have named := TagName.isMarkupName_of_isLegal (h (.tag tag) (by simp)).isLegal
    exact Written.element named (fun _ => Attribute.ne_empty_of_mem_denotedAll)
      (Attribute.writtenAll attributes fun item hi => h item (by simp [hi]))
      (Child.writtenAll children fun item hi => h item (by simp [hi]))
  | .fragment _ children, h => Child.writtenAll children h

theorem Tree.written_inAttribute : (value : Tree) →
    (∀ item ∈ value.items, item.IsWritable allowed) →
    Written allowed (value.textInAttribute holes) fun paths quoted =>
      value.renderedInAttribute holes paths quoted
  | .leaf content, h => by
    have free := Leaf.isBracketFree_attributeText (h _ List.mem_cons_self).isBracketFree
    exact (Written.literal free).congr content.attributeText_eq.symm fun _ _ => rfl
  | .node form children, h =>
    Written.node (h _ List.mem_cons_self) rfl (by decide) holes
  | .markup value, h => Markup.written value h

theorem Tree.written_inChild : (value : Tree) →
    (∀ item ∈ value.items, item.IsWritable allowed) →
    Written allowed (value.textInChild holes) fun paths quoted =>
      value.renderedInChild holes paths quoted
  | .leaf content, h => by
    have free := Leaf.isBracketFree_childText (h _ List.mem_cons_self).isBracketFree
    exact (Written.literal free).congr content.childText_eq.symm fun _ _ => rfl
  | .node form children, h =>
    Written.node (h _ List.mem_cons_self) rfl (by decide) holes
  | .markup value, h => Markup.written value h

/-- The text of an attribute, with the blank before it, shows what is rendered. -/
theorem Attribute.written : (item : Attribute) →
    (∀ part ∈ item.items, part.IsWritable allowed) →
    Written allowed (spaced (item.denoted? holes).toList) fun paths quoted =>
      item.rendered holes paths quoted
  | .flag name, h => Written.flag (h _ List.mem_cons_self).isLegal
  | .text name raw, h =>
    Written.quotedText (h _ List.mem_cons_self).isLegal
      (h _ (List.mem_cons_of_mem _ List.mem_cons_self)).isBracketFree
  | .container name value, h => by
    have inner := Tree.written_inAttribute value fun part hp => h part (List.mem_cons_of_mem _ hp)
    have whole := inner.attribute (h _ List.mem_cons_self).isLegal
    exact whole
  | .markup name value, h => by
    have inner := Markup.written value fun part hp => h part (List.mem_cons_of_mem _ hp)
    have whole := inner.attribute (h _ List.mem_cons_self).isLegal
    exact whole
  | .spread _, _ => Written.nil

theorem Attribute.writtenAll : (items : List Attribute) →
    (∀ item ∈ Attribute.itemsIn items, item.IsWritable allowed) →
    Written allowed (spaced (Attribute.denotedAll holes items)) fun paths quoted =>
      Attribute.renderedAll holes paths quoted items
  | [], _ => Written.nil
  | first :: rest, h => by
    rw [Attribute.itemsIn] at h
    have later := Attribute.writtenAll rest fun item hi => h item (List.mem_append_right _ hi)
    have own := Attribute.written first fun item hi => h item (List.mem_append_left _ hi)
    exact (own.append later).congr (spaced_append _ _).symm fun _ _ => rfl

theorem Child.writtenAll : (children : List Child) →
    (∀ item ∈ Child.itemsIn children, item.IsWritable allowed) →
    Written allowed (Child.denotedAll holes children) fun paths quoted =>
      Child.renderedAll holes paths quoted children
  | [], _ => Written.nil
  | first :: rest, h => by
    rw [Child.itemsIn] at h
    have later := Child.writtenAll rest fun item hi => h item (List.mem_append_right _ hi)
    replace h := fun item hi => h item (List.mem_append_left _ hi)
    refine Written.append ?_ later
    cases first with
    | text raw =>
      exact Written.literal (Text.isBracketFree_clean (h _ List.mem_cons_self).isLegal)
    | empty => exact Written.nil
    | container value => exact Tree.written_inChild value h
    | markup value => exact Markup.written value h
    | spread argument => exact Written.nil

end

end

/-! ## The function of outermost markup -/

/-- The texts and holes that pieces are split into show what the pieces show. -/
theorem Piece.flatMap_shown_eq (paths : Paths) (pieces : List Piece) :
    (Piece.split pieces).1 ++ holesText paths (Piece.split pieces).2
      = pieces.flatMap (Piece.shown paths false) := by
  induction pieces with
  | nil => rfl
  | cons piece pieces ih =>
    cases piece with
    | char c =>
      rw [List.flatMap_cons, ← ih]
      rfl
    | path p =>
      rw [List.flatMap_cons, ← ih, Piece.split, Piece.shown, holesText, List.flatMap_cons,
        List.nil_append, ← holesText, List.append_assoc]

/-- A written text compiles to a function. -/
theorem Written.compile {allowed : MemberName → Prop} {text : String}
    {shown : Paths → Bool → String} (h : Written allowed text shown) :
    ∃ function, Template.compile text = .ok function := by
  obtain ⟨pieces, spelled, settled, legal, -⟩ := h
  exact ⟨_, Template.compile_spelled spelled settled fun p hp => (legal p hp).1⟩

/-- The function that a written text compiles to returns what the text shows. -/
theorem Written.call {text : String} {shown : Paths → Bool → String}
    (h : Written (fun p => p.isOutside) text shown) {function : Tree}
    (hf : Template.compile text = .ok function) (paths : Paths) :
    function.call paths = some (.string (shown paths false)) := by
  obtain ⟨pieces, spelled, settled, legal, shows⟩ := h
  rw [Template.compile_spelled spelled settled fun p hp => (legal p hp).1] at hf
  cases hf
  have returned := call_functionTree paths (Piece.split pieces).1
    fun hole hm => legal hole.1 (Piece.fst_mem_split hm)
  rw [Piece.flatMap_shown_eq, ← shows, String.ofList_toList] at returned
  exact returned

/-- Markup whose text compiles only fails for a tag. -/
theorem Markup.compile_of_ok {settings : Settings} {m : Markup} {function : Tree}
    (h : Template.compile (m.denoted settings.memberPlaceholders) = .ok function)
    (scopes : Scopes) :
    m.compile settings scopes
      = match Occurrence.firstFailure settings.rules (m.elements scopes) with
        | some failure => .error failure
        | none => .ok function := by
  unfold Markup.compile
  cases Occurrence.firstFailure settings.rules (m.elements scopes) with
  | some failure => rfl
  | none => simp only [h]

/-- With no look-up of tags, no tag is missing. -/
theorem Occurrence.firstFailure_of_captureScope {rules : TagRules} (h : rules.captureScope = false)
    (found : List Occurrence) : Occurrence.firstFailure rules found = none := by
  rw [Occurrence.firstFailure, List.find?_eq_none.mpr, Option.map_none]
  intro o _
  simp [Occurrence.isMissing, h]

/-- Outermost markup is lowered to a function that returns the markup as it is rendered, whatever
the values of the member paths in it are. The names in the markup are legal, no quoted attribute and
no string in braces holds an angle bracket, and no member path starts at a variable of the
function. -/
theorem Markup.lower_renders {options : Options} {m : Markup} {s : Session}
    (hc : options.captureScope = false) (hs : s.boundary = {}) (hn : m.isNested none)
    (hi : ∀ item ∈ m.items, item.isLegal ∧ item.isBracketFree)
    (hp : ∀ item ∈ m.items, ∀ p ∈ item.path?, p.isOutside) (scopes : Scopes) :
    ∃ function session, m.lower options.settings scopes s = .ok (function, session)
      ∧ function.isAnonymousFunction
      ∧ ∀ paths, function.call paths
          = some (.string (m.rendered options.memberPlaceholders paths false)) := by
  -- the text is written, so it compiles; the function it compiles to returns what it shows
  have writable (item : Item) (hm : item ∈ m.items) : item.IsWritable fun p => p.isOutside :=
    ⟨(hi item hm).1, (hi item hm).2, hp item hm⟩
  have written := m.written options.settings.memberPlaceholders writable
  obtain ⟨function, compiled⟩ := written.compile
  have lowered : m.compile options.settings scopes = .ok function := by
    rw [Markup.compile_of_ok compiled, Occurrence.firstFailure_of_captureScope hc]
  refine ⟨function, s.afterTemplates 1, ?_, Template.isAnonymousFunction_of_compile compiled,
    fun paths => written.call compiled paths⟩
  rw [Markup.lower_exterior options.settings hs scopes m hn, lowered]
  rfl

/-- An element with a member path and numbers among its values, and with markup in an attribute
that has an attribute with a quote in its turn. -/
def greeting : Markup :=
  .element 0 (.plain "p")
    [.markup "a" (.element 5 (.plain "b") [.text "c" "it's"] []), .flag "d",
     .container "e" (.number (Number.ofDecimal false 5 (-1)))]
    [.text "Hello,\n  ", .container (.node (.member "name" false) [.identifier "user"]),
     .container (.number (Number.ofDecimal false 12 0)),
     .container (.node (.call false) [.identifier "f", .markup (.fragment 60 [])])]

/-- The path shows its value, the numbers their digits, and the quote in the inner attribute an
entity; the call shows nothing. -/
theorem lower_greeting : ∃ function session,
    greeting.lower ({} : Options).settings [] {} = .ok (function, session)
      ∧ function.call (fun _ => .other "7")
          = some (.string
              "<p a='<b c=&#39;it&#39;s&#39;></b>' d='true' e='0.5'>Hello,712</p>") := by
  have captures : ({} : Options).captureScope = false := rfl
  obtain ⟨function, session, lowered, -, returns⟩ := Markup.lower_renders captures
    (m := greeting) (s := {}) rfl (by decide) (by decide) (by decide) []
  have text : greeting.rendered true (fun _ => .other "7") false
      = "<p a='<b c=&#39;it&#39;s&#39;></b>' d='true' e='0.5'>Hello,712</p>" := by
    decide
  exact ⟨function, session, lowered, text ▸ returns _⟩

end JsxLowering
