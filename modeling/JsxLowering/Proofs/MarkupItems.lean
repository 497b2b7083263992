import JsxLowering.Number.Text
import JsxLowering.Proofs.MemberPaths
import JsxLowering.Text.Cleanup
import JsxLowering.Text.Wrapped

/-!
# What markup is made of

The names, texts and values that the text of an element or a fragment is made of, and what a source
promises about them: names are names, and no text holds an angle bracket.
-/

namespace JsxLowering

/-- A name, a text or a value in markup. -/
inductive Item
  | tag (tag : TagName)
  | attribute (name : String)
  /-- The text of a child as it is written. -/
  | childText (raw : String)
  /-- The quoted value of an attribute as it is written. -/
  | attributeText (raw : String)
  /-- A value in braces. -/
  | value (value : Tree)

mutual

/-- The names, texts and values that the text of markup is made of. -/
def Markup.items : Markup → List Item
  | .element _ tag attributes children =>
    .tag tag :: Attribute.itemsIn attributes ++ Child.itemsIn children
  | .fragment _ children => Child.itemsIn children

/-- Those of a value in braces. Markup in it stands for itself. -/
def Tree.items : Tree → List Item
  | .leaf content => [.value (.leaf content)]
  | .node form children => [.value (.node form children)]
  | .markup value => value.items

def Attribute.items : Attribute → List Item
  | .flag name => [.attribute name]
  | .text name raw => [.attribute name, .attributeText raw]
  | .container name value => .attribute name :: value.items
  | .markup name value => .attribute name :: value.items
  | .spread _ => []

def Attribute.itemsIn : List Attribute → List Item
  | [] => []
  | first :: rest => first.items ++ Attribute.itemsIn rest

def Child.items : Child → List Item
  | .text raw => [.childText raw]
  | .empty => []
  | .container value => value.items
  | .markup value => value.items
  | .spread _ => []

def Child.itemsIn : List Child → List Item
  | [] => []
  | first :: rest => first.items ++ Child.itemsIn rest

end

/-- Whether a text can be the name of a tag or an attribute: names with hyphens in them, joined by
dots and colons. -/
def Text.isMarkupName (name : String) : Bool :=
  match name.toList with
  | [] => false
  | c :: cs => isNameStart c && cs.all fun d => isNamePart d || d = '-' || d = ':' || d = '.'

/-- Whether a tag is one that a source can spell. A reference is a name of its own and not
`this`. -/
def TagName.isLegal (tag : TagName) : Bool :=
  Text.isMarkupName tag.text && match tag with
    | .reference name => Text.isIdentifierName name && name ≠ "this"
    | _ => true

/-- Whether a text holds no opening angle bracket. -/
def Text.isBracketFree (text : String) : Bool := !text.toList.contains '<'

namespace Item

/-- The member path that a value spells. -/
def path? : Item → Option MemberName
  | .value tree => tree.memberName?
  | _ => none

/-- Whether a source can spell an item: names are legal, and the text of a child ends at the next
angle bracket. -/
def isLegal : Item → Bool
  | .tag found => found.isLegal
  | .attribute name => Text.isMarkupName name
  | .childText raw => Text.isBracketFree raw
  | .attributeText _ => true
  | .value tree => tree.memberName?.all MemberName.isLegal

/-- Whether neither the quoted value of an attribute nor a string in braces holds an angle
bracket. -/
def isBracketFree : Item → Bool
  | .attributeText raw => Text.isBracketFree raw
  | .value (.leaf (.string text)) => Text.isBracketFree text
  | _ => true

end Item

/-! ## Angle brackets in texts -/

namespace Text

theorem isBracketFree_iff {text : String} : isBracketFree text ↔ '<' ∉ text.toList := by
  simp [isBracketFree]

/-- Lines are cut out of a text, so their characters are characters of it. -/
theorem mem_lines {cs line : List Char} {c : Char} (hl : line ∈ lines cs) (hc : c ∈ line) :
    c ∈ cs := by
  -- one case each for the end, a CR LF pair, a single break and a character of the first line
  fun_induction lines cs generalizing line with
  | case1 =>
    rw [List.mem_singleton.mp hl] at hc
    cases hc
  | case2 cs ih =>
    rcases List.mem_cons.mp hl with rfl | hm
    · cases hc
    · exact List.mem_cons_of_mem _ (List.mem_cons_of_mem _ (ih hm hc))
  | case3 d cs _ _ ih =>
    rcases List.mem_cons.mp hl with rfl | hm
    · cases hc
    · exact List.mem_cons_of_mem _ (ih hm hc)
  | case4 d cs _ _ _ ih => grind
  | case5 d cs _ _ first rest heq ih => grind

theorem mem_trimLeft {line : List Char} {c : Char} (h : c ∈ trimLeft line) : c ∈ line :=
  (List.dropWhile_suffix _).subset h

theorem mem_trimRight {line : List Char} {c : Char} (h : c ∈ trimRight line) : c ∈ line :=
  List.mem_reverse.mp ((List.dropWhile_suffix _).subset (List.mem_reverse.mp h))

/-- Without its tabs, a line has nothing but its other characters and spaces. -/
theorem mem_untab {line : List Char} {c : Char} (h : c ∈ untab line) :
    c ≠ '\t' ∧ (c ∈ line ∨ c = ' ') := by
  obtain ⟨d, hd, rfl⟩ := List.mem_map.mp h
  split
  · exact ⟨by decide, .inr rfl⟩
  · next other => exact ⟨other, .inl hd⟩

/-- Tabs become spaces first, and trimming only drops characters. -/
theorem mem_trimLine {first last : Bool} {line : List Char} {c : Char}
    (h : c ∈ trimLine first last line) : c ∈ untab line := by
  unfold trimLine at h
  cases first <;> cases last
  · exact mem_trimLeft (mem_trimRight h)
  · exact mem_trimLeft h
  · exact mem_trimRight h
  · exact h

/-- Joined lines have the characters of the lines and the spaces between them. -/
theorem mem_joinLines {first : Bool} {rows : List (List Char)} {c : Char}
    (h : c ∈ joinLines first rows) : (∃ line ∈ rows, c ∈ untab line) ∨ c = ' ' := by
  induction rows generalizing first with
  | nil => cases h
  | cons line rest ih =>
    rw [joinLines, List.mem_append] at h
    rcases h with piece | more
    · have kept : c ∈ trimLine first rest.isEmpty line ∨ c = ' ' := by
        split at piece
        · exact .inl piece
        · rwa [List.mem_append, List.mem_singleton] at piece
      exact kept.imp_left fun hc => ⟨line, List.mem_cons_self, mem_trimLine hc⟩
    · exact (ih more).imp_left fun ⟨row, hr, hc⟩ => ⟨row, List.mem_cons_of_mem _ hr, hc⟩

/-- Cleaning adds no characters but spaces. -/
theorem mem_cleanChars {raw : List Char} {c : Char} (h : c ∈ cleanChars raw) :
    c ∈ raw ∨ c = ' ' := by
  rcases mem_joinLines h with ⟨line, hl, hc⟩ | rfl
  · exact (mem_untab hc).2.imp_left fun hm => mem_lines hl hm
  · exact .inr rfl

/-- Cleaned text has no angle bracket that the raw text has not. -/
theorem isBracketFree_clean {raw : String} (h : isBracketFree raw) :
    isBracketFree ((clean raw).getD "") := by
  rw [isBracketFree_iff] at h ⊢
  unfold clean
  split
  · exact List.not_mem_nil
  · intro hc
    rw [Option.getD_some, String.toList_ofList] at hc
    rcases mem_cleanChars hc with hr | hs
    · exact h hr
    · cases hs

/-- Collapsing line breaks adds no characters but spaces. -/
theorem mem_collapseFrom {inRun : Bool} {cs : List Char} {c : Char}
    (h : c ∈ collapseFrom inRun cs) : c ∈ cs ∨ c = ' ' := by
  fun_induction collapseFrom inRun cs with
  | case1 => cases h
  | _ => grind

/-- An attribute text with its line breaks collapsed has no angle bracket that the raw text has
not. -/
theorem isBracketFree_collapseWrapped {raw : String} (h : isBracketFree raw) :
    isBracketFree (collapseWrapped raw) := by
  rw [isBracketFree_iff] at h ⊢
  intro hc
  rw [collapseWrapped, String.toList_ofList] at hc
  rcases mem_collapseFrom hc with hr | hs
  · exact h hr
  · cases hs

end Text

/-! ## Angle brackets in numbers -/

/-- Figures are digits. -/
theorem Decimal.lt_not_mem_figures (d : Decimal) : '<' ∉ d.figures := by
  intro h
  exact absurd (Nat.isDigit_of_mem_toDigits (by decide) (by decide) h) (by decide)

/-- A number written out has figures, zeros and a point. -/
theorem Decimal.isBracketFree_positional (d : Decimal) : Text.isBracketFree d.positional := by
  have figures := d.lt_not_mem_figures
  rw [Text.isBracketFree_iff, Decimal.positional, String.toList_ofList]
  split
  · simp [figures]
  split
  · have taken : '<' ∉ d.figures.take d.point.toNat := fun h => figures (List.mem_of_mem_take h)
    have dropped : '<' ∉ d.figures.drop d.point.toNat := fun h => figures (List.mem_of_mem_drop h)
    simp [taken, dropped]
  · simp [figures]

/-- A sign is no angle bracket. -/
theorem Number.isBracketFree_signed (n : Number) {text : String} (h : Text.isBracketFree text) :
    Text.isBracketFree (n.signed text) := by
  rw [Text.isBracketFree_iff] at h ⊢
  unfold Number.signed
  split
  · simp [h]
  · exact h

/-- No number is written with an angle bracket, whichever of its forms it takes. -/
theorem Number.isBracketFree_text (n : Number) : Text.isBracketFree n.text := by
  have natural (k : Nat) : Text.isBracketFree (toString k) := by
    rw [Text.isBracketFree_iff, Nat.toString_eq_repr, Nat.toList_repr]
    intro h
    exact absurd (Nat.isDigit_of_mem_toDigits (by decide) (by decide) h) (by decide)
  -- the cases are those of the text: no number, infinity, zero, an integer, and a fraction
  unfold Number.text
  split
  · rfl
  · exact Number.isBracketFree_signed _ rfl
  · split
    · rfl
    · split
      · apply Number.isBracketFree_signed
        split
        · exact natural _
        · exact Decimal.isBracketFree_positional _
      · exact Number.isBracketFree_signed _ (Decimal.isBracketFree_positional _)

end JsxLowering
