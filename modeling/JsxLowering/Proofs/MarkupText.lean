import JsxLowering.Lowering.Pass

/-!
# The text that markup denotes

`Markup.denoted` gives the text of an element or a fragment by recursion on the tree alone: no
boundary, no scopes and no offsets enter it. `holes` says whether static member paths become holes
of the template. `Tree.replaceMarkup` puts something in the place of each outermost markup of a
tree, and `Tree.outermost` lists that markup.
-/

namespace JsxLowering

/-! ## Texts -/

/-- The hole that stands for a value, if it is a static member path and these become holes. -/
def Tree.hole? (holes : Bool) (value : Tree) : Option String :=
  if holes then value.staticPath?.map fun path => "<%= " ++ path ++ " %>" else none

/-- `name='text'`, with the quotes in the text written as entities. -/
def attributeText (name text : String) : String := name ++ "='" ++ Property.quote text ++ "'"

mutual

/-- The text of an element or a fragment. -/
def Markup.denoted (holes : Bool) : Markup → String
  | .element _ tag attributes children =>
    compose tag.text (" ".intercalate (Attribute.denotedAll holes attributes))
      (Child.denotedAll holes children)
  | .fragment _ children => Child.denotedAll holes children

/-- The text of a value in an attribute: of markup its own, of a literal its spelling, of a static
member path its hole, and `undefined` for all else. -/
def Tree.textInAttribute (holes : Bool) : Tree → String
  | .leaf content => Property.valueText (.leaf content)
  | .node form children => (Tree.hole? holes (.node form children)).getD "undefined"
  | .markup value => value.denoted holes

/-- The text of a value among children: of markup its own, of a literal what it renders, of a
static member path its hole, and nothing for all else. -/
def Tree.textInChild (holes : Bool) : Tree → String
  | .leaf content => (Contribution.ofValue (.leaf content)).markup
  | .node form children => (Tree.hole? holes (.node form children)).getD ""
  | .markup value => value.denoted holes

/-- The text of an attribute. A spread has none. -/
def Attribute.denoted? (holes : Bool) : Attribute → Option String
  | .flag name => some (attributeText name "true")
  | .text name raw => some (attributeText name (Text.collapseWrapped raw))
  | .container name value => some (attributeText name (value.textInAttribute holes))
  | .markup name value => some (attributeText name (value.denoted holes))
  | .spread _ => none

/-- The texts of the attributes that have one. -/
def Attribute.denotedAll (holes : Bool) : List Attribute → List String
  | [] => []
  | first :: rest => (first.denoted? holes).toList ++ Attribute.denotedAll holes rest

/-- The text of a child. -/
def Child.denoted (holes : Bool) : Child → String
  | .text raw => (Text.clean raw).getD ""
  | .empty => ""
  | .container value => value.textInChild holes
  | .markup value => value.denoted holes
  | .spread _ => ""

/-- The text of children, one after the other. -/
def Child.denotedAll (holes : Bool) : List Child → String
  | [] => ""
  | first :: rest => first.denoted holes ++ Child.denotedAll holes rest

end

/-! ## Outermost markup -/

mutual

/-- The tree with `f` applied to each outermost markup. -/
def Tree.replaceMarkup (f : Markup → Tree) : Tree → Tree
  | .leaf content => .leaf content
  | .node form children => .node form (Tree.replaceMarkupIn f children)
  | .markup value => f value

def Tree.replaceMarkupIn (f : Markup → Tree) : List Tree → List Tree
  | [] => []
  | tree :: rest => tree.replaceMarkup f :: Tree.replaceMarkupIn f rest

end

mutual

/-- The markup of a tree that lies in no other markup, in order. -/
def Tree.outermost : Tree → List Markup
  | .leaf _ => []
  | .node _ children => Tree.outermostIn children
  | .markup value => [value]

def Tree.outermostIn : List Tree → List Markup
  | [] => []
  | tree :: rest => tree.outermost ++ Tree.outermostIn rest

end

/-! ## Parts of markup -/

/-- The string literal that markup inside other markup becomes. -/
def Markup.literal (holes : Bool) (markup : Markup) : Tree := .string (markup.denoted holes)

/-- The property that an attribute becomes. -/
def Attribute.property (holes : Bool) : Attribute → Property
  | .flag name => .named name Property.flagValue none
  | .text name raw => .named name (Property.textValue raw) none
  | .container name value =>
    .named name (value.replaceMarkup (Markup.literal holes)) (value.hole? holes)
  | .markup name value => .named name (value.literal holes) none
  | .spread argument => .spread (argument.replaceMarkup (Markup.literal holes))

/-- What a child contributes. -/
def Child.contribution (holes : Bool) : Child → Contribution
  | .text raw =>
    match Text.clean raw with
    | some content => .text content
    | none => .inert
  | .empty => .inert
  | .container value =>
    .ofTree (value.replaceMarkup (Markup.literal holes)) (value.hole? holes)
  | .markup value => .ofTree (value.literal holes) none
  | .spread argument => .dynamic (argument.replaceMarkup (Markup.literal holes)) none

@[simp] theorem Tree.hole?_leaf (holes : Bool) (content : Leaf) :
    Tree.hole? holes (.leaf content) = none := by
  cases holes <;> rfl

@[simp] theorem Tree.hole?_markup (holes : Bool) (value : Markup) :
    Tree.hole? holes (.markup value) = none := by
  cases holes <;> rfl

/-- The literal that markup becomes contributes the text of the markup, also if that is empty. -/
theorem Contribution.markup_ofTree_literal (holes : Bool) (value : Markup) :
    (Contribution.ofTree (value.literal holes) none).markup = value.denoted holes := by
  unfold Markup.literal Contribution.ofTree Contribution.ofValue
  by_cases h : value.denoted holes = "" <;> simp [h, Contribution.markup]

/-- The text of an attribute is that of the property it becomes. -/
theorem Attribute.attribute?_property (holes : Bool) (item : Attribute) :
    (item.property holes).attribute? = item.denoted? holes := by
  cases item with
  | flag name => rfl
  | text name raw => rfl
  | container name value =>
    cases value with
    | leaf content =>
      simp only [property, Property.attribute?, denoted?, Tree.hole?_leaf,
        Tree.textInAttribute, Tree.replaceMarkup, Option.getD_none, attributeText]
    | node form children =>
      simp only [property, Property.attribute?, denoted?, Tree.textInAttribute,
        Tree.replaceMarkup, attributeText, Property.valueText]
    | markup value =>
      simp only [property, Property.attribute?, denoted?, Tree.hole?_markup,
        Tree.textInAttribute, Tree.replaceMarkup, Option.getD_none, attributeText,
        Markup.literal, Property.valueText]
  | markup name value => rfl
  | spread argument => rfl

/-- The markup that a child contributes is its text. -/
theorem Child.markup_contribution (holes : Bool) (child : Child) :
    (child.contribution holes).markup = child.denoted holes := by
  cases child with
  | text raw =>
    simp only [contribution, denoted]
    cases Text.clean raw <;> rfl
  | empty => rfl
  | container value =>
    cases value with
    | leaf content =>
      simp only [contribution, denoted, Tree.hole?_leaf, Tree.textInChild,
        Tree.replaceMarkup, Contribution.ofTree]
    | node form children =>
      simp only [contribution, denoted, Tree.textInChild, Tree.replaceMarkup]
      cases Tree.hole? holes (.node form children) <;> rfl
    | markup value =>
      simp only [contribution, denoted, Tree.hole?_markup, Tree.textInChild,
        Tree.replaceMarkup, Contribution.markup_ofTree_literal]
  | markup value => exact Contribution.markup_ofTree_literal holes value
  | spread argument => rfl

/-- The attribute text of properties lists the texts that attributes denote. -/
theorem propertyText_map_property (holes : Bool) (items : List Attribute) :
    propertyText (items.map (Attribute.property holes))
      = " ".intercalate (Attribute.denotedAll holes items) := by
  have texts : (items.map (Attribute.property holes)).filterMap Property.attribute?
      = Attribute.denotedAll holes items := by
    induction items with
    | nil => rfl
    | cons first rest ih =>
      rw [List.map_cons, List.filterMap_cons, Attribute.attribute?_property, Attribute.denotedAll,
        ih]
      cases first.denoted? holes <;> rfl
  rw [propertyText, texts]

/-- What children contribute makes up the texts that they denote. -/
theorem childrenText_map_contribution (holes : Bool) (children : List Child) :
    childrenText (children.map (Child.contribution holes))
      = Child.denotedAll holes children := by
  induction children with
  | nil => rfl
  | cons first rest ih =>
    rw [childrenText] at ih ⊢
    rw [List.map_cons, List.map_cons, String.join_cons, ih, Child.markup_contribution,
      Child.denotedAll]

end JsxLowering
