import JsxLowering.Tree.Basic

/-!
# Walks over trees

Properties of every node of a tree, and the markup that a tree holds.
-/

namespace JsxLowering

mutual

/-- Whether every form in the tree has a property. -/
def Tree.allForms (p : Form → Bool) : Tree → Bool
  | .leaf _ => true
  | .node form children => p form && Tree.allFormsIn p children
  | .markup value => value.allForms p

def Tree.allFormsIn (p : Form → Bool) : List Tree → Bool
  | [] => true
  | tree :: rest => tree.allForms p && Tree.allFormsIn p rest

def Markup.allForms (p : Form → Bool) : Markup → Bool
  | .element _ _ attributes children =>
    Attribute.allFormsIn p attributes && Child.allFormsIn p children
  | .fragment _ children => Child.allFormsIn p children

def Attribute.allForms (p : Form → Bool) : Attribute → Bool
  | .flag _ => true
  | .text _ _ => true
  | .container _ value => value.allForms p
  | .markup _ value => value.allForms p
  | .spread argument => argument.allForms p

def Attribute.allFormsIn (p : Form → Bool) : List Attribute → Bool
  | [] => true
  | first :: rest => first.allForms p && Attribute.allFormsIn p rest

def Child.allForms (p : Form → Bool) : Child → Bool
  | .text _ => true
  | .empty => true
  | .container value => value.allForms p
  | .markup value => value.allForms p
  | .spread argument => argument.allForms p

def Child.allFormsIn (p : Form → Bool) : List Child → Bool
  | [] => true
  | first :: rest => first.allForms p && Child.allFormsIn p rest

end

mutual

/-- Whether the tree holds no markup. -/
def Tree.isPlain : Tree → Bool
  | .leaf _ => true
  | .node _ children => Tree.arePlain children
  | .markup _ => false

def Tree.arePlain : List Tree → Bool
  | [] => true
  | tree :: rest => tree.isPlain && Tree.arePlain rest

end

mutual

/-- The number of elements and fragments in a tree. -/
def Tree.markupCount : Tree → Nat
  | .leaf _ => 0
  | .node _ children => Tree.markupCountIn children
  | .markup value => value.markupCount

def Tree.markupCountIn : List Tree → Nat
  | [] => 0
  | tree :: rest => tree.markupCount + Tree.markupCountIn rest

def Markup.markupCount : Markup → Nat
  | .element _ _ attributes children =>
    1 + (Attribute.markupCountIn attributes + Child.markupCountIn children)
  | .fragment _ children => 1 + Child.markupCountIn children

def Attribute.markupCount : Attribute → Nat
  | .flag _ => 0
  | .text _ _ => 0
  | .container _ value => value.markupCount
  | .markup _ value => value.markupCount
  | .spread argument => argument.markupCount

def Attribute.markupCountIn : List Attribute → Nat
  | [] => 0
  | first :: rest => first.markupCount + Attribute.markupCountIn rest

def Child.markupCount : Child → Nat
  | .text _ => 0
  | .empty => 0
  | .container value => value.markupCount
  | .markup value => value.markupCount
  | .spread argument => argument.markupCount

def Child.markupCountIn : List Child → Nat
  | [] => 0
  | first :: rest => first.markupCount + Child.markupCountIn rest

end

/-- The text of a name, which may be quoted. -/
def Tree.nameText : Tree → String
  | .identifier name => name
  | .string text => text
  | _ => ""

/-- Whether a parameter only gives the type of `this`. -/
def Tree.isThisParameter : Tree → Bool
  | .this => true
  | .node (.typed _) (.this :: _) => true
  | _ => false

/-- The parameters of a function, without the type of `this`. -/
def Tree.inputs : Tree → List Tree
  | .node .parameters items => items.filter (!·.isThisParameter)
  | .node .signature [_, .node .parameters items, _] => items.filter (!·.isThisParameter)
  | _ => []

end JsxLowering
