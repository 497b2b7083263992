import JsxLowering.Diagnostic
import JsxLowering.Markup.Property
import JsxLowering.Options.Basic
import JsxLowering.Scope.Basic

/-!
# Resolution of tags

A tag is intrinsic, standing for its own name, or bound, standing for a value in scope. A tag that
should be bound and is not is missing.
-/

namespace JsxLowering

/-- How a tag that is looked up resolves. -/
inductive Resolution
  | intrinsic
  | bound
  | missing
deriving DecidableEq, Repr

/-- Intrinsic if nothing is built in and the name is unbound, or if the tag is built in; bound if
the name is bound or missing tags are tolerated; missing otherwise. -/
def TagRules.decide (rules : TagRules) (tag : String) (inScope : Bool) : Resolution :=
  if (!rules.hasBuiltins && !inScope) || rules.isBuiltin tag then .intrinsic
  else if !rules.throwOnMissing || inScope then .bound
  else .missing

/-- A resolved tag. -/
inductive ResolvedTag
  | intrinsic (name : String)
  | bound (name : String) (reference : Tree)

namespace ResolvedTag

def text : ResolvedTag → String
  | .intrinsic name => name
  | .bound name _ => name

def isBound : ResolvedTag → Bool
  | .intrinsic _ => false
  | .bound .. => true

/-- The name, or the pair of the name and the value it is bound to. -/
def toTree : ResolvedTag → Tree
  | .intrinsic name => .string name
  | .bound name reference => .node .array [.string name, reference]

end ResolvedTag

/-- The name to look up for a tag and the expression for its value. Namespaced and hyphenated tags
and `this` are never looked up. -/
def TagName.lookup? : TagName → Option (String × Tree)
  | .member name => some (name.root.text, name.reference)
  | .reference name => some (name, .identifier name)
  | .plain name =>
    if name ≠ "this" && Text.isIdentifierName name then some (name, .identifier name) else none
  | .this => none
  | .namespaced .. => none

/-- Resolves a tag against the names in scope. -/
def TagName.resolve (tag : TagName) (rules : TagRules) (binds : String → Bool) :
    Except Fault ResolvedTag :=
  if !rules.captureScope then .ok (.intrinsic tag.text)
  else match tag.lookup? with
    | none => .ok (.intrinsic tag.text)
    | some (name, value) =>
      match rules.decide tag.text (binds name) with
      | .intrinsic => .ok (.intrinsic tag.text)
      | .bound => .ok (.bound tag.text value)
      | .missing => .error (.unresolvedTag tag.text)

/-- What is known of an element once its tag is resolved. -/
structure Descriptor where
  tag : ResolvedTag
  properties : List Property
  propertyText : String
  children : Option (List Tree) := none

namespace Descriptor

/-- Describes an opening tag. -/
def ofOpening (tag : TagName) (properties : List Property) (rules : TagRules)
    (binds : String → Bool) : Except Fault Descriptor :=
  (tag.resolve rules binds).map fun tag =>
    { tag, properties, propertyText := JsxLowering.propertyText properties }

/-- The object literal `{ tag, props, propstring, children }`. -/
def toTree (d : Descriptor) : Tree :=
  let field (key : String) (value : Tree) : Tree :=
    .node (.property .value false) [.identifier key, value]
  let properties := match d.properties with
    | [] => .null
    | list => .node .object (list.map Property.toTree)
  let children := match d.children with
    | some (child :: rest) => .node .array (child :: rest)
    | _ => .null
  .node .object
    [field "tag" d.tag.toTree, field "props" properties,
     field "propstring" (.string d.propertyText), field "children" children]

end Descriptor

end JsxLowering
