import JsxLowering.Number.Text
import JsxLowering.Text.Wrapped
import JsxLowering.Tree.Path

/-!
# Properties of an element

An attribute becomes a property: a name with a value, or a spread. The property text
`name='value' …` lists the named ones.
-/

namespace JsxLowering

/-- A property of an element. -/
inductive Property
  /-- A named value, and the template text that stands for it if it is dynamic. -/
  | named (name : String) (value : Tree) (placeholder : Option String)
  | spread (argument : Tree)

namespace Property

/-- A quoted attribute value, with wrapped lines collapsed. -/
def textValue (raw : String) : Tree := .string (Text.collapseWrapped raw)

/-- The value of an attribute written without one. -/
def flagValue : Tree := .boolean true

/-- A value as attribute text. Only literals have one. -/
def valueText : Tree → String
  | .leaf (.string value) => value
  | .leaf (.boolean value) => if value then "true" else "false"
  | .leaf .null => "null"
  | .leaf (.number value) => value.text
  | _ => "undefined"

/-- The text of a named property; a placeholder stands for the value. -/
def text? : Property → Option String
  | .named _ value placeholder => some (placeholder.getD (valueText value))
  | .spread _ => none

/-- Attribute text with its single quotes written as entities. -/
def quote (text : String) : String :=
  String.ofList (text.toList.flatMap fun c => if c = '\'' then "&#39;".toList else [c])

/-- `name='text'` for a named property. -/
def attribute? : Property → Option String
  | .named name value placeholder =>
    some (name ++ "='" ++ quote (placeholder.getD (valueText value)) ++ "'")
  | .spread _ => none

/-- The key of a property in an object literal. -/
def keyOf (name : String) : Tree :=
  if Text.isIdentifierName name then .identifier name else .string name

/-- The property in an object literal. -/
def toTree : Property → Tree
  | .named name value _ => .node (.property .value false) [keyOf name, value]
  | .spread argument => .node (.spread false) [argument]

end Property

/-- The attribute text of an element: its named properties in order. -/
def propertyText (properties : List Property) : String :=
  " ".intercalate (properties.filterMap Property.attribute?)

end JsxLowering
