import JsxLowering.Number.Text
import JsxLowering.Tree.Basic

/-!
# What a child contributes

A child of an element is text, renders nothing, or is a value that only a template placeholder can
render.
-/

namespace JsxLowering

/-- The contribution of one child. -/
inductive Contribution
  | text (content : String)
  | inert
  | dynamic (value : Tree) (placeholder : Option String)

namespace Contribution

/-- The contribution of a child without a placeholder. Empty text, zero, not-a-number, `false` and
`null` render nothing. -/
def ofValue : Tree → Contribution
  | .leaf (.string value) => if value = "" then .inert else .text value
  | .leaf (.number value) =>
    if value.isZero || value = .nan then .inert else .text value.text
  | .leaf (.boolean value) => if value then .text "true" else .inert
  | .leaf .null => .inert
  | value => .dynamic value none

/-- The contribution of a child; a placeholder makes any value dynamic. -/
def ofTree (value : Tree) (placeholder : Option String) : Contribution :=
  match placeholder with
  | some _ => .dynamic value placeholder
  | none => ofValue value

/-- The markup a contribution adds. -/
def markup : Contribution → String
  | .text content => content
  | .inert => ""
  | .dynamic _ placeholder => placeholder.getD ""

/-- The value of a dynamic contribution. -/
def value? : Contribution → Option Tree
  | .dynamic value _ => some value
  | _ => none

end Contribution

/-- The markup of a list of children. -/
def childrenText (children : List Contribution) : String :=
  String.join (children.map Contribution.markup)

/-- `<tag properties>children</tag>`. -/
def compose (tag properties children : String) : String :=
  let properties := if properties = "" then "" else " " ++ properties
  "<" ++ tag ++ properties ++ ">" ++ children ++ "</" ++ tag ++ ">"

end JsxLowering
