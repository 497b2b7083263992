import JsxLowering.Text.Identifier
import JsxLowering.Tree.Basic

/-!
# Names and member paths

A dotted tag can be read as a list of segments, as dotted text, and as an access expression. A
static member path is the dotted text of an access expression made of names only.
-/

namespace JsxLowering

/-- `this`, an identifier, or a string for a name that is no identifier. -/
def Tree.ofName (name : String) : Tree :=
  if name = "this" then .this
  else if Text.isIdentifierName name then .identifier name
  else .string name

/-- `object.property`, or `object["property"]` if the property is no identifier name. -/
def Tree.access (object : Tree) (property : String) : Tree :=
  if Text.isIdentifierName property then .node (.member property false) [object]
  else .node (.index false) [object, .string property]

/-- Dotted text of a chain of plain accesses that starts at an identifier or `this`. -/
def Tree.staticPath? : Tree → Option String
  | .node (.member name _) [object] =>
    match object with
    | .identifier root => some (root ++ "." ++ name)
    | .this => some ("this." ++ name)
    | .node _ _ => object.staticPath?.map (· ++ "." ++ name)
    | _ => none
  | _ => none

namespace MemberRoot

def text : MemberRoot → String
  | .this => "this"
  | .name word => word

def reference : MemberRoot → Tree
  | .this => .this
  | .name word => .ofName word

end MemberRoot

namespace MemberName

/-- The segments, leftmost first. -/
def path : MemberName → List String
  | .base root property => [root.text, property]
  | .step object property => object.path ++ [property]

/-- The leftmost segment. -/
def root : MemberName → MemberRoot
  | .base root _ => root
  | .step object _ => object.root

/-- The access expression that the tag spells. -/
def reference : MemberName → Tree
  | .base root property => root.reference.access property
  | .step object property => object.reference.access property

/-- The dotted tag with the given segments, of which there are at least two. -/
def ofPath? : List String → Option MemberName
  | root :: first :: rest =>
    let root := if root = "this" then .this else .name root
    some (rest.foldl .step (.base root first))
  | _ => none

end MemberName

/-- A tag as it is written. -/
def TagName.text : TagName → String
  | .plain name => name
  | .reference name => name
  | .this => "this"
  | .namespaced space name => space ++ ":" ++ name
  | .member name => ".".intercalate name.path

/-- The expression that a dotted or namespaced tag spells. -/
def TagName.reference? : TagName → Option Tree
  | .member name => some name.reference
  | .namespaced space name => some (.string (space ++ ":" ++ name))
  | _ => none

/-- The name of an attribute that is no spread. -/
def Attribute.name? : Attribute → Option String
  | .flag name => some name
  | .text name _ => some name
  | .container name _ => some name
  | .markup name _ => some name
  | .spread _ => none

/-- The value of a child in braces; empty braces hold `null`. -/
def Child.braced? : Child → Option Tree
  | .empty => some .null
  | .container value => some value
  | _ => none

/-- Sorts of expressions that callers tell apart. -/
inductive Kind
  | string
  | number
  | boolean
  | null
  | identifier
  | this
  | function
  | member
  | computed
  | other
deriving DecidableEq, Repr

/-- The sort of an expression. A parenthesized expression or an optional chain is of no other
sort. -/
def Tree.kind : Tree → Kind
  | .leaf (.string _) => .string
  | .leaf (.number ..) => .number
  | .leaf (.boolean _) => .boolean
  | .leaf .null => .null
  | .leaf (.identifier _) => .identifier
  | .leaf .this => .this
  | .node (.function ..) _ => .function
  | .node (.member _ false) _ => .member
  | .node (.index false) _ => .computed
  | _ => .other

end JsxLowering
