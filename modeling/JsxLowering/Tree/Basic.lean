import JsxLowering.Number.Basic
import JsxLowering.Tree.Form

/-!
# Syntax trees

A program is a tree whose inner nodes carry a `Form`, with markup (elements and fragments) as a
sort of its own. All that is not markup is treated alike by the lowering, so one type of nodes
serves expressions, patterns, statements and types.
-/

namespace JsxLowering

/-- What a dotted tag starts from. -/
inductive MemberRoot
  | this
  | name (name : String)
deriving DecidableEq, Repr

/-- A dotted tag such as `ui.forms.Input`, read from the left. -/
inductive MemberName
  | base (root : MemberRoot) (property : String)
  | step (object : MemberName) (property : String)
deriving DecidableEq, Repr

/-- The tag of an element. -/
inductive TagName
  /-- A name that starts with a small letter or holds a hyphen. -/
  | plain (name : String)
  /-- Any other single name. -/
  | reference (name : String)
  | this
  | namespaced (space name : String)
  | member (name : MemberName)
deriving DecidableEq, Repr

/-- A tree without parts. -/
inductive Leaf
  /-- Stands for a part that is not there. -/
  | absent
  | identifier (name : String)
  | this
  | null
  | boolean (value : Bool)
  | number (value : Number)
  | string (value : String)
  /-- A token kept as it was written: a regular expression, a big integer, `super`, … -/
  | verbatim (text : String)
deriving DecidableEq, Repr

mutual

/-- A syntax tree. -/
inductive Tree
  | leaf (leaf : Leaf)
  | node (form : Form) (children : List Tree)
  | markup (markup : Markup)

/-- An element or a fragment, with the byte offset it starts at. -/
inductive Markup
  | element (start : Nat) (tag : TagName) (attributes : List Attribute) (children : List Child)
  | fragment (start : Nat) (children : List Child)

/-- An attribute of an element. -/
inductive Attribute
  | flag (name : String)
  | text (name : String) (raw : String)
  | container (name : String) (value : Tree)
  | markup (name : String) (value : Markup)
  | spread (argument : Tree)

/-- A child of an element or a fragment. -/
inductive Child
  | text (raw : String)
  | empty
  | container (value : Tree)
  | markup (value : Markup)
  | spread (argument : Tree)

end

namespace Tree

@[match_pattern] abbrev absent : Tree := .leaf .absent
@[match_pattern] abbrev identifier (name : String) : Tree := .leaf (.identifier name)
@[match_pattern] abbrev this : Tree := .leaf .this
@[match_pattern] abbrev null : Tree := .leaf .null
@[match_pattern] abbrev boolean (value : Bool) : Tree := .leaf (.boolean value)
@[match_pattern] abbrev number (value : Number) : Tree := .leaf (.number value)
@[match_pattern] abbrev string (value : String) : Tree := .leaf (.string value)

instance : Inhabited Tree := ⟨absent⟩

/-- Whether a part is there. -/
def isPresent : Tree → Bool
  | .absent => false
  | _ => true

/-- Whether a part of a pattern collects what is left. -/
def isRest : Tree → Bool
  | .node .rest _ => true
  | _ => false

end Tree

/-- The offset markup starts at. -/
def Markup.start : Markup → Nat
  | .element start .. => start
  | .fragment start _ => start

end JsxLowering
