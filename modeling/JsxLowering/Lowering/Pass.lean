import JsxLowering.Lowering.Session
import JsxLowering.Markup.Resolution
import JsxLowering.Scope.Bindings
import JsxLowering.Text.Cleanup

/-!
# The lowering

Replaces each outermost element or fragment of a tree by a template function. The first failure
ends the lowering.
-/

namespace JsxLowering

/-- What the lowering depends on besides the tree. -/
structure Settings where
  rules : TagRules
  /-- Static member paths become holes of the template. -/
  memberPlaceholders : Bool

/-- The settings that options ask for. -/
def Options.settings (o : Options) : Settings :=
  { rules := o.tagRules, memberPlaceholders := o.memberPlaceholders }

/-- A step of a lowering: changes the session, or fails. -/
abbrev Lower := StateT Session (Except Failure)

namespace Lower

/-- Opens markup. -/
def enter (start : Nat) : Lower Unit := fun session => .ok ((), session.enter start)

/-- Closes markup. -/
def leave (text : String) (start : Nat) : Lower Tree := fun session =>
  match session.exit text start with
  | (.ok tree, session) => .ok (tree, session)
  | (.error failure, _) => .error failure

/-- Resolves the tag of an element that starts at an offset. -/
def resolve (settings : Settings) (scopes : Scopes) (tag : TagName) (start : Nat) :
    Lower ResolvedTag := fun session =>
  match tag.resolve settings.rules scopes.binds with
  | .ok tag => .ok (tag, session)
  | .error fault => .error ⟨fault, start⟩

end Lower

/-- The hole that stands for a value, if it is a static member path and these become holes. -/
def Settings.placeholder? (settings : Settings) (value : Tree) : Option String :=
  if settings.memberPlaceholders then value.staticPath?.map fun path => "<%= " ++ path ++ " %>"
  else none

mutual

/-- Lowers the markup in a tree. -/
def Tree.lower (settings : Settings) (scopes : Scopes) : Tree → Lower Tree
  | .leaf content => pure (.leaf content)
  | .node form children => do
    let children ← Tree.lowerAll settings (form.enclose children scopes) children
    pure (.node form children)
  | .markup value => value.lower settings scopes

def Tree.lowerAll (settings : Settings) (scopes : Scopes) : List Tree → Lower (List Tree)
  | [] => pure []
  | tree :: rest => do
    let tree ← tree.lower settings scopes
    let rest ← Tree.lowerAll settings scopes rest
    pure (tree :: rest)

/-- Lowers an element or a fragment: to text inside other markup, else to a function. Attributes
come before the tag, and the tag before the children. -/
def Markup.lower (settings : Settings) (scopes : Scopes) : Markup → Lower Tree
  | .element start tag attributes children => do
    Lower.enter start
    let properties ← Attribute.lowerAll settings scopes attributes
    let tag ← Lower.resolve settings scopes tag start
    let children ← Child.lowerAll settings scopes children
    Lower.leave (compose tag.text (propertyText properties) (childrenText children)) start
  | .fragment start children => do
    Lower.enter start
    let children ← Child.lowerAll settings scopes children
    Lower.leave (childrenText children) start

/-- Lowers an attribute to a property. -/
def Attribute.lower (settings : Settings) (scopes : Scopes) : Attribute → Lower Property
  | .flag name => pure (.named name Property.flagValue none)
  | .text name raw => pure (.named name (Property.textValue raw) none)
  | .container name value => do
    let placeholder := settings.placeholder? value
    let value ← value.lower settings scopes
    pure (.named name value placeholder)
  | .markup name value => do
    let value ← value.lower settings scopes
    pure (.named name value none)
  | .spread argument => do
    let argument ← argument.lower settings scopes
    pure (.spread argument)

def Attribute.lowerAll (settings : Settings) (scopes : Scopes) :
    List Attribute → Lower (List Property)
  | [] => pure []
  | first :: rest => do
    let first ← first.lower settings scopes
    let rest ← Attribute.lowerAll settings scopes rest
    pure (first :: rest)

/-- Lowers a child to what it contributes. Text that is only layout contributes nothing. -/
def Child.lower (settings : Settings) (scopes : Scopes) : Child → Lower Contribution
  | .text raw =>
    match Text.clean raw with
    | some content => pure (.text content)
    | none => pure .inert
  | .empty => pure .inert
  | .container value => do
    let placeholder := settings.placeholder? value
    let value ← value.lower settings scopes
    pure (.ofTree value placeholder)
  | .markup value => do
    let value ← value.lower settings scopes
    pure (.ofTree value none)
  | .spread argument => do
    let argument ← argument.lower settings scopes
    pure (.dynamic argument none)

def Child.lowerAll (settings : Settings) (scopes : Scopes) :
    List Child → Lower (List Contribution)
  | [] => pure []
  | first :: rest => do
    let first ← first.lower settings scopes
    let rest ← Child.lowerAll settings scopes rest
    pure (first :: rest)

end

/-- A lowered program and the number of templates compiled for it. -/
structure Lowered where
  program : Tree
  boundaries : Nat

/-- Lowers a program; `bindings` are scopes around it. -/
def lowerProgram (settings : Settings) (bindings : Scopes) (program : Tree) :
    Except Failure Lowered := do
  let (program, session) ← program.lower settings bindings {}
  pure { program, boundaries := session.compiled }

end JsxLowering
