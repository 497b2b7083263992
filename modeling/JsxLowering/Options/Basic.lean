/-!
# Options

What a caller can choose, and the rules for tags that follow from it.
-/

namespace JsxLowering

/-- Options of a compilation. -/
structure Options where
  /-- Look tags up in the lexical scope. -/
  captureScope : Bool := false
  /-- Tags that are never looked up. Read only when scopes are captured. -/
  builtins : Option (List String) := none
  /-- Refuse a tag that is neither built in nor bound. -/
  throwOnMissing : Bool := true
  /-- Let the template evaluate static member paths. -/
  memberPlaceholders : Bool := true
  /-- Read annotations. -/
  typescript : Bool := false
deriving DecidableEq, Repr

/-- The part of the options that tag resolution depends on. -/
structure TagRules where
  captureScope : Bool := false
  builtins : Option (List String) := none
  throwOnMissing : Bool := false
deriving DecidableEq, Repr

namespace TagRules

def hasBuiltins (rules : TagRules) : Bool := rules.builtins.isSome

def isBuiltin (rules : TagRules) (tag : String) : Bool :=
  match rules.builtins with
  | some list => list.contains tag
  | none => false

end TagRules

/-- The rules for tags. The built-in tags count only when scopes are captured. -/
def Options.tagRules (o : Options) : TagRules :=
  { captureScope := o.captureScope
    builtins := if o.captureScope then o.builtins else none
    throwOnMissing := o.throwOnMissing }

end JsxLowering
