import JsxLowering.Tree.Walk

/-!
# Targets

What stands before an equals sign or an arrow is read as an expression first and turned into a
pattern when the mark after it is seen. `asTarget?` does this; an expression that only a pattern
may hold and that was not turned into one makes a tree incomplete.
-/

namespace JsxLowering.Tree

/-- Whether a value can be assigned to the expression by any operator: a name or an access, with or
without parentheses and casts. -/
def isSimpleTarget : Tree → Bool
  | .leaf (.identifier _) => true
  | .node (.member ..) _ => true
  | .node (.privateMember ..) _ => true
  | .node (.index _) _ => true
  | .node .paren [inner] => isSimpleTarget inner
  | .node .nonNull [inner] => isSimpleTarget inner
  | .node (.cast _) [inner, _] => isSimpleTarget inner
  | _ => false

/-- Whether a rest, if there is one, comes last. -/
def restIsLast : List Tree → Bool
  | [] => true
  | [_] => true
  | .node (.spread _) _ :: _ :: _ => false
  | .node .rest _ :: _ :: _ => false
  | _ :: rest => restIsLast rest

/-- Whether the rest of an object pattern, if there is one, is a name. -/
def restIsName : List Tree → Bool
  | [] => true
  | .node .rest [.identifier _] :: rest => restIsName rest
  | .node .rest _ :: _ => false
  | _ :: rest => restIsName rest

/-- Whether a pattern binds the name that is its key, with a default or without. -/
def isOwnKey : Tree → Tree → Bool
  | .identifier key, .identifier name => key = name
  | .identifier key, .node .defaultPattern [.identifier name, _] => key = name
  | _, _ => false

/-- A property of an object pattern that binds names. One that binds its own key is written
short. -/
def bindingProperty (computed : Bool) (key pattern : Tree) : Tree :=
  .node (.patternProperty (!computed && isOwnKey key pattern) computed) [key, pattern]

/-- The array pattern with the given elements. -/
def arrayOf? (assigned : Bool) (targets : List Tree) : Option Tree :=
  if !restIsLast targets then none
  else some (.node (if assigned then .arrayTarget else .arrayPattern) targets)

/-- The object pattern with the given properties. -/
def objectOf? (assigned : Bool) (targets : List Tree) : Option Tree :=
  if !restIsLast targets || !(assigned || restIsName targets) then none
  else some (.node (if assigned then .objectTarget else .objectPattern) targets)

mutual

/-- The pattern that an expression spells: one that is assigned to if `assigned` is set, else one
that binds names. Names always may be in it, other simple targets only if it is assigned to. -/
def asTarget? (assigned : Bool) : Tree → Option Tree
  | .node .array elements => (asTargets? assigned elements).bind (arrayOf? assigned)
  | .node .arrayTarget elements => (asTargets? assigned elements).bind (arrayOf? assigned)
  | .node .object properties => (asTargets? assigned properties).bind (objectOf? assigned)
  | .node .objectTarget properties => (asTargets? assigned properties).bind (objectOf? assigned)
  | .node (.assign "=") [target, value] =>
    (asTarget? assigned target).map fun target => .node .defaultPattern [target, value]
  | .node .defaultPattern [target, value] =>
    (asTarget? assigned target).map fun target => .node .defaultPattern [target, value]
  | .node (.spread false) [argument] =>
    (asTarget? assigned argument).map fun target => .node .rest [target]
  | .node .rest [argument] => (asTarget? assigned argument).map fun target => .node .rest [target]
  | .node (.property .value computed) [key, value] =>
    (asTarget? assigned value).map fun target =>
      if assigned then .node (.patternProperty false computed) [key, target]
      else bindingProperty computed key target
  | .node (.patternProperty short computed) [key, value] =>
    (asTarget? assigned value).map fun target =>
      if assigned then .node (.patternProperty short computed) [key, target]
      else bindingProperty computed key target
  | .node .shorthand [name] => some (.node (.patternProperty true false) [name, name])
  | .node .defaulted [name, value] =>
    some (.node (.patternProperty true false) [name, .node .defaultPattern [name, value]])
  | .absent => some .absent
  | .identifier name => some (.identifier name)
  | tree => if assigned && tree.isSimpleTarget then some tree else none

def asTargets? (assigned : Bool) : List Tree → Option (List Tree)
  | [] => some []
  | tree :: rest => do
    let target ← asTarget? assigned tree
    let targets ← asTargets? assigned rest
    some (target :: targets)

end

/-- Whether a form stands only for what a later mark was to complete. -/
def isOpenForm : Form → Bool
  | .defaulted => true
  | .arrowHead _ => true
  | _ => false

/-- Whether nothing in the tree waits for a later mark. -/
def isComplete (tree : Tree) : Bool := tree.allForms fun form => !isOpenForm form

end JsxLowering.Tree
