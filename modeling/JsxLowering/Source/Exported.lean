import JsxLowering.Scope.Bindings
import JsxLowering.Tree.Walk

/-!
# Exported names

The names under which a module exports. No two exports may have the same name.
-/

namespace JsxLowering.Tree

/-- The name that an item of an export list is exported under. -/
def listedExport : Tree → List String
  | .node (.exportName _) [_, exported] => [exported.nameText]
  | _ => []

/-- The names that an item of a module exports. -/
def exportedNames : Tree → List String
  | .node .exportItem [declaration] => declaration.statementNames true
  | .node .exportDefault _ => ["default"]
  | .node (.exportList ..) parts => parts.flatMap listedExport
  | .node (.exportAll _) [name, _] => if name.isPresent then [name.nameText] else []
  | _ => []

/-- Whether every export of a module has a name of its own. -/
def exportsDistinct (items : List Tree) : Bool := decide (items.flatMap exportedNames).Nodup

end JsxLowering.Tree
