import JsxLowering.Scope.Basic
import JsxLowering.Tree.Basic

/-!
# Bindings

The names that patterns, declarations and scopes bind. A scope is seeded with every name visible
from anywhere in it: what its statement list declares, and each `var` nested in its statements.
-/

namespace JsxLowering

namespace Tree

mutual

/-- The names that a pattern binds, at any depth. Keys and defaults bind nothing. -/
def patternNames : Tree → List String
  | .identifier name => [name]
  | .node .objectPattern properties => patternNamesAll properties
  | .node .arrayPattern elements => patternNamesAll elements
  | .node (.patternProperty ..) [_, pattern] => patternNames pattern
  | .node .defaultPattern [pattern, _] => patternNames pattern
  | .node (.typed _) (pattern :: _) => patternNames pattern
  | .node (.modified _) [pattern] => patternNames pattern
  | .node .decorated parts => patternNamesAll parts
  | .node .rest [pattern] => patternNames pattern
  | _ => []

def patternNamesAll : List Tree → List String
  | [] => []
  | pattern :: rest => patternNames pattern ++ patternNamesAll rest

end

/-- The name of a function or a class. -/
def declaredName : Tree → List String
  | .identifier name => [name]
  | .node .generic (.identifier name :: _) => [name]
  | _ => []

/-- The names that a declarator binds. -/
def declaratorNames : Tree → List String
  | .node .declarator (pattern :: _) => pattern.patternNames
  | _ => []

/-- The names that a variable declaration binds. -/
def variableNames : Tree → List String
  | .node (.variableList _) declarators => declarators.flatMap declaratorNames
  | _ => []

/-- The local name of an import specifier. -/
def importedName : Tree → List String
  | .node .importDefault [name] => declaredName name
  | .node .importAll [name] => declaredName name
  | .node (.importName _) [_, name] => declaredName name
  | _ => []

end Tree

/-- Whether statements stand directly below the form without a function between. -/
def Form.holdsStatements : Form → Bool
  | .block | .ifElse | .forLoop | .forIn | .forOf _ | .whileLoop | .doWhile | .labeled _
  | .switchCase | .caseClause | .tryCatch | .handler => true
  | _ => false

namespace Tree

mutual

/-- The names that a statement contributes to a scope. At the `top` of the scope's statement list
every declaration counts, below it only `var`. -/
def statementNames (top : Bool) : Tree → List String
  | .node (.variableList kind) declarators =>
    if top || kind = .var then declarators.flatMap declaratorNames else []
  | .node (.function .declaration ..) (name :: _) => if top then declaredName name else []
  | .node (.classForm true _) (name :: _) => if top then declaredName name else []
  | .node (.importFrom ..) specifiers => if top then specifiers.flatMap importedName else []
  | .node .exportItem [declaration] => if top then statementNames top declaration else []
  | .node .exportDefault [declaration] => if top then statementNames top declaration else []
  | .node .ambient [declaration] => statementNames top declaration
  | .node .decorated children => statementNamesAll top children
  | .node form children => if form.holdsStatements then statementNamesAll false children else []
  | _ => []

def statementNamesAll (top : Bool) : List Tree → List String
  | [] => []
  | statement :: rest => statementNames top statement ++ statementNamesAll top rest

end

/-- The names bound by a statement list that owns its scope. -/
def scopeOf (statements : List Tree) : Scope := statementNamesAll true statements

/-- The names of the positional parameters. -/
def parameterNames : Tree → List String
  | .node .parameters items => (items.filter (!·.isRest)).flatMap patternNames
  | .node .signature [_, .node .parameters items, _] =>
    (items.filter (!·.isRest)).flatMap patternNames
  | _ => []

/-- The name of a class. -/
def className : Tree → List String
  | .node (.classForm ..) (name :: _) => declaredName name
  | _ => []

/-- The names bound by the body of a function. An expression binds none. -/
def bodyNames : Tree → List String
  | .node .body statements => scopeOf statements
  | _ => []

end Tree

/-- The scope that a node forms around its children, if it forms one. -/
def Form.scope? : Form → List Tree → Option Scope
  | .program _, statements => some (Tree.scopeOf statements)
  | .block, statements => some (Tree.scopeOf statements)
  | .function .., [name, inputs, content] =>
    some (content.bodyNames ++ name.declaredName ++ inputs.parameterNames)
  | .arrow .., [inputs, content] => some (content.bodyNames ++ inputs.parameterNames)
  | .classForm .., name :: _ => some name.declaredName
  | .decorated, parts => some (parts.flatMap Tree.className)
  | .forLoop, start :: _ => some start.variableNames
  | .forIn, left :: _ => some left.variableNames
  | .forOf _, left :: _ => some left.variableNames
  | .handler, caught :: _ => some caught.patternNames
  | _, _ => none

/-- The scopes around the children of a node. -/
def Form.enclose (form : Form) (children : List Tree) (scopes : Scopes) : Scopes :=
  match form.scope? children with
  | some scope => scope :: scopes
  | none => scopes

theorem Form.enclose_eq (form : Form) (children : List Tree) (scopes : Scopes) :
    form.enclose children scopes = (form.scope? children).toList ++ scopes := by
  unfold Form.enclose
  cases form.scope? children <;> rfl

namespace Tree

/-- The names bound by a whole module. -/
def programNames : Tree → Scope
  | .node (.program _) statements => scopeOf statements
  | _ => []

/-- The expression inside any parentheses. -/
def unparen : Tree → Tree
  | .node .paren [inner] => unparen inner
  | tree => tree

/-- The names a top-level statement binds for itself: those of a function, a class or a block, or of
a variable declaration. -/
def ownNames? : Tree → Option Scope
  | .node .ambient [declaration] => ownNames? declaration
  | .node (.variableList kind) declarators =>
    some (variableNames (.node (.variableList kind) declarators))
  | .node (.function .declaration async generator) children =>
    (Form.function .declaration async generator).scope? children
  | .node (.classForm true modifiers) children => (Form.classForm true modifiers).scope? children
  | .node .decorated children => Form.decorated.scope? children
  | .node .block statements => Form.block.scope? statements
  | .node .expression [value] =>
    match value.unparen with
    | .node (.function kind async generator) children =>
      (Form.function kind async generator).scope? children
    | .node (.arrow async parenthesized) children =>
      (Form.arrow async parenthesized).scope? children
    | .node (.classForm declaration modifiers) children =>
      (Form.classForm declaration modifiers).scope? children
    | .node .decorated children => Form.decorated.scope? children
    | _ => none
  | _ => none

/-- Whether a statement is a directive. -/
def isDirective : Tree → Bool
  | .node (.directive _) _ => true
  | _ => false

/-- For each statement of a module other than a directive, the names it binds for itself. -/
def statementScopes : Tree → List (Option Scope)
  | .node (.program _) statements => (statements.filter (!·.isDirective)).map ownNames?
  | _ => []

end Tree

end JsxLowering
