import JsxLowering.Source.TypeExpression

/-!
# Arguments and decorators

What stands in parentheses after a call, and the decorators before a class, a member of one or a
parameter.
-/

namespace JsxLowering.Source

/-- Whether a comma and then a closing mark come next. -/
def isLastComma (close : Char) : Reader Bool := do
  match ← ahead with
  | ',' :: rest => pure ((skip rest).head? = some close)
  | _ => pure false

/-- A spread after its mark, in a list with a closing mark. -/
def spreadFrom (self : Grammar) (mode : Mode) (close : Char) : Reader Tree := do
  let argument ← self mode.inside .assignment
  pure (.node (.spread (← isLastComma close)) [argument])

/-- An expression, or a spread of one, in a list with a closing mark. -/
def spreadable (self : Grammar) (mode : Mode) (close : Char) : Reader Tree := do
  if ← takeAll? ['.', '.', '.'] then spreadFrom self mode close
  else self mode.inside .assignment

/-- Arguments in parentheses. -/
def arguments (self : Grammar) (mode : Mode) : Reader (List Tree) := do
  mark '('
  list ')' (spreadable self mode ')')

/-- Accesses and calls after the first name of a decorator. -/
def decoratorFrom (self : Grammar) (mode : Mode) : Nat → Tree → Reader Tree
  | 0, _ => failure
  | fuel + 1, tree => do
    if ← take? '.' then
      let name ← anyName
      decoratorFrom self mode fuel (.node (.member name false) [tree])
    else if ← isNext '(' then
      let inputs ← arguments self mode
      decoratorFrom self mode fuel (.node (.call false) (tree :: inputs))
    else pure tree

/-- A decorator after its mark: a dotted name with calls, or any expression in parentheses. -/
def decorator (self : Grammar) (mode : Mode) : Reader Tree := do
  if ← take? '(' then
    let value ← self mode.inside .expression
    mark ')'
    pure (.node .decorator [.node .paren [value]])
  else
    let name ← plainName
    let value ← fun cs => decoratorFrom self mode (cs.length + 1) (.identifier name) cs
    pure (.node .decorator [value])

/-- Decorators as long as one is next. -/
def decoratorsFrom (self : Grammar) (mode : Mode) : Nat → Reader (List Tree)
  | 0 => failure
  | fuel + 1 => do
    if ← take? '@' then
      let first ← decorator self mode
      let rest ← decoratorsFrom self mode fuel
      pure (first :: rest)
    else pure []

/-- Decorators, of which there may be none. -/
def decorators (self : Grammar) (mode : Mode) : Reader (List Tree) := fun cs =>
  decoratorsFrom self mode (cs.length + 1) cs

/-- What decorators stand before, with them. -/
def decorate (decorators : List Tree) (tree : Tree) : Tree :=
  if decorators.isEmpty then tree else .node .decorated (decorators ++ [tree])

end JsxLowering.Source
