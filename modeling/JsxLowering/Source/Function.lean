import JsxLowering.Source.Argument
import JsxLowering.Source.Target

/-!
# Bindings, parameters and bodies

What declarations and parameters bind, and the parts of functions.
-/

namespace JsxLowering.Source

/-- Takes the name of a value. -/
def valueName (mode : Mode) : Reader Tree := do
  let name ← plainName
  ensure (!(name = "await" && mode.awaits) && !(name = "yield" && mode.yields))
  pure (.identifier name)

/-- The text after an equals sign that assigns. -/
def afterEquals (cs : List Char) : Option (List Char) :=
  match cs with
  | '=' :: '=' :: _ => none
  | '=' :: '>' :: _ => none
  | '=' :: rest => some rest
  | _ => none

/-- Takes an equals sign that assigns, if one is next. -/
def takeEquals? : Reader Bool := fun cs =>
  match afterEquals (skip cs) with
  | some rest => some (true, rest)
  | none => some (false, cs)

/-- A pattern, with its default if it has one. -/
def withDefault (self : Grammar) (mode : Mode) (pattern : Tree) : Reader Tree := do
  if ← takeEquals? then
    let value ← self mode.inside .assignment
    pure (.node .defaultPattern [pattern, value])
  else pure pattern

/-- `...` and what it binds, which comes last. -/
def restBinding (binding : Reader Tree) : Reader Tree := do
  let pattern ← binding
  ensure (!(← isNext ','))
  pure (.node .rest [pattern])

/-- An element of an array pattern. -/
def elementBinding (self : Grammar) (mode : Mode) : Reader Tree := do
  if ← isNext ',' then pure .absent
  else if ← takeAll? ['.', '.', '.'] then restBinding (self mode .binding)
  else
    let pattern ← self mode .binding
    withDefault self mode pattern

/-- The key of a property, and whether it is computed. -/
def propertyKey (self : Grammar) (mode : Mode) : Reader (Tree × Bool) := do
  if ← take? '[' then
    let key ← self mode.inside .assignment
    mark ']'
    pure (key, true)
  else if ← isQuoteNext then
    let key ← quoted
    pure (key, false)
  else
    let cs ← ahead
    match anyNameOf cs with
    | some (name, rest) => do
      set rest
      pure (.identifier name, false)
    | none => do
      let key ← numeric
      pure (key, false)

/-- A property of an object pattern. -/
def propertyBinding (self : Grammar) (mode : Mode) : Reader Tree := do
  if ← takeAll? ['.', '.', '.'] then restBinding (valueName mode)
  else
    let start ← get
    let (key, computed) ← propertyKey self mode
    if ← take? ':' then
      let pattern ← self mode .binding
      let pattern ← withDefault self mode pattern
      pure (Tree.bindingProperty computed key pattern)
    else
      set start
      let name ← valueName mode
      let pattern ← withDefault self mode name
      pure (.node (.patternProperty true false) [name, pattern])

/-- What a declaration binds: a name, or a pattern of names. -/
def binding (self : Grammar) (mode : Mode) : Reader Tree := do
  if ← take? '[' then
    let elements ← list ']' (elementBinding self mode)
    pure (.node .arrayPattern elements)
  else if ← take? '\x7b' then
    let properties ← list '\x7d' (propertyBinding self mode)
    pure (.node .objectPattern properties)
  else valueName mode

/-- What a parameter binds, with its annotation. -/
def typedBinding (self : Grammar) (mode : Mode) : Reader Tree := do
  let pattern ← if mode.typescript && (← nextName) = some "this" then
      (do let _ ← anyName; pure .this)
    else self mode .binding
  if mode.typescript then
    let mark := if ← take? '?' then "?" else ""
    let type ← typeAfterColon self mode
    if mark ≠ "" || type.isPresent then pure (.node (.typed mark) [pattern, type])
    else pure pattern
  else pure pattern

/-- Words before a parameter that make it a field, in the order they are printed in. -/
def parameterWords : List String := ["public", "private", "protected", "override", "readonly"]

/-- Takes words before a parameter that make it a field. -/
def parameterWordsFrom : Nat → Reader (List String)
  | 0 => pure []
  | fuel + 1 => do
    let found ← attempt (do
      let name ← anyName
      ensure (parameterWords.contains name)
      let cs ← ahead
      ensure ((nameOf cs).isSome || cs.head? = some '\x7b' || cs.head? = some '[')
      pure name)
    match found with
    | some name => do
      let rest ← parameterWordsFrom fuel
      pure (name :: rest)
    | none => pure []

/-- A parameter. -/
def parameter (self : Grammar) (mode : Mode) : Reader Tree := do
  let decorators ← decorators self mode
  if ← takeAll? ['.', '.', '.'] then
    ensure decorators.isEmpty
    restBinding (typedBinding self mode)
  else
    let found ← if mode.typescript then parameterWordsFrom 4 else pure []
    let words := parameterWords.filter found.contains
    let pattern ← typedBinding self mode
    let pattern ← withDefault self mode pattern
    let pattern := if words.isEmpty then pattern else .node (.modified words) [pattern]
    pure (decorate decorators pattern)

/-- Parameters in parentheses. -/
def parameters (self : Grammar) (mode : Mode) : Reader Tree := do
  mark '('
  let parameters ← list ')' (parameter self mode)
  pure (.node .parameters parameters)

/-- Parameters, with type parameters and a result type if annotations are read. -/
def signature (self : Grammar) (mode : Mode) : Reader Tree := do
  let types ← if mode.typescript && (← isNext '<') then typeParameters self mode else pure .absent
  let inputs ← parameters self mode
  let result ← typeAfterColon self mode
  if types.isPresent || result.isPresent then pure (.node .signature [types, inputs, result])
  else pure inputs

/-- The text of the string literal that a text starts with, without its quotes. -/
def rawQuoted (cs : List Char) : String :=
  match quotedOf cs with
  | some (_, rest) => String.ofList ((cs.take (cs.length - rest.length - 1)).drop 1)
  | none => ""

/-- Statements up to where `isEnd` holds. Until another statement is seen, a lone string is a
directive. -/
def statementsFrom (isEnd : Reader Bool) (statement : Reader Tree) (leading : Bool) :
    Nat → Reader (List Tree)
  | 0 => failure
  | fuel + 1 => do
    if ← isEnd then pure []
    else
      let cs ← ahead
      let first ← statement
      match first with
      | .node .expression [.string value] =>
        let first := if leading then .node (.directive (rawQuoted cs)) [.string value] else first
        let rest ← statementsFrom isEnd statement leading fuel
        pure (first :: rest)
      | first =>
        let rest ← statementsFrom isEnd statement false fuel
        pure (first :: rest)

/-- The body of a function. -/
def functionBody (self : Grammar) (mode : Mode) : Reader Tree := do
  mark '\x7b'
  let statements ← fun cs =>
    statementsFrom (take? '\x7d') (self mode (.statement false)) true (cs.length + 1) cs
  pure (.node .body statements)

/-- A function from its parameters on. -/
def functionFrom (self : Grammar) (mode : Mode) (kind : FunctionKind) (async generator : Bool)
    (name : Tree) : Reader Tree := do
  let inner := mode.inFunction async generator
  let inputs ← signature self inner
  if mode.typescript && !kind.isExpression && !(← isNext '\x7b') then
    statementEnd
    pure (.node (.function kind async generator) [name, inputs, .absent])
  else
    let body ← functionBody self inner
    pure (.node (.function kind async generator) [name, inputs, body])

/-- A function from the word `function` on. A declaration has a name unless it is exported as the
default; the name of an expression is optional. -/
def functionOf (self : Grammar) (mode : Mode) (kind : FunctionKind) (async named : Bool) :
    Reader Tree := do
  word "function"
  let generator ← take? '*'
  let nameMode := if kind.isExpression then mode.inFunction async generator else mode
  let name ← if named || (← isPlainNameNext) then valueName nameMode else pure .absent
  functionFrom self mode kind async generator name

end JsxLowering.Source
