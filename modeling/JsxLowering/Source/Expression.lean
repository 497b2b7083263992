import JsxLowering.Source.Function
import JsxLowering.Source.Operator

/-!
# Expressions

Expressions from the tightest to the loosest: operands, accesses and calls, operators, arrows and
assignments. What stands in parentheses before an arrow is read as expressions and turned into
parameters once the arrow is seen.
-/

namespace JsxLowering.Source

/-- An array literal. -/
def arrayLiteral (self : Grammar) (mode : Mode) : Reader Tree := do
  mark '['
  let elements ← list ']' (do
    if ← isNext ',' then pure .absent else spreadable self mode ']')
  pure (.node .array elements)

/-! ## Object literals -/

/-- Whether the key of a property comes next. -/
def isKeyNext : Reader Bool := do
  match (← ahead).head? with
  | some c =>
    pure (mayStartName c || c.isDigit || c = '"' || c = '\'' || c = '[' || c = '#')
  | none => pure false

/-- Takes a word that changes the property it stands before, if a key follows it. -/
def takeModifier? (text : String) : Reader Bool := do
  let taken ← attempt (do word text; ensure (← isKeyNext))
  pure taken.isSome

/-- Takes `async` and the star of a generator before a method. -/
def methodMarks : Reader (Bool × Bool) := do
  let async ← attempt (do
    word "async"
    ensure (!(← onNewLine))
    ensure ((← isKeyNext) || (← isNext '*')))
  let generator ← take? '*'
  pure (async.isSome, generator)

/-- Takes `get` or `set` before a property. -/
def accessorMark : Reader (Option MemberKind) := do
  if ← takeModifier? "get" then pure (some .getter)
  else if ← takeModifier? "set" then pure (some .setter)
  else pure none

/-- Whether parameters come next. -/
def isSignatureNext (mode : Mode) : Reader Bool := do
  pure ((← isNext '(') || (mode.typescript && (← isNext '<')))

/-- Whether an accessor has the parameters it needs: none to get, one to set. -/
def isAccessor (kind : MemberKind) : Tree → Bool
  | .node (.function ..) [_, given, _] =>
    match kind, given.inputs with
    | .getter, inputs => inputs.isEmpty
    | .setter, [.node .rest _] => false
    | .setter, [_] => true
    | _, _ => false
  | _ => false

/-- An accessor from its parameters on. -/
def accessorFrom (self : Grammar) (mode : Mode) (kind : MemberKind) : Reader Tree := do
  let value ← functionFrom self mode .method false false .absent
  ensure (isAccessor kind value)
  pure value

/-- A property of an object literal after its key. -/
def propertyValue (self : Grammar) (mode : Mode) (key : Tree) (computed : Bool) : Reader Tree := do
  if ← take? ':' then
    let value ← self mode.inside .assignment
    pure (.node (.property .value computed) [key, value])
  else
    match key, computed with
    | .identifier name, false => do
      ensure (!isReserved name)
      if ← takeEquals? then
        let value ← self mode.inside .assignment
        pure (.node .defaulted [key, value])
      else pure (.node .shorthand [key])
    | _, _ => failure

/-- A property of an object literal. -/
def property (self : Grammar) (mode : Mode) : Reader Tree := do
  if ← takeAll? ['.', '.', '.'] then spreadFrom self mode '\x7d'
  else
    match ← accessorMark with
    | some kind => do
      let (key, computed) ← propertyKey self mode
      let value ← accessorFrom self mode kind
      pure (.node (.property kind computed) [key, value])
    | none => do
      let (async, generator) ← methodMarks
      let (key, computed) ← propertyKey self mode
      if async || generator || (← isSignatureNext mode) then
        let value ← functionFrom self mode .method async generator .absent
        pure (.node (.property .method computed) [key, value])
      else propertyValue self mode key computed

/-- An object literal. -/
def objectLiteral (self : Grammar) (mode : Mode) : Reader Tree := do
  mark '\x7b'
  let properties ← list '\x7d' (property self mode)
  pure (.node .object properties)

/-! ## Parentheses -/

/-- The text after an arrow that stands on the same line. -/
def afterArrow (cs : List Char) : Option (List Char) :=
  if breaks cs then none else after? ['=', '>'] (skip cs)

/-- Whether an arrow comes next on the same line. -/
def isArrowNext : Reader Bool := do pure (afterArrow (← get)).isSome

/-- Takes an arrow on the same line. -/
def arrowMark : Reader Unit := do
  match afterArrow (← get) with
  | some rest => set rest
  | none => failure

/-- What parentheses hold after the opening one, and whether only parameters can be written so:
nothing, a rest pattern, or a comma at the end. -/
def parenFrom (self : Grammar) (mode : Mode) : Nat → Reader (List Tree × Bool)
  | 0 => failure
  | fuel + 1 => do
    if ← take? ')' then pure ([], true)
    else if ← takeAll? ['.', '.', '.'] then
      let rest ← restBinding (self mode .binding)
      mark ')'
      pure ([rest], true)
    else
      let first ← self mode.inside .assignment
      if ← take? ',' then
        let (others, only) ← parenFrom self mode fuel
        pure (first :: others, only)
      else
        mark ')'
        pure ([first], false)

/-- What parentheses hold, and whether only parameters can be written so. -/
def parenItems (self : Grammar) (mode : Mode) : Reader (List Tree × Bool) := do
  mark '('
  fun cs => parenFrom self mode (cs.length + 1) cs

/-- A function that stands directly in parentheses is marked so. -/
def inParentheses : Tree → Tree
  | .node (.function (.expression _) async generator) parts =>
    .node (.function (.expression true) async generator) parts
  | .node (.arrow async _) parts => .node (.arrow async true) parts
  | tree => tree

/-- An expression in parentheses, or what stands in parentheses before an arrow. -/
def parenthesized (self : Grammar) (mode : Mode) : Reader Tree := do
  let (inner, only) ← parenItems self mode
  if ← isArrowNext then pure (.node (.arrowHead false) inner)
  else
    ensure (!only)
    match inner with
    | [item] => pure (.node .paren [inParentheses item])
    | parts => pure (.node .paren [.node .sequence parts])

/-! ## Operands -/

/-- A call of `import`: a source, and perhaps what is asked of it. -/
def importCall (self : Grammar) (mode : Mode) (phase : String) : Reader Tree := do
  mark '('
  let inputs ← list ')' (self mode.inside .assignment)
  ensure (inputs.length = 1 || inputs.length = 2)
  pure (.node (.importCall phase) inputs)

/-- A call of `import`, perhaps in a phase, or `import.meta`. -/
def importExpression (self : Grammar) (mode : Mode) : Reader Tree := do
  word "import"
  if ← take? '.' then
    if ← takeWord? "meta" then pure (.leaf (.verbatim "import.meta"))
    else
      let phase ← anyName
      ensure (phase = "source" || phase = "defer")
      importCall self mode phase
  else importCall self mode ""

/-- Whether a tree is a call of `import` without parentheses. -/
def isImportCall : Tree → Bool
  | .node (.importCall _) _ => true
  | _ => false

/-- `new` and what it is applied to. -/
def construct (self : Grammar) (mode : Mode) : Reader Tree := do
  word "new"
  if ← take? '.' then
    word "target"
    pure (.leaf (.verbatim "new.target"))
  else
    let callee ← self mode .callee
    ensure (!isImportCall callee)
    let inputs ← if ← isNext '(' then arguments self mode else pure []
    pure (.node .construct (callee :: inputs))

/-- An operand that starts with a name. -/
def namedOperand (self : Grammar) (mode : Mode) (name : String) : Reader Tree :=
  match name with
  | "function" => functionOf self mode (.expression false) false false
  | "class" => self mode .classLiteral
  | "new" => construct self mode
  | "import" => importExpression self mode
  | "this" => do word "this"; pure .this
  | "null" => do word "null"; pure .null
  | "true" => do word "true"; pure (.boolean true)
  | "false" => do word "false"; pure (.boolean false)
  | "super" => do
    word "super"
    ensure ((← isNext '(') || (← isNext '.') || (← isNext '['))
    pure (.leaf (.verbatim "super"))
  | "async" => (do
      word "async"
      ensure (!(← onNewLine) && (← nextName) = some "function")
      functionOf self mode (.expression false) true false) <|> (do
      word "async"
      ensure (!(← onNewLine))
      let (inner, _) ← parenItems self mode
      ensure (← isArrowNext)
      pure (.node (.arrowHead true) inner)) <|> valueName mode
  | _ => valueName mode

/-- A private name that `in` looks for. -/
def privateOperand : Reader Tree := do
  mark '#'
  let name ← anyName
  ensure ((← nextName) = some "in")
  pure (.leaf (.verbatim ("#" ++ name)))

/-- A regular expression. -/
def patternLiteral : Reader Tree := fun cs =>
  (patternOf (skip cs)).map fun (text, rest) => (.leaf (.verbatim text), rest)

/-- A class after decorators. -/
def decoratedClass (self : Grammar) (mode : Mode) : Reader Tree := do
  let decorators ← decorators self mode
  let value ← self mode .classLiteral
  pure (decorate decorators value)

/-- An operand without what follows it. -/
def primary (self : Grammar) (mode : Mode) : Reader Tree := do
  let cs ← ahead
  match nameOf cs with
  | some (name, _) => namedOperand self mode name
  | none =>
    match cs.head? with
    | some '(' => parenthesized self mode
    | some '[' => arrayLiteral self mode
    | some '\x7b' => objectLiteral self mode
    | some '"' => quoted
    | some '\'' => quoted
    | some '\x60' => templateOf (self mode.inside .expression) false
    | some '/' => patternLiteral
    | some '<' => self mode .markup
    | some '#' => privateOperand
    | some '@' => decoratedClass self mode
    | some c => if mayStartName c then valueName mode else numeric
    | none => failure

/-! ## Accesses and calls -/

/-- A name after a dot. -/
def memberOf (object : Tree) (optional : Bool) : Reader Tree := do
  if ← take? '#' then
    let name ← anyName
    pure (.node (.privateMember name optional) [object])
  else
    let name ← anyName
    pure (.node (.member name optional) [object])

/-- What follows a question mark and a dot. -/
def optionalOf (self : Grammar) (mode : Mode) (object : Tree) : Reader Tree := do
  if ← take? '[' then
    let index ← self mode.inside .expression
    mark ']'
    pure (.node (.index true) [object, index])
  else if ← isNext '(' then
    let inputs ← arguments self mode
    pure (.node (.call true) (object :: inputs))
  else memberOf object true

/-- Marks that may follow type arguments in an expression: a call, a template, or what starts no
operand. -/
def marksAfterTypes : List Char :=
  ['(', '\x60', ')', ']', '\x7d', ',', ';', ':', '=', '?', '*', '/', '%', '&', '|', '^']

/-- Whether what comes next may follow type arguments. -/
def mayFollowTypes : Reader Bool := do
  let cs ← ahead
  let fresh ← onNewLine
  match cs with
  | [] => pure true
  | '!' :: '=' :: _ => pure true
  | c :: _ => pure (marksAfterTypes.contains c || (fresh && !"<>+-".toList.contains c))

/-- The suffixes that annotations add: an assertion, or type arguments before a call. -/
def annotatedSuffix (self : Grammar) (mode : Mode) (tree : Tree) : Reader Tree := do
  let cs ← ahead
  match cs with
  | '!' :: rest => do
    ensure (!(← onNewLine) && rest.head? ≠ some '=')
    set rest
    pure (.node .nonNull [tree])
  | '<' :: _ => do
    let types ← typeArguments self mode
    ensure (← mayFollowTypes)
    pure (.node .generic [tree, types])
  | _ => failure

/-- Whether a dot before the text belongs to a number or to three dots. -/
def joinsDot (cs : List Char) : Bool :=
  match cs with
  | '.' :: '.' :: _ => true
  | c :: _ => c.isDigit
  | [] => false

/-- Accesses and calls after an operand; calls only if `calls` is set. Gives whether one of them is
optional. -/
def suffixesFrom (self : Grammar) (mode : Mode) (calls : Bool) : Nat → Tree → Bool →
    Reader (Tree × Bool)
  | 0, _, _ => failure
  | fuel + 1, tree, chained => do
    let cs ← ahead
    match cs with
    | '.' :: rest =>
      if joinsDot rest then pure (tree, chained)
      else do
        set rest
        let tree ← memberOf tree false
        suffixesFrom self mode calls fuel tree chained
    | '[' :: rest => do
      set rest
      let index ← self mode.inside .expression
      mark ']'
      suffixesFrom self mode calls fuel (.node (.index false) [tree, index]) chained
    | '(' :: _ =>
      if calls then do
        let inputs ← arguments self mode
        suffixesFrom self mode calls fuel (.node (.call false) (tree :: inputs)) chained
      else pure (tree, chained)
    | '?' :: '.' :: rest =>
      if (rest.head?.map Char.isDigit).getD false then pure (tree, chained)
      else do
        ensure calls
        set rest
        let tree ← optionalOf self mode tree
        suffixesFrom self mode calls fuel tree true
    | c :: _ =>
      if c = '\x60' then do
        ensure (!chained)
        let template ← templateOf (self mode.inside .expression) true
        suffixesFrom self mode calls fuel (.node .tagged [tree, template]) chained
      else if mode.typescript then do
        match ← attempt (annotatedSuffix self mode tree) with
        | some tree => suffixesFrom self mode calls fuel tree chained
        | none => pure (tree, chained)
      else pure (tree, chained)
    | [] => pure (tree, chained)

/-- An operand with the accesses and calls after it. -/
def leftHand (self : Grammar) (mode : Mode) (calls : Bool) :
    Reader Tree := do
  let start ← primary self mode
  match start with
  | .node (.arrowHead async) inner => pure (.node (.arrowHead async) inner)
  | start =>
    let (tree, chained) ← fun cs => suffixesFrom self mode calls (cs.length + 1) start false cs
    pure (if chained then .node .chain [tree] else tree)

/-! ## Operators -/

/-- An operand with an update after it. -/
def updated (self : Grammar) (mode : Mode) : Reader Tree := do
  let tree ← leftHand self mode true
  if ← onNewLine then pure tree
  else match updateOf (← ahead) with
    | some (op, rest) => do
      ensure tree.isSimpleTarget
      set rest
      pure (.node (.update op false) [tree])
    | none => pure tree

/-- An operand with the operators before it. -/
def unary (self : Grammar) (mode : Mode) : Reader Tree := do
  let cs ← ahead
  match updateOf cs with
  | some (op, rest) => do
    set rest
    let argument ← self mode .unary
    ensure argument.isSimpleTarget
    pure (.node (.update op true) [argument])
  | none =>
    match unaryOf cs with
    | some (op, rest) => do
      set rest
      let argument ← self mode .unary
      pure (.node (.unary op) [argument])
    | none =>
      if ← takeWordIf mode.awaits "await" then
        let argument ← self mode .unary
        pure (.node .await [argument])
      else updated self mode

/-- Whether an expression is one of `op`s without parentheses. -/
def isBinaryOf (ops : List String) : Tree → Bool
  | .node (.binary op) _ => ops.contains op
  | _ => false

/-- Whether an expression has an operator before its operand. -/
def isUnary : Tree → Bool
  | .node (.unary _) _ => true
  | .node .await _ => true
  | _ => false

/-- Whether two operands may stand next to an operator without parentheses. -/
def mayJoin (op : String) (left right : Tree) : Bool :=
  match op with
  | "??" => !isBinaryOf ["||", "&&"] left && !isBinaryOf ["||", "&&"] right
  | "**" => !isUnary left
  | _ => true

/-- The level of a cast. -/
def castLevel : Nat := 8

/-- A cast of an expression. -/
def castOf (self : Grammar) (mode : Mode) (tree : Tree) : Reader Tree := do
  ensure (!(← onNewLine))
  let name ← anyName
  ensure (name = "as" || name = "satisfies")
  let type ← if ← takeWord? "const" then pure (.verse "const") else self mode .typeExpression
  pure (.node (.cast name) [tree, type])

/-- The operators after an operand that bind more tightly than a level, with their operands. -/
def operatorsFrom (self : Grammar) (mode : Mode) (level : Nat) : Nat → Tree → Reader Tree
  | 0, _ => failure
  | fuel + 1, left => do
    match binaryOf mode.inOperator (← ahead) with
    | some (op, opLevel, rest) =>
      if opLevel ≤ level then pure left
      else do
        set rest
        let right ← self mode (.operand (if isRightAssociative op then opLevel - 1 else opLevel))
        ensure (mayJoin op left right)
        operatorsFrom self mode level fuel (.node (.binary op) [left, right])
    | none =>
      if mode.typescript && level < castLevel then do
        match ← attempt (castOf self mode left) with
        | some tree => operatorsFrom self mode level fuel tree
        | none => pure left
      else pure left

/-- Operands joined by operators that bind more tightly than a level. -/
def operand (self : Grammar) (mode : Mode) (level : Nat) : Reader Tree := do
  let left ← self mode .unary
  fun cs => operatorsFrom self mode level (cs.length + 1) left cs

/-! ## Arrows and assignments -/

/-- An arrow function from its body on. -/
def arrowFrom (self : Grammar) (mode : Mode) (async : Bool) (inputs : Tree) : Reader Tree := do
  let inner := mode.inFunction async false
  if ← isNext '\x7b' then
    let body ← functionBody self inner
    pure (.node (.arrow async false) [inputs, body])
  else
    let value ← self { inner with inOperator := mode.inOperator, inBranch := mode.inBranch }
      .assignment
    pure (.node (.arrow async false) [inputs, value])

/-- The single name before an arrow that a text starts with, and the text after the arrow. -/
def namedArrowOf (cs : List Char) : Option (String × List Char) := do
  let (name, rest) ← anyNameOf cs
  let rest ← afterArrow rest
  if isReserved name then none else some (name, rest)

/-- The single name before an arrow, and whether `async` stands before it. -/
def namedArrow : Reader (Bool × Tree) := do
  let cs ← ahead
  match namedArrowOf cs with
  | some (name, rest) => do
    set rest
    pure (false, .node .parameters [.identifier name])
  | none => do
    word "async"
    ensure (!(← onNewLine))
    match namedArrowOf (← ahead) with
    | some (name, rest) => do
      set rest
      pure (true, .node .parameters [.identifier name])
    | none => failure

/-- Whether type parameters that a text starts with cannot be taken for the tag of an element. -/
def areTypeParameters (cs : List Char) : Bool :=
  match cs with
  | '<' :: rest =>
    match nameOf (skip rest) with
    | some ("const", rest) => (nameOf (skip rest)).isSome
    | some (_, rest) =>
      match nameOf (skip rest) with
      | some ("extends", rest) => !((skip rest).head?.map ['=', '>', '/'].contains).getD true
      | _ => (skip rest).head? = some ',' || (skip rest).head? = some '='
    | none => false
  | _ => false

/-- The annotated parameters before an arrow, and whether `async` stands before them. -/
def annotatedArrow (self : Grammar) (mode : Mode) : Reader (Bool × Tree) := do
  ensure mode.typescript
  let async ← attempt (do word "async"; ensure (!(← onNewLine)))
  ensure ((← isNext '(') || (async.isSome && (← isNext '<')) || areTypeParameters (← ahead))
  let inputs ← signature self (mode.inFunction async.isSome false)
  arrowMark
  pure (async.isSome, inputs)

/-- Whether `yield` has no argument. -/
def isYieldEnd : Reader Bool := do
  let cs ← ahead
  let fresh ← onNewLine
  let next ← nextName
  pure (fresh || cs.isEmpty || next = some "in" || next = some "of"
    || (cs.head?.map fun c => [')', ']', '\x7d', ',', ';', ':'].contains c).getD false)

/-- `yield` and its argument. -/
def yieldOf (self : Grammar) (mode : Mode) : Reader Tree := do
  if ← isYieldEnd then pure (.node (.yields false) [.absent])
  else
    let delegate ← take? '*'
    let argument ← self mode .assignment
    pure (.node (.yields delegate) [argument])

/-- What an assignment operator may stand after: a pattern only before the plain one. -/
def targetOf (op : String) (left : Tree) : Option Tree :=
  if op = "=" then left.asTarget? true
  else if left.isSimpleTarget then some left
  else none

/-- What may follow an operand: a conditional, or an assignment to it. -/
def assignmentFrom (self : Grammar) (mode : Mode) (left : Tree) : Reader Tree := do
  let cs ← ahead
  match assignOf cs with
  | some (op, rest) =>
    match targetOf op left with
    | some target => do
      set rest
      let value ← self mode .assignment
      pure (.node (.assign op) [target, value])
    | none => failure
  | none =>
    match cs with
    | '?' :: rest => do
      set rest
      let first ← self { mode with inOperator := true, inBranch := mode.typescript } .assignment
      mark ':'
      let second ← self mode .assignment
      pure (.node .conditional [left, first, second])
    | _ => pure left

/-- An arrow function whose parameters were read as expressions. -/
def coveredArrow (self : Grammar) (mode : Mode) (async : Bool) (inner : List Tree) :
    Reader Tree := do
  match Tree.asTargets? false inner with
  | some inputs => do
    arrowMark
    arrowFrom self mode async (.node .parameters inputs)
  | none => failure

/-- Whether a parameter list has a result type. -/
def hasResult : Tree → Bool
  | .node .signature [_, _, result] => result.isPresent
  | _ => false

/-- An arrow function in the first branch of a conditional expression, if it has a result type and
a colon comes after it. -/
def branchArrow (self : Grammar) (mode : Mode) : Reader Tree := do
  let (async, inputs) ← annotatedArrow self mode
  ensure (hasResult inputs)
  let tree ← arrowFrom self mode async inputs
  ensure (← isNext ':')
  pure tree

/-- The parameters before an arrow, and whether `async` stands before them. In the first branch of a
conditional expression they have no result type here. -/
def arrowStart (self : Grammar) (mode : Mode) : Reader (Bool × Tree) :=
  namedArrow <|> (do
    let (async, inputs) ← annotatedArrow self mode
    ensure (!(mode.inBranch && hasResult inputs))
    pure (async, inputs))

/-- An arrow function whose parameters are seen to be such from the start, if one is next. -/
def plainArrow? (self : Grammar) (mode : Mode) : Reader (Option Tree) := do
  match ← attempt (ensure mode.inBranch *> branchArrow self mode) with
  | some tree => pure (some tree)
  | none =>
    match ← attempt (arrowStart self mode) with
    | some (async, inputs) => some <$> arrowFrom self mode async inputs
    | none => pure none

/-- An expression without commas. -/
def assignment (self : Grammar) (mode : Mode) : Reader Tree := do
  match ← plainArrow? self mode with
  | some tree => pure tree
  | none =>
    if ← takeWordIf mode.yields "yield" then yieldOf self mode
    else
      let left ← self mode (.operand 0)
      match left with
      | .node (.arrowHead async) inner => coveredArrow self mode async inner
      | left => assignmentFrom self mode left

/-- An expression with its commas. -/
def expression (self : Grammar) (mode : Mode) : Reader Tree := do
  let parts ← commas (self mode .assignment)
  match parts with
  | [part] => pure part
  | parts => pure (.node .sequence parts)

end JsxLowering.Source
