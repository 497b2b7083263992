import JsxLowering.Source.Declaration

/-!
# Statements

The statements of the language, each by the word it starts with.
-/

namespace JsxLowering.Source

/-- A condition in parentheses. -/
def condition (self : Grammar) (mode : Mode) : Reader Tree := do
  mark '('
  let test ← self mode.inside .expression
  mark ')'
  pure test

/-- Statements in braces. -/
def block (self : Grammar) (mode : Mode) : Reader Tree := do
  mark '\x7b'
  let statements ← items '\x7d' (self mode (.statement false))
  pure (.node .block statements)

/-- `if` and its branches. -/
def ifStatement (self : Grammar) (mode : Mode) : Reader Tree := do
  word "if"
  let test ← condition self mode
  let first ← self mode (.statement true)
  let second ← if ← takeWord? "else" then self mode (.statement true) else pure .absent
  pure (.node .ifElse [test, first, second])

/-! ## Loops -/

/-- A part of the head of a loop up to its closing mark, if there is one. -/
def headPart (self : Grammar) (mode : Mode) (close : Char) : Reader Tree := do
  if ← take? close then pure .absent
  else
    let value ← self mode.inside .expression
    mark close
    pure value

/-- A counting loop after the first part of its head. -/
def forLoopFrom (self : Grammar) (mode : Mode) (start : Tree) : Reader Tree := do
  let test ← headPart self mode ';'
  let update ← headPart self mode ')'
  let body ← self mode (.statement true)
  pure (.node .forLoop [start, test, update, body])

/-- A loop over the elements of a value, after the word `of`. -/
def forOfFrom (self : Grammar) (mode : Mode) (await : Bool) (left : Tree) : Reader Tree := do
  let right ← self mode.inside .assignment
  mark ')'
  let body ← self mode (.statement true)
  pure (.node (.forOf await) [left, right, body])

/-- A loop over the keys of a value, after the word `in`. -/
def forInFrom (self : Grammar) (mode : Mode) (left : Tree) : Reader Tree := do
  let right ← self mode.inside .expression
  mark ')'
  let body ← self mode (.statement true)
  pure (.node .forIn [left, right, body])

/-- A loop whose head starts with a declaration. -/
def forDeclaration (self : Grammar) (mode : Mode) (await : Bool) (kind : VariableKind) :
    Reader Tree := do
  let left ← variableList self { mode with inOperator := false } kind
  if ← takeWord? "of" then forOfFrom self mode await left
  else if ← takeWord? "in" then forInFrom self mode left
  else
    ensure (!await && haveValues kind left)
    mark ';'
    forLoopFrom self mode left

/-- Whether a loop over elements must not start so: with `let`, or with `async of`. -/
def isLoopLure (await : Bool) (cs : List Char) : Bool :=
  match nameOf cs with
  | some ("let", _) => true
  | some ("async", rest) => !await && (nameOf (skip rest)).map Prod.fst = some "of"
  | _ => false

/-- A loop whose head starts with an expression. -/
def forExpression (self : Grammar) (mode : Mode) (await : Bool) : Reader Tree := do
  let lure := isLoopLure await (← ahead)
  let left ← self { mode with inOperator := false } .expression
  if ← take? ';' then
    ensure (!await)
    forLoopFrom self mode left
  else
    match left.asTarget? true with
    | some target =>
      if ← takeWord? "of" then
        ensure (!lure)
        forOfFrom self mode await target
      else
        word "in"
        forInFrom self mode target
    | none => failure

/-- A loop that starts with `for`. -/
def forStatement (self : Grammar) (mode : Mode) : Reader Tree := do
  word "for"
  let await ← takeWordIf mode.awaits "await"
  mark '('
  if ← take? ';' then
    ensure (!await)
    forLoopFrom self mode .absent
  else match ← variableWord? mode with
    | some kind => forDeclaration self mode await kind
    | none => forExpression self mode await

/-- A loop with its condition first. -/
def whileStatement (self : Grammar) (mode : Mode) : Reader Tree := do
  word "while"
  let test ← condition self mode
  let body ← self mode (.statement true)
  pure (.node .whileLoop [test, body])

/-- A loop with its condition last. -/
def doStatement (self : Grammar) (mode : Mode) : Reader Tree := do
  word "do"
  let body ← self mode (.statement true)
  word "while"
  let test ← condition self mode
  let _ ← take? ';'
  pure (.node .doWhile [body, test])

/-- A statement in which the fields of an object are names. -/
def withStatement (self : Grammar) (mode : Mode) : Reader Tree := do
  word "with"
  let object ← condition self mode
  let body ← self mode (.statement true)
  pure (.node .withObject [object, body])

/-! ## Jumps -/

/-- `break` or `continue`, with a label on the same line. -/
def jumpStatement (text : String) : Reader Tree := do
  word text
  if !(← onNewLine) && (← isPlainNameNext) then
    let label ← plainName
    statementEnd
    pure (.node (.jump text (some label)) [])
  else
    statementEnd
    pure (.node (.jump text none) [])

/-- Whether a statement ends here without a mark of its own. -/
def isStatementEnd : Reader Bool := do
  let cs ← ahead
  let fresh ← onNewLine
  pure (fresh || cs.isEmpty || cs.head? = some ';' || cs.head? = some '\x7d')

/-- `return` and its value. -/
def returnStatement (self : Grammar) (mode : Mode) : Reader Tree := do
  word "return"
  ensure mode.returns
  let value ← if ← isStatementEnd then pure .absent else self mode.inside .expression
  statementEnd
  pure (.node .returns [value])

/-- `throw` and its value. -/
def throwStatement (self : Grammar) (mode : Mode) : Reader Tree := do
  word "throw"
  ensure (!(← onNewLine))
  let value ← self mode.inside .expression
  statementEnd
  pure (.node .throws [value])

/-! ## Other statements -/

/-- The statements of a case, up to the next case or the end of the switch. -/
def caseBodyFrom (self : Grammar) (mode : Mode) : Nat → Reader (List Tree)
  | 0 => failure
  | fuel + 1 => do
    let next ← nextName
    if next = some "case" || next = some "default" || (← isNext '\x7d') then pure []
    else
      let first ← self mode (.statement false)
      let rest ← caseBodyFrom self mode fuel
      pure (first :: rest)

/-- A case of a switch. -/
def caseClause (self : Grammar) (mode : Mode) : Reader Tree := do
  let test ← if ← takeWord? "default" then pure .absent
    else (do word "case"; self mode.inside .expression)
  mark ':'
  let statements ← fun cs => caseBodyFrom self mode (cs.length + 1) cs
  pure (.node .caseClause (test :: statements))

/-- A switch. -/
def switchStatement (self : Grammar) (mode : Mode) : Reader Tree := do
  word "switch"
  let value ← condition self mode
  mark '\x7b'
  let cases ← items '\x7d' (caseClause self mode)
  pure (.node .switchCase (value :: cases))

/-- What handles an exception. -/
def handler (self : Grammar) (mode : Mode) : Reader Tree := do
  word "catch"
  let caught ← if ← take? '(' then
      (do
        let pattern ← self mode .binding
        let type ← typeAfterColon self mode
        mark ')'
        pure (if type.isPresent then .node (.typed "") [pattern, type] else pattern))
    else pure .absent
  let body ← block self mode
  pure (.node .handler [caught, body])

/-- A `try` with what handles an exception and what comes in any case. -/
def tryStatement (self : Grammar) (mode : Mode) : Reader Tree := do
  word "try"
  let body ← block self mode
  let caught ← if (← nextName) = some "catch" then handler self mode else pure .absent
  let last ← if ← takeWord? "finally" then block self mode else pure .absent
  ensure (caught.isPresent || last.isPresent)
  pure (.node .tryCatch [body, caught, last])

/-- An expression as a statement. -/
def expressionStatement (self : Grammar) (mode : Mode) : Reader Tree := do
  let value ← self mode.inside .expression
  statementEnd
  pure (.node .expression [value])

/-- The label that a text starts with, and the text after its colon. -/
def labelOf (mode : Mode) (cs : List Char) : Option (String × List Char) :=
  match anyNameOf cs with
  | some (name, rest) =>
    match skip rest with
    | ':' :: rest =>
      let operates := (mode.awaits && name = "await") || (mode.yields && name = "yield")
      if isReserved name || operates then none else some (name, rest)
    | _ => none
  | none => none

/-- A statement that starts with none of the words of statements: a labelled one, a declaration of
a type or an expression. -/
def otherStatement (self : Grammar) (mode : Mode) : Reader Tree := do
  match labelOf mode (← ahead) with
  | some (label, rest) => do
    set rest
    let body ← self mode (.statement true)
    pure (.node (.labeled label) [body])
  | none =>
    if mode.typescript then
      typeDeclaration self mode <|> ambientDeclaration self mode
        <|> (do ensure ((← nextName) = some "abstract"); classDeclaration self mode true)
        <|> namespaceOf self mode
        <|> expressionStatement self mode
    else expressionStatement self mode

/-- A variable declaration, which must not be `nested` unless it is `var`. -/
def variableOrOther (self : Grammar) (mode : Mode) (nested : Bool) : Reader Tree := do
  match ← variableWord? mode with
  | some kind => do
    ensure (!nested || kind = .var)
    variableStatement self mode kind
  | none => otherStatement self mode

/-- The second of two names on one line that a text starts with. -/
def secondName (cs : List Char) : Option String := do
  let (_, rest) ← nameOf cs
  let (name, _) ← if breaks rest then none else nameOf (skip rest)
  some name

/-- A function declaration or an expression that starts with `async`. -/
def asyncStatement (self : Grammar) (mode : Mode) (nested : Bool) : Reader Tree := do
  if secondName (← ahead) = some "function" then
    ensure (!nested)
    functionDeclaration self mode true
  else otherStatement self mode

/-- Whether a tree is the declaration of a generator. -/
def isGenerator : Tree → Bool
  | .node (.function _ _ generator) _ => generator
  | _ => false

/-- The declaration of a function, which is no generator if it is `nested`. -/
def functionStatement (self : Grammar) (mode : Mode) (nested : Bool) : Reader Tree := do
  let tree ← functionDeclaration self mode true
  ensure (!(nested && isGenerator tree))
  pure tree

/-- The declaration of a class after decorators. -/
def decoratedDeclaration (self : Grammar) (mode : Mode) (named : Bool) : Reader Tree := do
  let decorators ← decorators self mode
  let tree ← classDeclaration self mode named
  pure (decorate decorators tree)

/-- A statement. -/
def statement (self : Grammar) (mode : Mode) (nested : Bool) : Reader Tree := do
  match ← nextName with
  | some "if" => ifStatement self mode
  | some "for" => forStatement self mode
  | some "while" => whileStatement self mode
  | some "do" => doStatement self mode
  | some "with" => withStatement self mode
  | some "switch" => switchStatement self mode
  | some "try" => tryStatement self mode
  | some "return" => returnStatement self mode
  | some "throw" => throwStatement self mode
  | some "break" => jumpStatement "break"
  | some "continue" => jumpStatement "continue"
  | some "debugger" => do
    word "debugger"
    statementEnd
    pure (.node .debugger [])
  | some "function" => functionStatement self mode nested
  | some "async" => asyncStatement self mode nested
  | some "class" => do
    ensure (!nested)
    classDeclaration self mode true
  | some "var" => variableOrOther self mode nested
  | some "const" =>
    (do ensure mode.typescript; enumOf self mode) <|> variableOrOther self mode nested
  | some "let" => variableOrOther self mode nested
  | some "using" => variableOrOther self mode nested
  | some "await" => variableOrOther self mode nested
  | some _ => otherStatement self mode
  | none => do
    if ← isNext '\x7b' then block self mode
    else if ← take? ';' then pure (.node .empty [])
    else if ← isNext '@' then
      ensure (!nested)
      decoratedDeclaration self mode true
    else otherStatement self mode

end JsxLowering.Source
