import JsxLowering.Code.Layout
import JsxLowering.Code.Quoted
import JsxLowering.Number.Text
import JsxLowering.Tree.Walk

/-!
# Printed expressions

Only the parentheses that an expression needs are printed, whatever its source had.
-/

namespace JsxLowering.Code

/-- A leaf. -/
def leafCode (layout : Layout) : Leaf → String
  | .absent => ""
  | .identifier name => name
  | .this => "this"
  | .null => "null"
  | .boolean value => if value then "true" else "false"
  | .number value =>
    if value.hasSign then
      layout.wrap (layout.level.reaches .unary) fun _ => "-" ++ value.magnitudeCode
    else value.magnitudeCode
  | .string value => quoted value
  | .verbatim text => text

/-! ## Operators -/

/-- The level of an operator between two operands. -/
def binaryLevel (op : String) : Level :=
  match op with
  | "??" => .coalesce
  | "||" => .or
  | "&&" => .and
  | "|" => .bitOr
  | "^" => .bitXor
  | "&" => .bitAnd
  | "==" | "!=" | "===" | "!==" => .equals
  | "<" | ">" | "<=" | ">=" | "instanceof" | "in" => .compare
  | "<<" | ">>" | ">>>" => .shift
  | "+" | "-" => .add
  | "**" => .exponent
  | _ => .multiply

/-- The expression inside any parentheses. -/
def bare : Tree → Tree
  | .node .paren [inner] => bare inner
  | tree => tree

/-- Whether an expression is a logical operation that must not stand bare beside `??`. -/
def isLogical (tree : Tree) : Bool :=
  match bare tree with
  | .node (.binary op) _ => op = "||" || op = "&&"
  | _ => false

/-- Whether an expression must not stand bare before `**`. -/
def isPrefixed (tree : Tree) : Bool :=
  match bare tree with
  | .node (.unary _) _ => true
  | _ => false

/-- Whether the right operand of an operator may be an operation of the same level. -/
def groupsFreely (op : String) : Bool := op = "||" || op = "&&"

/-- The levels around the left and the right operand of an operator. -/
def operandLevels (op : String) (left right : Tree) : Level × Level :=
  let level := binaryLevel op
  if op = "**" then (if isPrefixed left then .call else level, level.lower)
  else if op = "??" then
    (if isLogical left then .unary else level.lower, if isLogical right then .unary else level)
  else (level.lower, if groupsFreely op then level.lower else level)

/-- Whether a tree is the name of a private member. -/
def isPrivateName : Tree → Bool
  | .leaf (.verbatim text) => text.toList.head? = some '#'
  | _ => false

/-- `left op right`. -/
def binaryCode (layout : Layout) (op : String) (left right : Part) : String :=
  if isPrivateName left.tree then
    layout.wrap (layout.level.reaches .compare) fun layout =>
      left.print layout ++ " in " ++ right.print { layout.inner .equals with forbidIn := true }
  else
    let (leftLevel, rightLevel) := operandLevels op left.tree right.tree
    let wrapped := layout.level.reaches (binaryLevel op) || (op = "in" && layout.forbidIn)
    layout.wrap wrapped fun layout =>
      let layout := { layout with forbidIn := layout.forbidIn && !wrapped }
      left.print (layout.left leftLevel) ++ " " ++ op ++ " "
        ++ right.print (layout.right rightLevel)

/-- Whether a blank must part a sign from the operand after it. -/
def needsBlank (op : String) (operand : Tree) : Bool :=
  match bare operand with
  | .node (.unary other) _ => (op = "+" || op = "-") && other = op
  | .node (.update other _) _ => other = op ++ op
  | .leaf (.number value) => op = "-" && value.hasSign
  | _ => false

/-- Whether an operand is an infinite number, which must not be deleted. -/
def isInfinite : Tree → Bool
  | .leaf (.number (.infinite _)) => true
  | _ => false

/-- `op operand`, with a blank where the marks would run together. -/
def unaryCode (layout : Layout) (op : String) (operand : Part) : String :=
  layout.wrap (layout.level.reaches .unary) fun layout =>
    let text := operand.print (layout.right .exponent)
    let text := if op = "delete" && isInfinite operand.tree then "(0, " ++ text ++ ")" else text
    let isWord := (op.toList.head?.map Char.isAlpha).getD false
    if isWord || needsBlank op operand.tree then op ++ " " ++ text else op ++ text

/-- `++` or `--`, before or after its argument. -/
def updateCode (layout : Layout) (op : String) (before : Bool) (argument : Part) : String :=
  if before then
    layout.wrap (layout.level.reaches .unary) fun layout =>
      op ++ argument.print (layout.right .unary)
  else
    layout.wrap (layout.level.reaches .postfixed) fun layout =>
      argument.print (layout.left .postfixed) ++ op

/-- `await argument`. -/
def awaitCode (layout : Layout) (argument : Part) : String :=
  layout.wrap (layout.level.reaches .unary) fun layout =>
    "await " ++ argument.print (layout.right .exponent)

/-- `yield argument`. -/
def yieldCode (layout : Layout) (delegate : Bool) (argument : Part) : String :=
  layout.wrap (layout.level.reaches .assign) fun layout =>
    let word := if delegate then "yield*" else "yield"
    if argument.isPresent then word ++ " " ++ argument.print (layout.right .yields) else word

/-- Whether a tree is an object pattern that is assigned to. -/
def isObjectTarget : Tree → Bool
  | .node .objectTarget _ => true
  | _ => false

/-- `target op value`. An object pattern must not begin a statement. -/
def assignCode (layout : Layout) (op : String) (target value : Part) : String :=
  let begins := layout.beginning = .statement || layout.beginning = .arrowBody
  let wrapped := layout.level.reaches .assign || (begins && isObjectTarget target.tree)
  layout.wrap wrapped fun layout =>
    target.print (layout.front .call) ++ " " ++ op ++ " " ++ value.print (layout.right .comma)

/-- `test ? first : second`. -/
def conditionalCode (layout : Layout) (test first second : Part) : String :=
  let wrapped := layout.level.reaches .conditional
  layout.wrap wrapped fun layout =>
    let outer := { layout with forbidCall := false, forbidIn := layout.forbidIn && !wrapped }
    test.print (outer.left .conditional) ++ " ? " ++ first.print (layout.inner .yields) ++ " : "
      ++ second.print (outer.right .yields)

/-- `first, second, …`. -/
def sequenceCode (layout : Layout) (parts : List Part) : String :=
  layout.wrap (layout.level.reaches .comma) fun layout =>
    let layout := { layout with forbidCall := false }
    match parts with
    | [] => ""
    | first :: rest =>
      ", ".intercalate (first.print (layout.left .lowest)
        :: rest.map fun part => part.print (layout.right .lowest))

/-! ## Accesses and calls -/

/-- Whether the text of an expression is a number that a dot would run into. -/
def endsInDigits (tree : Tree) : Bool :=
  match bare tree with
  | .leaf (.number value) => !value.hasSign && value.magnitudeCode.toList.all Char.isDigit
  | _ => false

/-- The object of an access. -/
def objectCode (layout : Layout) (object : Part) : String :=
  object.print { layout.left .postfixed with forbidIn := false }

/-- `object.name`. -/
def memberCode (layout : Layout) (object : Part) (optional : Bool) (name : String) : String :=
  let gap := if endsInDigits object.tree && !optional then " " else ""
  objectCode layout object ++ gap ++ (if optional then "?." else ".") ++ name

/-- The expression inside any parentheses and annotations. -/
def core : Tree → Tree
  | .node .paren [inner] => core inner
  | .node .nonNull [inner] => core inner
  | .node (.cast _) [inner, _] => core inner
  | tree => tree

/-- Whether an expression is the name `let`, which before a bracket would begin a declaration. -/
def isLet (tree : Tree) : Bool :=
  match core tree with
  | .leaf (.identifier name) => name = "let"
  | _ => false

/-- `object[index]`. -/
def indexCode (layout : Layout) (object : Part) (optional : Bool) (index : Part) : String :=
  layout.wrap (isLet object.tree) (fun layout => objectCode layout object)
    ++ (if optional then "?.[" else "[") ++ index.print (layout.inner .lowest) ++ "]"

/-- Arguments in parentheses. -/
def argumentsCode (layout : Layout) (arguments : List Part) : String :=
  "(" ++ ", ".intercalate (arguments.map fun part => part.print (layout.inner .comma)) ++ ")"

/-- `callee(arguments)`. -/
def callCode (layout : Layout) (callee : Part) (optional : Bool) (arguments : List Part) : String :=
  layout.wrap (layout.level.reaches .new || layout.forbidCall) fun layout =>
    callee.print (layout.front .postfixed) ++ (if optional then "?." else "")
      ++ argumentsCode layout arguments

/-- `new callee(arguments)`. -/
def constructCode (layout : Layout) (callee : Part) (arguments : List Part) : String :=
  layout.wrap (layout.level.reaches .member) fun layout =>
    "new " ++ callee.print { layout.inner .new with forbidCall := true }
      ++ argumentsCode layout arguments

/-- A whole optional chain. -/
def chainCode (layout : Layout) (chain : Part) : String :=
  layout.wrap (layout.level.reaches .postfixed) fun layout => chain.print layout

/-- A call of `import`. -/
def importCallCode (layout : Layout) (phase : String) (arguments : List Part) : String :=
  layout.wrap (layout.level.reaches .new || layout.forbidCall) fun layout =>
    "import" ++ (if phase = "" then "" else "." ++ phase) ++ argumentsCode layout arguments

/-! ## Casts -/

/-- Whether parentheses are printed around a function in any case. -/
def isSelfWrapped (tree : Tree) : Bool :=
  match bare tree with
  | .node (.function (.expression parenthesized) _ _) _ => parenthesized
  | _ => false

/-- `value word type`. With `satisfies` both the whole and the value are always parenthesized. -/
def castCode (layout : Layout) (word : String) (value type : Part) : String :=
  let typeText := " " ++ word ++ " " ++ type.print (layout.inner .lowest)
  if word = "satisfies" then
    layout.wrap true fun layout =>
      let wrapped := !isSelfWrapped value.tree
      layout.wrap wrapped (fun layout => value.print (layout.inner layout.level)) ++ typeText
  else
    layout.wrap (layout.level.reaches .shift) fun layout =>
      value.print (layout.left .exponent) ++ typeText

/-! ## Literals -/

/-- An array literal: on one line up to two elements. -/
def arrayCode (layout : Layout) (elements : List Part) : String :=
  let holeLast := match elements.getLast? with
    | some part => !part.isPresent
    | none => false
  let closing := if holeLast then ",]" else "]"
  if elements.length ≤ 2 then
    "[" ++ ", ".intercalate (elements.map fun part => part.print (layout.inner .comma)) ++ closing
  else
    let deeper := layout.deeper
    let texts := elements.map fun part => part.print (deeper.inner .comma)
    if holeLast then layout.lines "[" "]" "," (texts.dropLast ++ [","])
    else layout.lines "[" "]" "," texts

/-- An object literal: on one line up to one property. It must not begin a statement. -/
def objectLiteralCode (layout : Layout) (properties : List Part) : String :=
  let begins := layout.beginning = .statement || layout.beginning = .arrowBody
  layout.wrap begins fun layout =>
    match properties with
    | [] => "\x7b\x7d"
    | [property] => "\x7b " ++ property.print layout.within ++ " \x7d"
    | properties =>
      layout.lines "\x7b" "\x7d" "," (properties.map fun part => part.print layout.deeper)

/-- Whether a key must be written in brackets as a number that is no plain one. -/
def isOddKey : Tree → Bool
  | .leaf (.number value) => value.hasSign || (value matches .infinite _)
  | _ => false

/-- The key of a property. -/
def keyCode (layout : Layout) (computed : Bool) (key : Part) : String :=
  if computed then "[" ++ key.print (layout.inner .comma) ++ "]"
  else key.print (layout.inner .lowest)

/-- Whether a property has a value of the same name, so that its name alone is printed. -/
def isOwnName (key value : Tree) : Bool :=
  match key, bare value with
  | .leaf (.identifier name), .leaf (.identifier other) => name = other && name ≠ "__proto__"
  | _, _ => false

/-- A property of an object literal with a value. -/
def propertyCode (layout : Layout) (computed : Bool) (key value : Part) : String :=
  let text := value.print (layout.inner .comma)
  if !computed && isOwnName key.tree value.tree then text
  else keyCode layout (computed || isOddKey key.tree) key ++ ": " ++ text

/-- A piece of a template literal. -/
def pieceCode (piece : String) : String := String.ofList (withoutScript piece.toList)

/-- The parts of a template literal. -/
def templateCode (layout : Layout) : List String → List Part → String
  | piece :: pieces, value :: values =>
    pieceCode piece ++ "$\x7b" ++ value.print (layout.inner .lowest) ++ "\x7d"
      ++ templateCode layout pieces values
  | piece :: _, [] => pieceCode piece
  | [], _ => ""

/-- Pieces of text with parts between them. -/
def mixedCode (layout : Layout) : List String → List Part → String
  | piece :: pieces, part :: parts =>
    piece ++ part.print (layout.inner .comma) ++ mixedCode layout pieces parts
  | piece :: _, [] => piece
  | [], _ => ""

/-- Members in braces, each on a line that ends in a mark. -/
def fencedCode (layout : Layout) (mark : String) (members : List Part) : String :=
  match members with
  | [] => "\x7b\x7d"
  | members =>
    layout.lines "\x7b" "\x7d" "" (members.map fun part => part.print layout.deeper ++ mark)

/-- Type parameters: each on a line of its own if there are several. -/
def typeParametersCode (layout : Layout) (parts : List Part) : String :=
  match parts with
  | [part] =>
    "<" ++ part.print (layout.inner .comma) ++ (if layout.besideMarkup then ",>" else ">")
  | parts =>
    layout.lines "<" ">" "," (parts.map fun part => part.print (layout.deeper.inner .comma))

/-! ## Patterns -/

/-- Whether a part collects what is left. -/
def Part.isRest (part : Part) : Bool := part.tree.isRest

/-- Parts between commas. -/
def listCode (layout : Layout) (parts : List Part) : String :=
  ", ".intercalate (parts.map fun part => part.print (layout.inner .comma))

/-- The elements of an array pattern in brackets, with the text before its rest if that stands
alone. A hole at the end, or before the rest, keeps its comma. -/
def elementsCode (layout : Layout) (alone : String) (elements : List Part) : String :=
  let items := elements.filter fun part => !part.isRest
  let rest := elements.filter Part.isRest
  let holeLast := match items.getLast? with
    | some part => !part.isPresent
    | none => false
  let comma := if !items.isEmpty && (holeLast || !rest.isEmpty) then "," else ""
  let tail := match rest with
    | part :: _ => (if items.isEmpty then alone else " ") ++ part.print (layout.inner .comma)
    | [] => ""
  "[" ++ listCode layout items ++ comma ++ tail ++ "]"

/-- An object pattern. -/
def objectPatternCode (layout : Layout) (properties : List Part) : String :=
  match properties with
  | [] => "\x7b\x7d"
  | properties => "\x7b " ++ listCode layout properties ++ " \x7d"

/-- A property of an object pattern. -/
def patternPropertyCode (layout : Layout) (shorthand computed : Bool) (key pattern : Part) :
    String :=
  if shorthand then pattern.print (layout.inner .comma)
  else keyCode layout computed key ++ ": " ++ pattern.print (layout.inner .comma)

/-- `pattern: type`, with a mark before the colon. -/
def typedCode (layout : Layout) (mark : String) (pattern type : Part) : String :=
  let lead := pattern.print (layout.inner .comma) ++ mark
  if type.isPresent then lead ++ ": " ++ type.print (layout.inner .comma) else lead

/-- `pattern = value`. What is forbidden around a parameter is so in its default. -/
def defaultCode (layout : Layout) (pattern value : Part) : String :=
  pattern.print (layout.inner .comma) ++ " = " ++ value.print (layout.right .comma)

/-! ## Functions and classes -/

/-- Parameters in parentheses. The type of `this` comes first, and a blank follows it. -/
def parametersCode (layout : Layout) (parameters : List Part) : String :=
  let print (parts : List Part) : String :=
    ", ".intercalate (parts.map fun part => part.print (layout.right .comma))
  match parameters with
  | [] => "()"
  | [first] =>
    if first.tree.isThisParameter then "(" ++ print [first] ++ " )" else "(" ++ print [first] ++ ")"
  | parameters => "(" ++ print parameters ++ ")"

/-- Parameters with type parameters and a result type. -/
def signatureCode (layout : Layout) (types parameters result : Part) : String :=
  let head := types.print (layout.inner .comma) ++ parameters.print (layout.right .comma)
  if result.isPresent then head ++ ": " ++ result.print (layout.inner .comma) else head

/-- Whether an expression begins a statement or a default export, where a function or a class would
be taken for a declaration. -/
def Layout.beginsItem (layout : Layout) : Bool :=
  layout.beginning = .statement || layout.beginning = .exportDefault

/-- Parameters and body of a function. -/
def functionRest (layout : Layout) (parameters body : Part) : String :=
  let head := parameters.print (layout.right .comma)
  if body.isPresent then head ++ " " ++ body.print layout.within else head ++ ";"

/-- Whether parentheses are printed around a function that stands in a layout. -/
def isWrapped (layout : Layout) : FunctionKind → Bool
  | .expression parenthesized => parenthesized || layout.beginsItem
  | _ => false

/-- A function from the word `function` on, or a method from its parameters on. -/
def functionCode (layout : Layout) (kind : FunctionKind) (async generator : Bool)
    (name parameters body : Part) : String :=
  match kind with
  | .method => functionRest layout parameters body
  | kind =>
    let word := (if async then "async " else "") ++ "function"
      ++ (if generator then "* " else if name.isPresent then " " else "")
    layout.wrap (isWrapped layout kind) fun layout =>
      word ++ name.print (layout.inner .lowest)
        ++ functionRest { layout with forbidCall := false } parameters body

/-- An arrow function. -/
def arrowCode (layout : Layout) (async parenthesized : Bool) (parameters body : Part) : String :=
  layout.wrap (parenthesized || layout.level.reaches .assign) fun layout =>
    (if async then "async " else "") ++ parameters.print (layout.right .comma) ++ " => "
      ++ body.print { layout.right .comma with beginning := .arrowBody }

/-- The words before a member. -/
def modifiersCode (modifiers : List String) : String :=
  String.join (modifiers.map (· ++ " "))

/-- What stands before the key of a method. -/
def methodLead (kind : MemberKind) (value : Tree) : String :=
  match kind, value with
  | .getter, _ => "get "
  | .setter, _ => "set "
  | _, .node (.function _ async generator) _ =>
    (if async then "async " else "") ++ (if generator then "*" else "")
  | _, _ => ""

/-- A method of a class or an object. -/
def methodCode (layout : Layout) (kind : MemberKind) (computed : Bool) (key value : Part) :
    String :=
  methodLead kind value.tree ++ keyCode layout computed key ++ value.print layout.within

/-- The marks and the type after the key of a field. -/
def fieldKeyCode (layout : Layout) (computed : Bool) (key type : Part) (mark : String) : String :=
  let head := keyCode layout computed key ++ mark
  if type.isPresent then head ++ ": " ++ type.print (layout.inner .comma) else head

/-- A field of a class. -/
def fieldCode (layout : Layout) (modifiers : List String) (computed : Bool) (mark : String)
    (key type value : Part) : String :=
  let head := modifiersCode modifiers ++ fieldKeyCode layout computed key type mark
  if value.isPresent then head ++ " = " ++ value.print (layout.inner .comma) ++ ";" else head ++ ";"

/-- A class. -/
def classCode (layout : Layout) (declaration : Bool) (modifiers : List String)
    (name parent types : Part) (members : List Part) : String :=
  layout.wrap (!declaration && layout.beginsItem) fun layout =>
    modifiersCode modifiers ++ "class"
      ++ (if name.isPresent then " " ++ name.print (layout.inner .lowest) else "")
      ++ (if parent.isPresent then " extends " ++ parent.print (layout.inner .postfixed) else "")
      ++ (if types.isPresent then " implements " ++ types.print (layout.inner .lowest) else "")
      ++ " " ++ { layout with forbidCall := false }.braces members

/-- Whether a decorator may be printed without parentheses: a dotted name, or calls of one. -/
def isPlainDecorator : Tree → Bool
  | .leaf (.identifier _) => true
  | .node (.member ..) _ => true
  | .node (.privateMember ..) _ => true
  | .node (.call _) (callee :: _) => isPlainDecorator callee
  | _ => false

/-- A decorator. -/
def decoratorCode (layout : Layout) (value : Part) : String :=
  "@" ++ layout.wrap (!isPlainDecorator value.tree) fun layout => value.print (layout.inner .lowest)

/-- Whether a tree is a class that is an expression. -/
def isClassExpression : Tree → Bool
  | .node (.classForm false _) _ => true
  | _ => false

/-- Decorators and what they decorate. -/
def decoratedCode (layout : Layout) (parts : List Part) : String :=
  let isClass := match parts.getLast? with
    | some part => isClassExpression part.tree
    | none => false
  layout.wrap (isClass && layout.beginsItem) fun layout =>
    " ".intercalate (parts.map fun part => part.print layout.within)

end JsxLowering.Code
