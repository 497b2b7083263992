import JsxLowering.Code.Expression

/-!
# Printed statements

A statement is printed without the indentation before its first line and without the line break
after its last.
-/

namespace JsxLowering.Code

/-- Whether a statement is a block. -/
def isBlock : Tree → Bool
  | .node .block _ => true
  | _ => false

/-- Whether a statement is a lone semicolon. -/
def isEmptyStatement : Tree → Bool
  | .node .empty _ => true
  | _ => false

/-- Whether an `else` after the statement would be taken for a part of it. -/
def endsInOpenIf : Tree → Bool
  | .node .ifElse [_, _, .absent] => true
  | .node .ifElse [_, _, other] => endsInOpenIf other
  | .node .forLoop [_, _, _, body] => endsInOpenIf body
  | .node .forIn [_, _, body] => endsInOpenIf body
  | .node (.forOf _) [_, _, body] => endsInOpenIf body
  | .node .whileLoop [_, body] => endsInOpenIf body
  | .node .withObject [_, body] => endsInOpenIf body
  | .node (.labeled _) [body] => endsInOpenIf body
  | _ => false

/-- The body of a loop or a branch, after what it belongs to. -/
def bodyCode (layout : Layout) (body : Part) : String :=
  if isEmptyStatement body.tree then ";" else " " ++ body.print layout.within

/-- An expression in parentheses. -/
def headCode (layout : Layout) (value : Part) : String :=
  " (" ++ value.print (layout.inner .lowest) ++ ")"

/-- An expression as a statement. -/
def expressionCode (layout : Layout) (value : Part) : String :=
  value.print { layout.inner .lowest with beginning := .statement } ++ ";"

/-- A directive, in its own spelling. -/
def directiveCode (raw : String) : String :=
  let quote := directiveQuote raw.toList
  quote ++ raw ++ quote ++ ";"

/-- The string that is all of a statement, with parentheses or without. -/
def looseString? : Tree → Option String
  | .node .expression [value] =>
    match bare value with
    | .leaf (.string text) => some text
    | _ => none
  | _ => none

/-- The code of a statement that is only a string, parenthesized lest it be taken for a
directive. -/
def looseCode? (statement : Part) : Option String :=
  (looseString? statement.tree).map fun text => "(" ++ quoted text ++ ");"

/-- The statements of a body, each on a new line. A string at the beginning that is no directive
stands at the margin. -/
def linesCode (layout : Layout) : List Part → String
  | [] => ""
  | first :: rest =>
    let lead := match looseCode? first with
      | some text => "\n" ++ text
      | none => layout.newLine ++ first.print layout
    lead ++ String.join (rest.map fun part => layout.newLine ++ part.print layout)

/-- The body of a function. -/
def functionBodyCode (layout : Layout) (statements : List Part) : String :=
  if statements.isEmpty then "\x7b\x7d"
  else "\x7b" ++ linesCode layout.deeper statements ++ layout.newLine ++ "\x7d"

/-- A static block, whose braces stand on lines of their own even if it is empty. -/
def staticBlockCode (layout : Layout) (statements : List Part) : String :=
  "static \x7b" ++ String.join (statements.map fun part =>
    layout.deeper.newLine ++ part.print layout.deeper) ++ layout.newLine ++ "\x7d"

/-- The first branch of an `if`. A branch in which an `else` could be lost is put in braces. -/
def thenCode (layout : Layout) (body : Part) : String :=
  if !isBlock body.tree && endsInOpenIf body.tree then " " ++ layout.braces [body]
  else bodyCode layout body

/-- `if`, with `else` on a new line unless a brace comes before it. -/
def ifCode (layout : Layout) (test first second : Part) : String :=
  let head := "if" ++ headCode layout test ++ thenCode layout first
  if second.isPresent then
    let braced := isBlock first.tree || endsInOpenIf first.tree
    head ++ (if braced then " " else layout.newLine) ++ "else" ++ bodyCode layout second
  else head

/-- A counting loop. -/
def forLoopCode (layout : Layout) (start test update body : Part) : String :=
  let after (part : Part) : String :=
    if part.isPresent then " " ++ part.print (layout.inner .lowest) else ""
  "for (" ++ start.print { layout.inner .lowest with beginning := .loopHead, forbidIn := true }
    ++ ";" ++ after test ++ ";" ++ after update ++ ")" ++ bodyCode layout body

/-- Whether a name before `of` would be taken for a word of the language. -/
def isLoopWord : Tree → Bool
  | .leaf (.identifier name) => name = "async" || name = "let"
  | _ => false

/-- A loop over a value. -/
def forEachCode (layout : Layout) (word relation : String) (level : Level)
    (left right body : Part) : String :=
  let target := layout.wrap (relation = "of" && isLoopWord (bare left.tree)) fun layout =>
    left.print { layout.inner .call with beginning := .loopHead }
  word ++ " (" ++ target ++ " " ++ relation ++ " " ++ right.print (layout.inner level) ++ ")"
    ++ bodyCode layout body

/-- A loop with its condition last. -/
def doWhileCode (layout : Layout) (body test : Part) : String :=
  let between := if isBlock body.tree then " " else layout.newLine
  "do" ++ bodyCode layout body ++ between ++ "while" ++ headCode layout test ++ ";"

/-- A case of a switch. A single statement stays on its line. -/
def caseCode (layout : Layout) (test : Part) (statements : List Part) : String :=
  let head := if test.isPresent then "case " ++ test.print (layout.inner .lowest) ++ ":"
    else "default:"
  match statements with
  | [] => head
  | [statement] => head ++ bodyCode layout statement
  | statements =>
    head ++ String.join
      (statements.map fun part => layout.deeper.newLine ++ part.print layout.deeper)

/-- A `try`. -/
def tryCode (layout : Layout) (body caught last : Part) : String :=
  "try " ++ body.print layout.within
    ++ (if caught.isPresent then " " ++ caught.print layout.within else "")
    ++ (if last.isPresent then " finally " ++ last.print layout.within else "")

/-- What handles an exception. -/
def handlerCode (layout : Layout) (caught body : Part) : String :=
  (if caught.isPresent then "catch (" ++ caught.print (layout.inner .lowest) ++ ") " else "catch ")
    ++ body.print layout.within

/-- The word of a variable declaration. -/
def variableWord : VariableKind → String
  | .var => "var"
  | .lexical => "let"
  | .constant => "const"
  | .resource => "using"
  | .awaitedResource => "await using"

/-- Declarators after their word. In the head of a loop no semicolon follows them. -/
def variablesCode (layout : Layout) (kind : VariableKind) (declarators : List Part) : String :=
  let list := ", ".intercalate (declarators.map fun part => part.print layout.within)
  variableWord kind ++ " " ++ list ++ (if layout.beginning = .loopHead then "" else ";")

/-- What is bound, and its value. -/
def declaratorCode (layout : Layout) (pattern value : Part) : String :=
  let head := pattern.print (layout.inner .comma)
  if value.isPresent then head ++ " = " ++ value.print (layout.right .comma) else head

/-! ## Imports and exports -/

/-- Names in braces. -/
def namesCode (names : List String) : String :=
  if names.isEmpty then "\x7b\x7d" else "\x7b " ++ ", ".intercalate names ++ " \x7d"

/-- Whether an import specifier stands in braces. -/
def isListed : Tree → Bool
  | .node (.importName _) _ => true
  | _ => false

/-- What is imported. -/
def importClauseCode (layout : Layout) (specifiers : List Part) : String :=
  let print (part : Part) : String := part.print (layout.inner .lowest)
  let first := (specifiers.filter fun part => !isListed part.tree).map print
  let listed := (specifiers.filter fun part => isListed part.tree).map print
  if listed.isEmpty && !first.isEmpty then ", ".intercalate first
  else ", ".intercalate (first ++ [namesCode listed])

/-- The source of an import of no names, whose quotes are not escaped. -/
def plainSource (layout : Layout) (source : Part) : String :=
  match source.tree with
  | .leaf (.string text) => "\"" ++ text ++ "\""
  | _ => source.print (layout.inner .lowest)

/-- An import: its specifiers and its source. -/
def importCode (layout : Layout) (bare : Bool) (word : String) (parts : List Part) : String :=
  let source := parts.getLastD .absent
  let specifiers := parts.dropLast
  let text := if !bare && specifiers.isEmpty then plainSource layout source
    else source.print (layout.inner .lowest)
  if bare then "import " ++ text ++ ";"
  else "import " ++ (if word = "" then "" else word ++ " ") ++ importClauseCode layout specifiers
    ++ " from " ++ text ++ ";"

/-- A name, and the other name it has if they differ. -/
def renamedCode (layout : Layout) (typeOnly : Bool) (name other : Part) : String :=
  let first := (if typeOnly then "type " else "") ++ name.print (layout.inner .lowest)
  if name.tree.nameText = other.tree.nameText then first
  else first ++ " as " ++ other.print (layout.inner .lowest)

/-- An export list. -/
def exportListCode (layout : Layout) (sourced typeOnly : Bool) (parts : List Part) : String :=
  let texts := parts.map fun part => part.print (layout.inner .lowest)
  let head := if typeOnly then "export type " else "export "
  if sourced then head ++ namesCode texts.dropLast ++ " from " ++ texts.getLastD "" ++ ";"
  else head ++ namesCode texts ++ ";"

/-- `export *`. -/
def exportAllCode (layout : Layout) (typeOnly : Bool) (name source : Part) : String :=
  (if typeOnly then "export type *" else "export *")
    ++ (if name.isPresent then " as " ++ name.print (layout.inner .lowest) else "")
    ++ " from " ++ source.print (layout.inner .lowest) ++ ";"

/-- Whether a tree is a declaration, which no semicolon follows as a default export. -/
def isDeclaration : Tree → Bool
  | .node (.function .declaration _ _) _ => true
  | .node (.classForm true _) _ => true
  | .node (.mixed _) _ => true
  | _ => false

/-- Whether a default export is a declaration, with decorators or without. -/
def endsInDeclaration : Tree → Bool
  | .node .decorated parts => (parts.getLast?.map isDeclaration).getD false
  | tree => isDeclaration tree

/-- The default export. -/
def exportDefaultCode (layout : Layout) (value : Part) : String :=
  let text := value.print { layout.inner .comma with beginning := .exportDefault }
  "export default " ++ text ++ (if endsInDeclaration value.tree then "" else ";")

/-- A namespace. -/
def namespaceCode (layout : Layout) (word : String) (name : Part) (statements : List Part) :
    String :=
  let head := if name.isPresent then word ++ " " ++ name.print (layout.inner .lowest) else word
  head ++ " " ++ functionBodyCode layout statements

/-- A word with an optional argument, as a statement. -/
def wordCode (layout : Layout) (word : String) (argument : Part) : String :=
  if argument.isPresent then word ++ " " ++ argument.print (layout.inner .lowest) ++ ";"
  else word ++ ";"

end JsxLowering.Code
