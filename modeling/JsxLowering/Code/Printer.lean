import JsxLowering.Code.Statement

/-!
# The printer

The code of a tree, from the code of its parts.
-/

namespace JsxLowering

namespace Code

/-- The code of an expression form. -/
def expressionForm (layout : Layout) : Form → List Part → Option String
  | .paren, [inner] => some (inner.print layout)
  | .member name optional, [object] => some (memberCode layout object optional name)
  | .privateMember name optional, [object] =>
    some (memberCode layout object optional ("#" ++ name))
  | .index optional, [object, index] => some (indexCode layout object optional index)
  | .call optional, callee :: arguments => some (callCode layout callee optional arguments)
  | .construct, callee :: arguments => some (constructCode layout callee arguments)
  | .chain, [chain] => some (chainCode layout chain)
  | .unary op, [argument] => some (unaryCode layout op argument)
  | .update op before, [argument] => some (updateCode layout op before argument)
  | .binary op, [left, right] => some (binaryCode layout op left right)
  | .assign op, [target, value] => some (assignCode layout op target value)
  | .conditional, [test, first, second] => some (conditionalCode layout test first second)
  | .sequence, parts => some (sequenceCode layout parts)
  | .array, elements => some (arrayCode layout elements)
  | .object, properties => some (objectLiteralCode layout properties)
  | .spread _, [argument] => some ("..." ++ argument.print (layout.inner .comma))
  | .property .value computed, [key, value] => some (propertyCode layout computed key value)
  | .property kind computed, [key, value] => some (methodCode layout kind computed key value)
  | .shorthand, [name] => some (name.print (layout.inner .comma))
  | .template pieces, values => some ("\x60" ++ templateCode layout pieces values ++ "\x60")
  | .tagged, [tag, template] =>
    some (tag.print (layout.front .postfixed) ++ template.print (layout.inner .lowest))
  | .await, [argument] => some (awaitCode layout argument)
  | .yields delegate, [argument] => some (yieldCode layout delegate argument)
  | .importCall phase, arguments => some (importCallCode layout phase arguments)
  | .cast word, [value, type] => some (castCode layout word value type)
  | .nonNull, [value] => some (value.print (layout.left .postfixed) ++ "!")
  | .generic, [value, types] =>
    some (value.print (layout.left .postfixed) ++ types.print (layout.inner .lowest))
  | _, _ => none

/-- The code of a function, a class, a pattern or a part of one. -/
def definitionForm (layout : Layout) : Form → List Part → Option String
  | .function kind async generator, [name, inputs, content] =>
    some (functionCode layout kind async generator name inputs content)
  | .arrow async parenthesized, [inputs, content] =>
    some (arrowCode layout async parenthesized inputs content)
  | .parameters, parts => some (parametersCode layout parts)
  | .signature, [types, inputs, result] => some (signatureCode layout types inputs result)
  | .body, statements => some (functionBodyCode layout statements)
  | .classForm declaration modifiers, name :: parent :: types :: members =>
    some (classCode layout declaration modifiers name parent types members)
  | .method modifiers kind computed, [key, value] =>
    some (modifiersCode modifiers ++ methodCode layout kind computed key value)
  | .field modifiers computed mark, [key, type, value] =>
    some (fieldCode layout modifiers computed mark key type value)
  | .staticBlock, statements => some (staticBlockCode layout statements)
  | .decorator, [value] => some (decoratorCode layout value)
  | .decorated, parts => some (decoratedCode layout parts)
  | .arrayPattern, elements => some (elementsCode layout " " elements)
  | .objectPattern, properties => some (objectPatternCode layout properties)
  | .arrayTarget, elements => some (elementsCode layout "" elements)
  | .objectTarget, properties => some ("\x7b" ++ listCode layout properties ++ "\x7d")
  | .patternProperty short computed, [key, pattern] =>
    some (patternPropertyCode layout short computed key pattern)
  | .defaultPattern, [pattern, value] => some (defaultCode layout pattern value)
  | .rest, [pattern] => some ("..." ++ pattern.print (layout.inner .comma))
  | .typed mark, [pattern, type] => some (typedCode layout mark pattern type)
  | .modified words, [pattern] =>
    some (modifiersCode words ++ pattern.print (layout.right .comma))
  | .typeParameters, parts => some (typeParametersCode layout parts)
  | _, _ => none

/-- The code of a statement form. -/
def statementForm (layout : Layout) : Form → List Part → Option String
  | .block, statements => some (layout.braces statements)
  | .expression, [value] => some (expressionCode layout value)
  | .directive raw, _ => some (directiveCode raw)
  | .empty, _ => some ";"
  | .debugger, _ => some "debugger;"
  | .variableList kind, declarators => some (variablesCode layout kind declarators)
  | .declarator, [pattern, value] => some (declaratorCode layout pattern value)
  | .ifElse, [test, first, second] => some (ifCode layout test first second)
  | .forLoop, [start, test, update, content] =>
    some (forLoopCode layout start test update content)
  | .forIn, [left, right, content] =>
    some (forEachCode layout "for" "in" .lowest left right content)
  | .forOf await, [left, right, content] =>
    some (forEachCode layout (if await then "for await" else "for") "of" .comma left right content)
  | .whileLoop, [test, content] => some ("while" ++ headCode layout test ++ bodyCode layout content)
  | .withObject, [object, content] =>
    some ("with(" ++ object.print (layout.inner .lowest) ++ ")" ++ bodyCode layout content)
  | .doWhile, [content, test] => some (doWhileCode layout content test)
  | .jump word label, _ =>
    some (word ++ (match label with | some name => " " ++ name | none => "") ++ ";")
  | .returns, [value] => some (wordCode layout "return" value)
  | .throws, [value] => some (wordCode layout "throw" value)
  | .labeled label, [content] => some (label ++ ":" ++ bodyCode layout content)
  | .switchCase, value :: cases =>
    some ("switch" ++ headCode layout value ++ " " ++ layout.braces cases)
  | .caseClause, test :: statements => some (caseCode layout test statements)
  | .tryCatch, [content, caught, last] => some (tryCode layout content caught last)
  | .handler, [caught, content] => some (handlerCode layout caught content)
  | _, _ => none

/-- The code of an item of a module. -/
def itemForm (layout : Layout) : Form → List Part → Option String
  | .importFrom bare word, parts => some (importCode layout bare word parts)
  | .importDefault, [name] => some (name.print layout)
  | .importAll, [name] => some ("* as " ++ name.print layout)
  | .importName typeOnly, [name, other] => some (renamedCode layout typeOnly name other)
  | .exportItem, [declaration] => some ("export " ++ declaration.print (layout.inner .lowest))
  | .exportList sourced typeOnly, parts => some (exportListCode layout sourced typeOnly parts)
  | .exportName typeOnly, [name, other] => some (renamedCode layout typeOnly name other)
  | .exportAll typeOnly, [name, source] => some (exportAllCode layout typeOnly name source)
  | .exportDefault, [value] => some (exportDefaultCode layout value)
  | .ambient, [declaration] => some ("declare " ++ declaration.print (layout.inner .lowest))
  | .namespaceBlock word, name :: statements => some (namespaceCode layout word name statements)
  | .mixed pieces, parts => some (mixedCode layout pieces parts)
  | .fenced mark, members => some (fencedCode layout mark members)
  | _, _ => none

/-- The first line of a module, if it says what runs the module. -/
def launcherCode : Option String → String
  | some text => "#!" ++ text ++ "\n"
  | none => ""

/-- The code of a whole module: each statement on lines of its own. -/
def programCode (layout : Layout) (launcher : Option String) (statements : List Part) : String :=
  let texts : List String := match statements with
    | [] => []
    | first :: rest =>
      (looseCode? first).getD (first.print layout) :: rest.map fun (part : Part) =>
        part.print layout
  launcherCode launcher ++ String.join (texts.map (· ++ "\n"))

/-- The code of a node. -/
def formCode (layout : Layout) (form : Form) (parts : List Part) : String :=
  match form with
  | .program launcher => programCode layout launcher parts
  | form =>
    ((expressionForm layout form parts <|> definitionForm layout form parts)
      <|> (statementForm layout form parts <|> itemForm layout form parts)).getD ""

end Code

mutual

/-- The code of a tree in a layout. Markup has none. -/
def Tree.codeIn : Tree → Code.Layout → String
  | .leaf content, layout => Code.leafCode layout content
  | .node form children, layout => Code.formCode layout form (Tree.parts children)
  | .markup _, _ => ""

/-- Trees with their code. -/
def Tree.parts : List Tree → List Code.Part
  | [] => []
  | tree :: rest => ⟨tree, fun layout => tree.codeIn layout⟩ :: Tree.parts rest

end

namespace Tree

/-- The code of an expression on its own, printed as the right side of an assignment would be. -/
def code (tree : Tree) : String := tree.codeIn { level := .comma }

/-- The code of a module, whose source may hold markup. -/
def moduleCode (tree : Tree) : String := tree.codeIn { besideMarkup := true }

end Tree

end JsxLowering
