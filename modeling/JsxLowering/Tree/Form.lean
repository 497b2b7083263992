/-!
# Forms of syntax

A form is the label of an inner node of a syntax tree: what the node is, without its parts. The
parts are the node's children, listed here in source order; `?` marks a part that may be absent.
-/

namespace JsxLowering

/-- How a variable is declared. -/
inductive VariableKind
  | var
  | lexical
  | constant
  /-- Bound to a resource that is released at the end of the scope. -/
  | resource
  /-- The same, and its release is waited for. -/
  | awaitedResource
deriving DecidableEq, Repr

/-- Where a function stands. An expression may stand directly in parentheses, and then they are
printed. -/
inductive FunctionKind
  | declaration
  | expression (parenthesized : Bool)
  | method
deriving DecidableEq, Repr

/-- Whether a function is an expression of its own. -/
def FunctionKind.isExpression : FunctionKind → Bool
  | .expression _ => true
  | _ => false

/-- How a member of an object or a class is written. -/
inductive MemberKind
  | value
  | getter
  | setter
  | method
deriving DecidableEq, Repr

/-- The label of an inner node. -/
inductive Form
  -- expressions
  /-- `(e)`: `e` -/
  | paren
  /-- `o.name` or `o?.name`: `o` -/
  | member (name : String) (optional : Bool)
  /-- `o.#name` or `o?.#name`: `o` -/
  | privateMember (name : String) (optional : Bool)
  /-- `o[k]` or `o?.[k]`: `o`, `k` -/
  | index (optional : Bool)
  /-- `f(a, …)` or `f?.(a, …)`: `f`, `a`, … -/
  | call (optional : Bool)
  /-- `new f(a, …)`: `f`, `a`, … -/
  | construct
  /-- A whole optional chain: the chain -/
  | chain
  /-- `op e`: `e` -/
  | unary (op : String)
  /-- `op e` if `before`, else `e op`: `e` -/
  | update (op : String) (before : Bool)
  /-- `l op r`: `l`, `r` -/
  | binary (op : String)
  /-- `t op v`: `t`, `v` -/
  | assign (op : String)
  /-- `c ? a : b`: `c`, `a`, `b` -/
  | conditional
  /-- `a, b, …`: `a`, `b`, … -/
  | sequence
  /-- `[a, …]`: elements, a hole being absent -/
  | array
  /-- An object literal: its properties -/
  | object
  /-- `...e`, with a comma after it at the end of its list if `followed`: `e` -/
  | spread (followed : Bool)
  /-- A property of an object literal: key, value -/
  | property (kind : MemberKind) (computed : Bool)
  /-- The property `a`: `a` -/
  | shorthand
  /-- `a = e` in an object literal, which only a pattern may hold: `a`, `e` -/
  | defaulted
  /-- A template literal: the expressions between its pieces -/
  | template (pieces : List String)
  /-- A tagged template: tag, template -/
  | tagged
  /-- `await e`: `e` -/
  | await
  /-- `yield e?` or `yield* e`: `e?` -/
  | yields (delegate : Bool)
  /-- `import(e, …)`, or `import.phase(e, …)` if there is a phase: `e`, … -/
  | importCall (phase : String)
  /-- A function: name?, parameters, body? -/
  | function (kind : FunctionKind) (async generator : Bool)
  /-- An arrow function, which may stand directly in parentheses: parameters, then a body or an
  expression -/
  | arrow (async parenthesized : Bool)
  /-- A parameter list: parameters, of which the last may be a rest -/
  | parameters
  /-- Annotated parameters: type parameters?, parameters, result type? -/
  | signature
  /-- The body of a function: statements -/
  | body
  /-- Parenthesized expressions before an arrow, which only its parameters may be: they -/
  | arrowHead (async : Bool)
  /-- A class: name?, superclass?, interfaces?, members -/
  | classForm (declaration : Bool) (modifiers : List String)
  /-- A method of a class: key, function -/
  | method (modifiers : List String) (kind : MemberKind) (computed : Bool)
  /-- A field of a class, with a mark such as `?` after its key: key, type?, value? -/
  | field (modifiers : List String) (computed : Bool) (mark : String)
  /-- `static { … }`: statements -/
  | staticBlock
  /-- `@e`: `e` -/
  | decorator
  /-- Decorators and what they decorate: they, it -/
  | decorated
  -- patterns
  /-- An array pattern: elements, a hole being absent -/
  | arrayPattern
  /-- An object pattern: properties, of which the last may be a rest -/
  | objectPattern
  /-- An array pattern that is assigned to: elements, a hole being absent -/
  | arrayTarget
  /-- An object pattern that is assigned to: properties, of which the last may be a rest -/
  | objectTarget
  /-- A property of an object pattern: key, pattern -/
  | patternProperty (shorthand computed : Bool)
  /-- `p = e`: `p`, `e` -/
  | defaultPattern
  /-- `...p`: `p` -/
  | rest
  /-- `p: t`, with a mark such as `?` before the colon: `p`, `t?` -/
  | typed (mark : String)
  /-- A parameter after words that make it a field: the parameter -/
  | modified (words : List String)
  -- statements
  /-- A whole module, with the text of a first line `#!…`: statements -/
  | program (launcher : Option String)
  /-- `{ … }`: statements -/
  | block
  /-- `e;`: `e` -/
  | expression
  /-- A directive such as `'use strict';`, with its spelling: its string -/
  | directive (raw : String)
  /-- `;` -/
  | empty
  /-- `debugger;` -/
  | debugger
  /-- A variable declaration: declarators -/
  | variableList (kind : VariableKind)
  /-- `p = e?`: `p`, `e?` -/
  | declarator
  /-- `if (c) a else b?`: `c`, `a`, `b?` -/
  | ifElse
  /-- `for (i?; c?; u?) b`: `i?`, `c?`, `u?`, `b` -/
  | forLoop
  /-- `for (l in r) b`: `l`, `r`, `b` -/
  | forIn
  /-- `for (l of r) b` or `for await (l of r) b`: `l`, `r`, `b` -/
  | forOf (await : Bool)
  /-- `while (c) b`: `c`, `b` -/
  | whileLoop
  /-- `do b while (c);`: `b`, `c` -/
  | doWhile
  /-- `with (o) b`: `o`, `b` -/
  | withObject
  /-- `break label?;` or `continue label?;` -/
  | jump (word : String) (label : Option String)
  /-- `return e?;`: `e?` -/
  | returns
  /-- `throw e;`: `e` -/
  | throws
  /-- `label: s`: `s` -/
  | labeled (label : String)
  /-- `switch (e) { … }`: `e`, cases -/
  | switchCase
  /-- `case e?: …`: `e?`, statements -/
  | caseClause
  /-- `try b catch … finally f`: `b`, handler?, `f?` -/
  | tryCatch
  /-- `catch (p?) b`: `p?`, `b` -/
  | handler
  -- module items
  /-- An import, perhaps with a word such as `type` before its clause: specifiers, source; `bare`
  has no clause at all -/
  | importFrom (bare : Bool) (word : String)
  /-- `a` in an import clause: `a` -/
  | importDefault
  /-- `* as a` in an import clause: `a` -/
  | importAll
  /-- `b as a` in an import clause: `b`, `a` -/
  | importName (typeOnly : Bool)
  /-- `export` before a declaration: the declaration -/
  | exportItem
  /-- `export { … }`: specifiers, then the source if there is one -/
  | exportList (sourced typeOnly : Bool)
  /-- `a as b` in an export list: `a`, `b` -/
  | exportName (typeOnly : Bool)
  /-- `export * as a? from s`: `a?`, `s` -/
  | exportAll (typeOnly : Bool)
  /-- `export default x`: a function, a class or an expression -/
  | exportDefault
  -- annotations
  /-- `e word t`, a cast: `e`, `t` -/
  | cast (word : String)
  /-- `e!`: `e` -/
  | nonNull
  /-- A name or expression with type arguments: it, the arguments -/
  | generic
  /-- `declare` before a declaration: the declaration -/
  | ambient
  /-- A namespace after a word: name, statements -/
  | namespaceBlock (word : String)
  /-- Type parameters: they -/
  | typeParameters
  /-- Text with its parts between the pieces, for types and type declarations -/
  | mixed (pieces : List String)
  /-- Members in braces, each on a line that ends in a mark, for types and type declarations -/
  | fenced (mark : String)
deriving DecidableEq, Repr

end JsxLowering
