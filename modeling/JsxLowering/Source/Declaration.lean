import JsxLowering.Source.Class

/-!
# Declarations

Variables, functions and classes, and the declarations of types.
-/

namespace JsxLowering.Source

/-! ## Variables -/

/-- Whether a plain name is bound, with an annotation or without. -/
def bindsName : Tree → Bool
  | .leaf (.identifier _) => true
  | .node (.typed _) [pattern, _] => bindsName pattern
  | _ => false

/-- Whether a declarator without a value is allowed: only for a plain name that may change. -/
def mayOmitValue (kind : VariableKind) : Tree → Bool
  | .node .declarator [pattern, .absent] => (kind = .var || kind = .lexical) && bindsName pattern
  | _ => true

/-- Takes the mark of a variable that is set elsewhere. -/
def definiteMark (mode : Mode) : Reader String := do
  let found ← attempt (do
    ensure mode.typescript
    mark '!'
    ensure (← isNext ':'))
  pure (if found.isSome then "!" else "")

/-- What is bound, and its value. -/
def declarator (self : Grammar) (mode : Mode) : Reader Tree := do
  let pattern ← self mode .binding
  let mark ← definiteMark mode
  let type ← typeAfterColon self mode
  let pattern := if type.isPresent then .node (.typed mark) [pattern, type] else pattern
  let value ← if ← takeEquals? then self mode .assignment else pure .absent
  pure (.node .declarator [pattern, value])

/-- Whether a declarator binds what its kind may bind: a resource has a plain name. -/
def mayBind (kind : VariableKind) : Tree → Bool
  | .node .declarator [pattern, _] =>
    !(kind = .resource || kind = .awaitedResource) || bindsName pattern
  | _ => true

/-- Declarators after the word that says how they are declared. -/
def variableList (self : Grammar) (mode : Mode) (kind : VariableKind) : Reader Tree := do
  let declarators ← commas (declarator self mode)
  ensure (declarators.all (mayBind kind))
  pure (.node (.variableList kind) declarators)

/-- Takes `let` if something to bind follows. -/
def lexicalWord : Reader VariableKind := do
  word "let"
  ensure ((← isPlainNameNext) || (← isNext '[') || (← isNext '\x7b'))
  pure .lexical

/-- Takes the words that bind a resource, if a name follows on the same line. -/
def resourceWord (mode : Mode) : Reader VariableKind := do
  let awaited ← takeWordIf mode.awaits "await"
  ensure (!awaited || !(← onNewLine))
  word "using"
  let next ← nextName
  ensure (!(← onNewLine) && (← isPlainNameNext) && next ≠ some "of")
  pure (if awaited then .awaitedResource else .resource)

/-- Takes a word that declares variables, if one is next and something to bind follows. -/
def variableWord? (mode : Mode) : Reader (Option VariableKind) := do
  if ← takeWord? "var" then pure (some .var)
  else if ← takeWord? "const" then pure (some .constant)
  else attempt (lexicalWord <|> resourceWord mode)

/-- Whether all declarators have the values they need. -/
def haveValues (kind : VariableKind) : Tree → Bool
  | .node _ declarators => declarators.all (mayOmitValue kind)
  | _ => true

/-- A variable declaration after its word. -/
def variableStatement (self : Grammar) (mode : Mode) (kind : VariableKind) : Reader Tree := do
  let tree ← variableList self mode kind
  ensure (mode.ambient || haveValues kind tree)
  statementEnd
  pure tree

/-! ## Types -/

/-- A type alias. -/
def typeAlias (self : Grammar) (mode : Mode) : Reader Tree := do
  word "type"
  ensure (!(← onNewLine))
  let name ← plainName
  let types ← if ← isNext '<' then typeParameters self mode else pure (.verse "")
  mark '='
  let type ← self mode .typeExpression
  statementEnd
  pure (.node (.mixed ["type " ++ name, " = ", ";"]) [types, type])

/-- An interface. -/
def interfaceOf (self : Grammar) (mode : Mode) : Reader Tree := do
  word "interface"
  let name ← plainName
  let types ← if ← isNext '<' then typeParameters self mode else pure (.verse "")
  let parents ← if ← takeWord? "extends" then
      (do let parents ← commas (typeReference self mode)
          pure (.listing " extends " ", " "" parents))
    else pure (.verse "")
  mark '\x7b'
  let members ← items '\x7d' (typeMember self mode)
  pure (.node (.mixed ["interface " ++ name, "", " ", ""])
    [types, parents, .node (.fenced ";") members])

/-- A member of an enumeration. -/
def enumMember (self : Grammar) (mode : Mode) : Reader Tree := do
  let (key, computed) ← propertyKey self mode
  ensure (!computed)
  if ← takeEquals? then
    let value ← self mode.inside .assignment
    pure (.node (.mixed ["", " = ", ""]) [key, value])
  else pure key

/-- An enumeration. -/
def enumOf (self : Grammar) (mode : Mode) : Reader Tree := do
  let constant ← takeWord? "const"
  word "enum"
  let name ← plainName
  mark '\x7b'
  let members ← list '\x7d' (enumMember self mode)
  let lead := (if constant then "const enum " else "enum ") ++ name
  pure (.node (.mixed [lead ++ " ", ""]) [.node (.fenced ",") members])

/-- A declaration of a type. -/
def typeDeclaration (self : Grammar) (mode : Mode) : Reader Tree := do
  ensure mode.typescript
  typeAlias self mode <|> interfaceOf self mode <|> enumOf self mode

/-! ## Declarations -/

/-- A function declaration, with `async` before it or not. -/
def functionDeclaration (self : Grammar) (mode : Mode) (named : Bool) : Reader Tree := do
  if ← takeWord? "async" then
    ensure (!(← onNewLine))
    functionOf self mode .declaration true named
  else functionOf self mode .declaration false named

/-- A class declaration. -/
def classDeclaration (self : Grammar) (mode : Mode) (named : Bool) : Reader Tree := do
  if ← takeWordIf mode.typescript "abstract" then
    ensure (!(← onNewLine))
    classFrom self mode true named ["abstract"]
  else classFrom self mode true named []

/-- A name as a heading, dotted or quoted. -/
def headingName : Reader Tree := do
  if ← isQuoteNext then quoted
  else
    let name ← fun cs => dottedFrom (cs.length + 1) cs
    pure (.verse name)

/-- The items of a namespace in braces. -/
def namespaceItems (self : Grammar) (mode : Mode) : Reader (List Tree) := do
  mark '\x7b'
  fun cs => statementsFrom (take? '\x7d') (self mode .item) true (cs.length + 1) cs

/-- A namespace. One that another module declares may be without items. -/
def namespaceOf (self : Grammar) (mode : Mode) : Reader Tree := do
  ensure mode.typescript
  let lead ← anyName
  ensure (lead = "namespace" || lead = "module")
  ensure (!(← onNewLine))
  let name ← headingName
  if mode.ambient && !(← isNext '\x7b') then
    statementEnd
    pure (.listing (lead ++ " ") "" ";" [name])
  else
    let statements ← namespaceItems self mode
    pure (.node (.namespaceBlock lead) (name :: statements))

/-- The declarations that every module sees. -/
def globalBlock (self : Grammar) (mode : Mode) : Reader Tree := do
  ensure mode.ambient
  word "global"
  let statements ← namespaceItems self mode
  pure (.node (.namespaceBlock "global") (.absent :: statements))

/-- A declaration that an export may hold. -/
def declaration (self : Grammar) (mode : Mode) : Reader Tree :=
  typeDeclaration self mode <|> functionDeclaration self mode true
    <|> classDeclaration self mode true <|> namespaceOf self mode <|> globalBlock self mode <|> (do
      match ← variableWord? mode with
      | some kind => variableStatement self mode kind
      | none => failure)

/-- A declaration without a value. -/
def ambientDeclaration (self : Grammar) (mode : Mode) : Reader Tree := do
  ensure mode.typescript
  word "declare"
  ensure (!(← onNewLine))
  let inner ← declaration self { mode with ambient := true }
  pure (.node .ambient [inner])

end JsxLowering.Source
