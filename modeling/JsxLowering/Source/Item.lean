import JsxLowering.Source.Statement

/-!
# Imports and exports

What stands only at the top of a module.
-/

namespace JsxLowering.Source

/-- A name in an import or export list, which may be reserved or quoted. -/
def listedName : Reader Tree := do
  if ← isQuoteNext then quoted
  else
    let name ← anyName
    pure (.identifier name)

/-- A key and its value among what an import asks of its source. -/
def demand : Reader Tree := do
  let key ← listedName
  mark ':'
  let value ← quoted
  pure (.node (.mixed ["", ": ", ""]) [key, value])

/-- Takes the word before what is asked of a source. -/
def demandWord : Reader String := do
  if ← takeWord? "with" then pure "with"
  else
    ensure (!(← onNewLine))
    word "assert"
    pure "assert"

/-- The source of an import or an export, and what is asked of it. -/
def moduleSource : Reader Tree := do
  let source ← quoted
  match ← attempt demandWord with
  | some lead => do
    mark '\x7b'
    let demands ← list '\x7d' demand
    match demands with
    | [] => pure (.node (.mixed ["", " " ++ lead ++ " \x7b\x7d"]) [source])
    | _ :: more =>
      let pieces := ["", " " ++ lead ++ " \x7b "] ++ more.map (fun _ => ", ") ++ [" \x7d"]
      pure (.node (.mixed pieces) (source :: demands))
  | none => pure source

/-- The source of an import or an export, after the word `from`. -/
def fromClause : Reader Tree := do
  word "from"
  moduleSource

/-- The word `type` before a name in a list. -/
def listedType (mode : Mode) : Reader Bool := do
  if mode.typescript then
    let found ← attempt (do
      word "type"
      match ← nextName with
      | some name => ensure (name ≠ "as")
      | none => failure)
    pure found.isSome
  else pure false

/-- A name in an import list. -/
def importSpecifier (mode : Mode) : Reader Tree := do
  let typeOnly ← listedType mode
  let imported ← listedName
  if ← takeWord? "as" then
    let name ← plainName
    pure (.node (.importName typeOnly) [imported, .identifier name])
  else match imported with
    | .identifier name => do
      ensure (!isReserved name)
      pure (.node (.importName typeOnly) [imported, imported])
    | _ => failure

/-- Names in braces, or `* as` and a name. -/
def importList (mode : Mode) : Reader (List Tree) := do
  if ← take? '*' then
    word "as"
    let name ← plainName
    pure [.node .importAll [.identifier name]]
  else
    mark '\x7b'
    list '\x7d' (importSpecifier mode)

/-- What is imported. -/
def importClause (mode : Mode) : Reader (List Tree) := do
  if ← isPlainNameNext then
    let name ← plainName
    let first := .node .importDefault [.identifier name]
    if ← take? ',' then
      let rest ← importList mode
      pure (first :: rest)
    else pure [first]
  else importList mode

/-- `import` with a clause and a source, after a word such as `type` if there is one. -/
def importFromWith (mode : Mode) (lead : String) : Reader Tree := do
  let clause ← importClause mode
  let source ← fromClause
  statementEnd
  pure (.node (.importFrom false lead) (clause ++ [source]))

/-- `import` in a phase: the source of a module, or a module that is run later. -/
def importPhase (mode : Mode) : Reader Tree := do
  let phase ← anyName
  if phase = "source" then ensure (← isPlainNameNext)
  else ensure (phase = "defer" && (← isNext '*'))
  importFromWith mode phase

/-- `import name = require(…)` or an alias of a dotted name. -/
def importEquals (mode : Mode) : Reader Tree := do
  ensure mode.typescript
  let name ← plainName
  mark '='
  let tree ← (do
      word "require"
      mark '('
      let source ← quoted
      mark ')'
      pure (.node (.mixed [name ++ " = require(", ");"]) [source])) <|> (do
      let target ← fun cs => dottedFrom (cs.length + 1) cs
      pure (.verse (name ++ " = " ++ target ++ ";")))
  statementEnd
  pure tree

/-- An alias of another module for types only. -/
def typeImportEquals (mode : Mode) : Reader Tree := do
  word "type"
  let tree ← importEquals mode
  pure (.listing "import type " "" "" [tree])

/-- An import. -/
def importItem (mode : Mode) : Reader Tree := do
  word "import"
  if ← isQuoteNext then
    let source ← moduleSource
    statementEnd
    pure (.node (.importFrom true "") [source])
  else
    (do let tree ← importEquals mode; pure (.listing "import " "" "" [tree]))
      <|> typeImportEquals mode <|> (do
      ensure mode.typescript
      word "type"
      importFromWith mode "type") <|> importPhase mode <|> importFromWith mode ""

/-- A name in an export list. -/
def exportSpecifier (mode : Mode) : Reader Tree := do
  let typeOnly ← listedType mode
  let name ← listedName
  if ← takeWord? "as" then
    let exported ← listedName
    pure (.node (.exportName typeOnly) [name, exported])
  else pure (.node (.exportName typeOnly) [name, name])

/-- Words that are reserved in a module. -/
def moduleWords : List String :=
  ["await", "implements", "interface", "let", "package", "private", "protected", "public", "static",
   "yield"]

/-- Whether an item of an export list names something of the module itself. -/
def isExportable : Tree → Bool
  | .node (.exportName _) [.identifier name, _] => !isReserved name && !moduleWords.contains name
  | _ => false

/-- An export list, with a source or without. -/
def exportListFrom (mode : Mode) (typeOnly : Bool) : Reader Tree := do
  mark '\x7b'
  let names ← list '\x7d' (exportSpecifier mode)
  if (← nextName) = some "from" then
    let source ← fromClause
    statementEnd
    pure (.node (.exportList true typeOnly) (names ++ [source]))
  else
    ensure (names.all isExportable)
    statementEnd
    pure (.node (.exportList false typeOnly) names)

/-- `export *`. -/
def exportAllFrom (typeOnly : Bool) : Reader Tree := do
  mark '*'
  let name ← if ← takeWord? "as" then listedName else pure .absent
  let source ← fromClause
  statementEnd
  pure (.node (.exportAll typeOnly) [name, source])

/-- The default export. -/
def exportDefaultFrom (self : Grammar) (mode : Mode) : Reader Tree := do
  word "default"
  let next ← nextName
  let value ← if next = some "function" then functionDeclaration self mode false
    else if next = some "class" then classDeclaration self mode false
    else if ← isNext '@' then decoratedDeclaration self mode false
    else (do ensure (next = some "async"); functionDeclaration self mode false)
      <|> (do ensure (next = some "abstract"); classDeclaration self mode false)
      <|> (do ensure mode.typescript; interfaceOf self mode)
      <|> (do
        let value ← self mode .assignment
        statementEnd
        pure value)
  pure (.node .exportDefault [value])

/-- `export =` and a value. -/
def exportEquals (self : Grammar) (mode : Mode) : Reader Tree := do
  ensure mode.typescript
  mark '='
  let value ← self mode .expression
  statementEnd
  pure (.node (.mixed ["export = ", ";"]) [value])

/-- `export as namespace` and a name. -/
def exportNamespace (mode : Mode) : Reader Tree := do
  ensure mode.typescript
  word "as"
  word "namespace"
  let name ← plainName
  statementEnd
  pure (.verse ("export as namespace " ++ name ++ ";"))

/-- `export` before an alias of another module. -/
def exportImport (mode : Mode) : Reader Tree := do
  word "import"
  let tree ← importEquals mode
  pure (.listing "export import " "" "" [tree])

/-- Whether a declaration binds resources, which are not exported. -/
def isResourceList : Tree → Bool
  | .node (.variableList kind) _ => kind = .resource || kind = .awaitedResource
  | _ => false

/-- An export. -/
def exportItem (self : Grammar) (mode : Mode) : Reader Tree := do
  word "export"
  if (← nextName) = some "default" then exportDefaultFrom self mode
  else if ← isNext '*' then exportAllFrom false
  else if ← isNext '\x7b' then exportListFrom mode false
  else
    (do
      ensure mode.typescript
      word "type"
      if ← isNext '*' then exportAllFrom true else exportListFrom mode true)
    <|> exportEquals self mode <|> exportNamespace mode <|> exportImport mode <|> (do
      let inner ← ambientDeclaration self mode <|> declaration self mode
        <|> (do ensure (← isNext '@'); decoratedDeclaration self mode true)
      ensure (!isResourceList inner)
      pure (.node .exportItem [inner]))

/-- Decorators that stand before an exported class are its own. -/
def decorateExported (decorators : List Tree) : Tree → Option Tree
  | .node .exportItem [.node (.classForm declaration modifiers) parts] =>
    let item := decorate decorators (.node (.classForm declaration modifiers) parts)
    some (.node .exportItem [item])
  | .node .exportDefault [.node (.classForm declaration modifiers) parts] =>
    let item := decorate decorators (.node (.classForm declaration modifiers) parts)
    some (.node .exportDefault [item])
  | _ => none

/-- An exported class after decorators. -/
def decoratedExport (self : Grammar) (mode : Mode) : Reader Tree := do
  let decorators ← decorators self mode
  let tree ← exportItem self mode
  match decorateExported decorators tree with
  | some tree => pure tree
  | none => failure

/-- An item of a module. An import that goes on like an expression is one. -/
def item (self : Grammar) (mode : Mode) : Reader Tree := do
  match ← nextName with
  | some "import" => importItem mode <|> self mode (.statement false)
  | some "export" => exportItem self mode
  | _ => (do ensure (← isNext '@'); decoratedExport self mode) <|> self mode (.statement false)

end JsxLowering.Source
