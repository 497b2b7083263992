import JsxLowering.Source.Expression

/-!
# Classes

A class with its members: methods, fields and static blocks.
-/

namespace JsxLowering.Source

/-- Words before a member of a class, in the order they are printed in. -/
def memberWords (typescript : Bool) : List String :=
  if typescript then
    ["declare", "public", "private", "protected", "abstract", "static", "override", "readonly",
     "accessor"]
  else ["static", "accessor"]

/-- Takes the words before a member of a class. A word is the member's key itself unless a key
follows it. -/
def memberWordsFrom (mode : Mode) : Nat → Reader (List String)
  | 0 => pure []
  | fuel + 1 => do
    let found ← attempt (do
      let name ← anyName
      ensure ((memberWords mode.typescript).contains name)
      ensure (name = "static" || !(← onNewLine))
      ensure ((← isKeyNext) || (← isNext '*'))
      pure name)
    match found with
    | some name => do
      let rest ← memberWordsFrom mode fuel
      pure (name :: rest)
    | none => pure []

/-- The words before a member of a class. -/
def memberModifiers (mode : Mode) : Reader (List String) := do
  let found ← memberWordsFrom mode 8
  pure ((memberWords mode.typescript).filter found.contains)

/-- The key of a member, which may be private, and whether it is computed. -/
def memberKey (self : Grammar) (mode : Mode) : Reader (Tree × Bool) := do
  if ← take? '#' then
    let name ← anyName
    ensure (name ≠ "constructor")
    pure (.leaf (.verbatim ("#" ++ name)), false)
  else propertyKey self mode

/-- A static block. -/
def staticBlock (self : Grammar) (mode : Mode) : Reader Tree := do
  word "static"
  mark '\x7b'
  let inner := { mode.inFunction true false with returns := false }
  let statements ← items '\x7d' (self inner (.statement false))
  pure (.node .staticBlock statements)

/-- The mark between the key and the type of a field: it may be absent, or it is set elsewhere. -/
def fieldMark (mode : Mode) : Reader String := do
  if mode.typescript then
    if ← take? '?' then pure "?" else if ← take? '!' then pure "!" else pure ""
  else pure ""

/-- A field after its key. -/
def field (self : Grammar) (mode : Mode) (modifiers : List String) (key : Tree) (computed : Bool) :
    Reader Tree := do
  let mark ← fieldMark mode
  let type ← typeAfterColon self mode
  let value ← if ← takeEquals? then self (mode.inFunction false false) .assignment else pure .absent
  statementEnd
  pure (.node (.field modifiers computed mark) [key, type, value])

/-- Takes the mark of a method that may be absent. -/
def optionalMark (mode : Mode) : Reader Bool := do
  let found ← attempt (do
    ensure mode.typescript
    mark '?'
    ensure (← isSignatureNext mode))
  pure found.isSome

/-- The key of a method that may be absent, with its mark. -/
def optionalKey (key : Tree) (computed : Bool) : Tree :=
  if computed then .listing "[" "" "]?" [key] else .listing "" "" "?" [key]

/-- An index signature. -/
def indexSignature (self : Grammar) (mode : Mode) : Reader Tree := do
  ensure mode.typescript
  let modifiers ← memberModifiers mode
  let key ← indexKey self mode
  mark ':'
  let type ← self mode .typeExpression
  statementEnd
  pure (.listing (String.join (modifiers.map (· ++ " "))) ": " ";" [key, type])

/-- The name that a key spells, if it is not computed. -/
def keyName (key : Tree) (computed : Bool) : String :=
  if computed then "" else key.nameText

/-- Whether a method may have a name: the constructor is plain, and `prototype` is not static. -/
def mayNameMethod (modifiers : List String) (name : String) (plain : Bool) : Bool :=
  if modifiers.contains "static" then name ≠ "prototype" else name ≠ "constructor" || plain

/-- Whether a field may have a name. -/
def mayNameField (modifiers : List String) (name : String) : Bool :=
  name ≠ "constructor" && !(modifiers.contains "static" && name = "prototype")

/-- A method or a field. -/
def namedMember (self : Grammar) (mode : Mode) : Reader Tree := do
  let modifiers ← memberModifiers mode
  match ← accessorMark with
  | some kind => do
    let (key, computed) ← memberKey self mode
    ensure (mayNameMethod modifiers (keyName key computed) false)
    let value ← accessorFrom self mode kind
    pure (.node (.method modifiers kind computed) [key, value])
  | none => do
    let (async, generator) ← methodMarks
    let (key, computed) ← memberKey self mode
    let optional ← optionalMark mode
    if async || generator || (← isSignatureNext mode) then
      ensure (mayNameMethod modifiers (keyName key computed) (!async && !generator))
      let value ← functionFrom self mode .method async generator .absent
      if optional then
        pure (.node (.method modifiers .method false) [optionalKey key computed, value])
      else pure (.node (.method modifiers .method computed) [key, value])
    else
      ensure (mayNameField modifiers (keyName key computed))
      field self mode modifiers key computed

/-- A member of a class. A semicolon is no member. -/
def classMember (self : Grammar) (mode : Mode) : Reader Tree := do
  if ← take? ';' then pure .absent
  else if ← isNext '@' then
    let decorators ← decorators self mode
    let member ← namedMember self mode
    pure (decorate decorators member)
  else if mode.typescript then
    staticBlock self mode <|> indexSignature self mode <|> namedMember self mode
  else staticBlock self mode <|> namedMember self mode

/-- A name with type parameters if annotations are read. -/
def genericName (self : Grammar) (mode : Mode) (name : Tree) : Reader Tree := do
  if mode.typescript && (← isNext '<') then
    let types ← typeParameters self mode
    pure (.node .generic [name, types])
  else pure name

/-- What a class extends. -/
def superclass (self : Grammar) (mode : Mode) : Reader Tree := do
  if ← takeWord? "extends" then
    let parent ← leftHand self mode true
    if mode.typescript && (← isNext '<') then
      let types ← typeArguments self mode
      pure (.node .generic [parent, types])
    else pure parent
  else pure .absent

/-- The interfaces a class implements. -/
def interfaces (self : Grammar) (mode : Mode) : Reader Tree := do
  if ← takeWordIf mode.typescript "implements" then
    let types ← commas (typeReference self mode)
    pure (.listing "" ", " "" types)
  else pure .absent

/-- A class from the word `class` on. A declaration has a name unless it is exported as the
default. -/
def classFrom (self : Grammar) (mode : Mode) (declaration named : Bool) (modifiers : List String) :
    Reader Tree := do
  word "class"
  let hasName := (← isPlainNameNext) && (← nextName) ≠ some "implements"
  let name ← if named || hasName then
      (do let name ← valueName mode; genericName self mode name)
    else pure .absent
  let parent ← superclass self mode
  let types ← interfaces self mode
  mark '\x7b'
  let members ← items '\x7d' (classMember self mode)
  pure (.node (.classForm declaration modifiers)
    (name :: parent :: types :: members.filter Tree.isPresent))

end JsxLowering.Source
