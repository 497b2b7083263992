import JsxLowering.Diagnostic
import JsxLowering.Json.Scan
import JsxLowering.Options.Basic

/-!
# Options from a JSON text

Options are the members of an object, or the elements of a list in the order of the fields. What is
not given has its default. Unknown members are skipped; a known one must not come twice.
-/

namespace JsxLowering

namespace Options

open Json

/-- The fields of the options. -/
inductive Field
  | captureScope
  | builtins
  | throwOnMissing
  | memberPlaceholders
  | typescript
deriving DecidableEq, Repr

namespace Field

def name : Field → String
  | .captureScope => "captureScope"
  | .builtins => "builtins"
  | .throwOnMissing => "throwOnMissing"
  | .memberPlaceholders => "memberPlaceholders"
  | .typescript => "typescript"

/-- The fields in order. -/
def all : List Field :=
  [.captureScope, .builtins, .throwOnMissing, .memberPlaceholders, .typescript]

/-- The field with a name. -/
def ofName? (name : String) : Option Field := all.find? fun field => field.name = name

end Field

/-! ## Values -/

/-- Takes the beginning of a value of the wrong kind and says so. -/
def wrongType {α : Type} (wanted : String) : Scan α := do
  match ← peek with
  | some 'n' => do
    letters ['n', 'u', 'l', 'l']
    failHere (.wrongType .null wanted)
  | some 't' => do
    letters ['t', 'r', 'u', 'e']
    failHere (.wrongType (.boolean true) wanted)
  | some 'f' => do
    letters ['f', 'a', 'l', 's', 'e']
    failHere (.wrongType (.boolean false) wanted)
  | some '-' => do
    eat
    let found ← number true
    failHere (.wrongType found wanted)
  | some '"' => do
    eat
    let value ← string
    failHere (.wrongType (.string value) wanted)
  | some '[' => failHere (.wrongType .sequence wanted)
  | some '\x7b' => failHere (.wrongType .map wanted)
  | some c =>
    if c.isDigit then do
      let found ← number false
      failHere (.wrongType found wanted)
    else failNext .expectedValue
  | none => failNext .expectedValue

/-- Takes a boolean. -/
def boolean : Scan Bool := do
  match ← next with
  | none => failNext .endInValue
  | some 't' => do
    letters ['t', 'r', 'u', 'e']
    pure true
  | some 'f' => do
    letters ['f', 'a', 'l', 's', 'e']
    pure false
  | some _ => wrongType "a boolean"

/-- Takes a string. -/
def text : Scan String := do
  match ← next with
  | none => failNext .endInValue
  | some '"' => do
    eat
    string
  | some _ => wrongType "a string"

/-- Whether a list has another element; `started` says that it is not the first. -/
def hasElement (started : Bool) : Scan Bool := do
  match ← next with
  | none => failNext .endInList
  | some ']' => pure false
  | some c =>
    if !started then pure true
    else if c = ',' then do
      eat
      match ← next with
      | some ']' => failNext .trailingComma
      | some _ => pure true
      | none => failNext .endInValue
    else failNext .expectedCommaOrBracket

/-- Takes the end of a list. -/
def listEnd : Scan Unit := do
  match ← next with
  | none => failNext .endInList
  | some ']' => eat
  | some ',' => do
    eat
    match ← next with
    | some ']' => failNext .trailingComma
    | _ => failNext .trailingCharacters
  | some _ => failNext .trailingCharacters

/-- Takes the strings of a list up to its end. -/
def textsFrom : Nat → Bool → Scan (List String)
  | 0, _ => failNext .endInList
  | fuel + 1, started => do
    if ← hasElement started then
      let first ← text
      let rest ← textsFrom fuel true
      pure (first :: rest)
    else pure []

/-- Takes a list of strings. -/
def texts : Scan (List String) := do
  match ← next with
  | none => failNext .endInValue
  | some '[' => do
    eat
    let values ← fun cs => textsFrom (cs.length + 1) false cs
    listEnd
    pure values
  | some _ => wrongType "a sequence"

/-- Takes a list of strings, or `null` for none. -/
def texts? : Scan (Option (List String)) := do
  match ← next with
  | some 'n' => do
    letters ['n', 'u', 'l', 'l']
    pure none
  | _ => do
    let values ← texts
    pure (some values)

/-! ## Options -/

/-- Takes the value of a field. -/
def Field.read (field : Field) (o : Options) : Scan Options :=
  match field with
  | .captureScope => do
    let value ← boolean
    pure { o with captureScope := value }
  | .builtins => do
    let value ← texts?
    pure { o with builtins := value }
  | .throwOnMissing => do
    let value ← boolean
    pure { o with throwOnMissing := value }
  | .memberPlaceholders => do
    let value ← boolean
    pure { o with memberPlaceholders := value }
  | .typescript => do
    let value ← boolean
    pure { o with typescript := value }

/-- Takes the elements of a list as the values of fields. -/
def elementsFrom (started : Bool) : List Field → Options → Scan Options
  | [], o => pure o
  | field :: fields, o => do
    if ← hasElement started then
      let o ← field.read o
      elementsFrom true fields o
    else pure o

/-- Whether an object has another member; `started` says that it is not the first. -/
def hasMember (started : Bool) : Scan Bool := do
  match ← next with
  | none => failNext .endInObject
  | some '\x7d' => pure false
  | some c =>
    if !started then
      if c = '"' then pure true else failNext .keyNotString
    else if c = ',' then do
      eat
      match ← next with
      | some '"' => pure true
      | some '\x7d' => failNext .trailingComma
      | some _ => failNext .keyNotString
      | none => failNext .endInValue
    else failNext .expectedCommaOrBrace

/-- Takes the colon of a member. -/
def colon : Scan Unit := do
  match ← next with
  | some ':' => eat
  | some _ => failNext .expectedColon
  | none => failNext .endInObject

/-- A field given twice. It is placed after the blanks, and the closing brace if it is next. -/
def duplicate {α : Type} (field : Field) : Scan α := do
  match ← next with
  | some '\x7d' => do
    eat
    failHere (.duplicateField field.name)
  | _ => failHere (.duplicateField field.name)

/-- Takes the members of an object. `seen` holds the fields given so far. -/
def membersFrom : Nat → List Field → Bool → Options → Scan Options
  | 0, _, _, _ => failNext .endInObject
  | fuel + 1, seen, started, o => do
    if ← hasMember started then
      eat
      let key ← string
      match Field.ofName? key with
      | some field =>
        if seen.contains field then duplicate field
        else do
          colon
          let o ← field.read o
          membersFrom fuel (field :: seen) true o
      | none => do
        colon
        ignored
        membersFrom fuel seen true o
    else pure o

/-- Takes options. -/
def read : Scan Options := do
  match ← next with
  | none => failNext .endInValue
  | some '[' => do
    eat
    let o ← elementsFrom false Field.all {}
    listEnd
    pure o
  | some '\x7b' => do
    eat
    let o ← fun cs => membersFrom (cs.length + 1) [] false {} cs
    eat
    pure o
  | some _ => wrongType "struct CompileOptions"

/-- Takes options that fill a whole text. -/
def readAll : Scan Options := do
  let o ← read
  match ← next with
  | some _ => failNext .trailingCharacters
  | none => pure o

/-- The options that a text spells. -/
def ofChars (text : List Char) : Except Mishap Options :=
  match readAll text with
  | .ok (o, _) => .ok o
  | .error mishap => .error mishap

/-- The name that reports on options are filed under. -/
def fileName : String := "<options>"

/-- The options that a JSON text spells, or a report on what is wrong with it. -/
def ofJson (json : String) : Except Diagnostic Options :=
  let text := json.toList
  match ofChars text with
  | .ok o => .ok o
  | .error mishap =>
    .error (.ofFault (.badOptions (mishap.message text)) fileName (mishap.place text))

end Options

end JsxLowering
