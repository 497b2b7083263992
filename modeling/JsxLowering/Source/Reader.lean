import JsxLowering.Number.Parse
import JsxLowering.Source.Gap
import JsxLowering.Text.Identifier

/-!
# Readers

A reader takes a value off the front of a text, or fails and takes nothing. All readers skip the
gap before what they read.
-/

namespace JsxLowering.Source

/-- Takes a value off the front of a text. -/
abbrev Reader := StateT (List Char) Option

/-- The text after the gap, which is not taken. -/
def ahead : Reader (List Char) := fun cs => some (skip cs, cs)

/-- Whether the next lexeme stands on a new line. -/
def onNewLine : Reader Bool := fun cs => some (breaks cs, cs)

/-- Fails unless the condition holds. -/
def ensure (condition : Bool) : Reader Unit := if condition then pure () else failure

/-- Takes a mark if it is next. -/
def take? (mark : Char) : Reader Bool := fun cs =>
  match skip cs with
  | c :: rest => if c = mark then some (true, rest) else some (false, cs)
  | [] => some (false, cs)

/-- Takes a mark. -/
def mark (c : Char) : Reader Unit := do ensure (← take? c)

/-- The text after a given beginning. -/
def after? : List Char → List Char → Option (List Char)
  | [], cs => some cs
  | c :: beginning, d :: cs => if c = d then after? beginning cs else none
  | _ :: _, [] => none

/-- Takes marks that stand together if they are next. -/
def takeAll? (marks : List Char) : Reader Bool := fun cs =>
  match after? marks (skip cs) with
  | some rest => some (true, rest)
  | none => some (false, cs)

/-- Whether a mark is next. -/
def isNext (mark : Char) : Reader Bool := fun cs => some ((skip cs).head? = some mark, cs)

/-- Whether marks that stand together are next. -/
def areNext (marks : List Char) : Reader Bool := fun cs =>
  some ((after? marks (skip cs)).isSome, cs)

/-- The name that a text starts with. A name that holds an escape is not read here, so that it is
never taken for a word of the language. -/
def nameOf (cs : List Char) : Option (String × List Char) :=
  match cs with
  | [] => none
  | c :: rest =>
    if Text.isNameStart c then
      match rest.span Text.isNamePart with
      | (_, '\\' :: _) => none
      | (more, rest) => some (String.ofList (c :: more), rest)
    else none

/-! ## Escapes in names -/

def isHexDigit (c : Char) : Bool :=
  c.isDigit || ('a' ≤ c && c ≤ 'f') || ('A' ≤ c && c ≤ 'F')

/-- The character with the code that hexadecimal digits spell, if it is one. -/
def charOfHex? (digits : List Char) : Option Char :=
  let code := Number.ofDigits 16 digits
  if digits.isEmpty || !digits.all isHexDigit || 0x10FFFF < code || (0xD800 ≤ code && code ≤ 0xDFFF)
  then none
  else some (Char.ofNat code)

/-- The character that an escape after its `\u` spells, and the text after it. -/
def escapeOf? (cs : List Char) : Option (Char × List Char) :=
  match cs with
  | '\x7b' :: rest =>
    match rest.span (· ≠ '\x7d') with
    | (digits, _ :: rest) => (charOfHex? digits).map (·, rest)
    | (_, []) => none
  | cs =>
    if (cs.take 4).length = 4 then (charOfHex? (cs.take 4)).map (·, cs.drop 4) else none

/-- The characters of a name up to its end, with its escapes read; the first has to pass `first`,
the others have to be parts of names. -/
def escapedFrom (first : Char → Bool) : Nat → List Char → Option (List Char × List Char)
  | 0, _ => none
  | fuel + 1, '\\' :: 'u' :: cs => do
    let (c, rest) ← escapeOf? cs
    if first c then
      let (more, rest) ← escapedFrom Text.isNamePart fuel rest
      some (c :: more, rest)
    else none
  | fuel + 1, c :: cs =>
    if first c then
      (escapedFrom Text.isNamePart fuel cs).map fun (more, rest) => (c :: more, rest)
    else some ([], c :: cs)
  | _ + 1, [] => some ([], [])

/-- The name that a text starts with, with escapes or without. -/
def anyNameOf (cs : List Char) : Option (String × List Char) :=
  match nameOf cs with
  | some found => some found
  | none =>
    match escapedFrom Text.isNameStart (cs.length + 1) cs with
    | some (c :: more, rest) => some (String.ofList (c :: more), rest)
    | _ => none

/-! ## Names and words -/

/-- Takes a name, which may be a reserved word. -/
def anyName : Reader String := fun cs => anyNameOf (skip cs)

/-- Whether the character could begin a name, or an escape in one. -/
def mayStartName (c : Char) : Bool := Text.isNameStart c || c = '\\'

/-- The name that is next, if one without escapes is. -/
def nextName : Reader (Option String) := fun cs => some ((nameOf (skip cs)).map Prod.fst, cs)

/-- Takes a word if it is next. -/
def takeWord? (word : String) : Reader Bool := fun cs =>
  match nameOf (skip cs) with
  | some (name, rest) => if name = word then some (true, rest) else some (false, cs)
  | none => some (false, cs)

/-- Takes a word if it is next and is `allowed` to be. -/
def takeWordIf (allowed : Bool) (word : String) : Reader Bool :=
  if allowed then takeWord? word else pure false

/-- Takes a word. -/
def word (text : String) : Reader Unit := do ensure (← takeWord? text)

/-- The result of a reader, or nothing where it fails. -/
def attempt {α : Type} (reader : Reader α) : Reader (Option α) := fun cs =>
  match reader cs with
  | some (value, rest) => some (some value, rest)
  | none => some (none, cs)

/-- Items up to a closing mark, which is taken. -/
def itemsFrom {α : Type} (close : Char) (item : Reader α) : Nat → Reader (List α)
  | 0 => failure
  | fuel + 1 => do
    if ← take? close then pure []
    else
      let first ← item
      let rest ← itemsFrom close item fuel
      pure (first :: rest)

/-- Items up to a closing mark. Each item takes at least one character. -/
def items {α : Type} (close : Char) (item : Reader α) : Reader (List α) := fun cs =>
  itemsFrom close item (cs.length + 1) cs

/-- Items between commas up to a closing mark; a comma may follow the last. -/
def listFrom {α : Type} (close : Char) (item : Reader α) : Nat → Reader (List α)
  | 0 => failure
  | fuel + 1 => do
    if ← take? close then pure []
    else
      let first ← item
      if ← take? ',' then
        let rest ← listFrom close item fuel
        pure (first :: rest)
      else
        mark close
        pure [first]

/-- Items between commas up to a closing mark. -/
def list {α : Type} (close : Char) (item : Reader α) : Reader (List α) := fun cs =>
  listFrom close item (cs.length + 1) cs

/-- One or more items between commas. -/
def commaFrom {α : Type} (item : Reader α) : Nat → Reader (List α)
  | 0 => failure
  | fuel + 1 => do
    let first ← item
    if ← take? ',' then
      let rest ← commaFrom item fuel
      pure (first :: rest)
    else pure [first]

/-- One or more items between commas. -/
def commas {α : Type} (item : Reader α) : Reader (List α) := fun cs =>
  commaFrom item (cs.length + 1) cs

/-- Takes the end of a statement: a semicolon, or nothing before a closing brace, a new line or the
end of the text. -/
def statementEnd : Reader Unit := do
  if ← take? ';' then pure ()
  else
    let rest ← ahead
    let fresh ← onNewLine
    ensure (fresh || rest.isEmpty || rest.head? = some '\x7d')

end JsxLowering.Source
