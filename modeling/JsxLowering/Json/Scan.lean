import JsxLowering.Json.Problem
import JsxLowering.Number.Parse

/-!
# Scanning JSON

Values are taken off the front of a text. A mishap is placed by what is left of the text.
-/

namespace JsxLowering.Json

/-- Takes a value off the front of a text, or meets a mishap. -/
abbrev Scan := StateT (List Char) (Except Mishap)

/-- A mishap at the front of the text. -/
def failHere {α : Type} (problem : Problem) : Scan α := fun cs =>
  .error ⟨problem, Text.byteSize cs⟩

/-- A mishap after some more bytes of the text, or at its end. -/
def failAfter {α : Type} (bytes : Nat) (problem : Problem) : Scan α := fun cs =>
  .error ⟨problem, Text.byteSize cs - bytes⟩

/-- A mishap at the next character, which counts as read. -/
def failNext {α : Type} (problem : Problem) : Scan α := failAfter 1 problem

def isBlank (c : Char) : Bool := c = ' ' || c = '\n' || c = '\t' || c = '\r'

/-- The next character, which is not taken. -/
def peek : Scan (Option Char) := fun cs => .ok (cs.head?, cs)

/-- Takes one character. -/
def eat : Scan Unit := fun cs => .ok ((), cs.tail)

/-- Skips blanks and gives the character after them, which is not taken. -/
def next : Scan (Option Char) := fun cs =>
  let cs := cs.dropWhile isBlank
  .ok (cs.head?, cs)

/-- Takes the letters of a word. -/
def letters : List Char → Scan Unit
  | [] => pure ()
  | c :: rest => do
    match ← peek with
    | none => failHere .endInValue
    | some d => if c = d then do eat; letters rest else failNext .expectedWord

/-! ## Strings -/

def isHexDigit (c : Char) : Bool :=
  c.isDigit || ('a' ≤ c && c ≤ 'f') || ('A' ≤ c && c ≤ 'F')

/-- Takes four hexadecimal digits. -/
def hexFour : Scan Nat := fun cs =>
  if Text.byteSize cs < 4 then .error ⟨.endInString, 0⟩
  else
    let digits := cs.take 4
    if digits.all isHexDigit then .ok (Number.ofDigits 16 digits, cs.drop 4)
    else .error ⟨.badEscape, Text.byteSize cs - 4⟩

/-- Takes a mark of the second half of a surrogate pair. -/
def pairMark (c : Char) : Scan Unit := do
  match ← peek with
  | none => failHere .endInString
  | some d => if c = d then eat else failNext .endOfHexEscape

/-- Takes a code point after `\u`, which two escapes may spell. -/
def codePoint : Scan Char := do
  let first ← hexFour
  if 0xDC00 ≤ first && first ≤ 0xDFFF then failHere .loneSurrogate
  else if first < 0xD800 || 0xDBFF < first then pure (Char.ofNat first)
  else
    pairMark '\\'
    pairMark 'u'
    let second ← hexFour
    if second < 0xDC00 || 0xDFFF < second then failHere .loneSurrogate
    else pure (Char.ofNat (0x10000 + (first - 0xD800) * 0x400 + (second - 0xDC00)))

/-- What the letter after a backslash stands for, unless digits follow it. -/
def simpleEscape? (c : Char) : Option Char :=
  match c with
  | '"' => some '"'
  | '\\' => some '\\'
  | '/' => some '/'
  | 'b' => some '\x08'
  | 'f' => some '\x0C'
  | 'n' => some '\n'
  | 'r' => some '\r'
  | 't' => some '\t'
  | _ => none

/-- Takes what follows a backslash; `code` takes what follows `\u`. -/
def escapeWith (code : Scan Char) : Scan Char := do
  match ← peek with
  | none => failHere .endInString
  | some 'u' => do
    eat
    code
  | some c =>
    match simpleEscape? c with
    | some value => do
      eat
      pure value
    | none => failNext .badEscape

/-- Takes the rest of a string after its opening quote. `code` takes what follows `\u`, and
`control` says what is wrong with a control character. -/
def stringFrom (code : Scan Char) (control : Scan (List Char)) : Nat → Scan (List Char)
  | 0 => failHere .endInString
  | fuel + 1 => do
    match ← peek with
    | none => failHere .endInString
    | some '"' => do
      eat
      pure []
    | some '\\' => do
      eat
      let c ← escapeWith code
      let rest ← stringFrom code control fuel
      pure (c :: rest)
    | some c =>
      if c.toNat < 0x20 then control
      else do
        eat
        let rest ← stringFrom code control fuel
        pure (c :: rest)

/-- Takes the rest of a string that is kept. -/
def string : Scan String := fun cs =>
  (stringFrom codePoint (failNext .controlCharacter) (cs.length + 1)
    |>.map String.ofList) cs

/-- Takes four hexadecimal digits that need not spell a character. -/
def anyCode : Scan Char := do
  let _ ← hexFour
  pure ' '

/-- Takes the rest of a string that is not kept. -/
def skipString : Scan Unit := fun cs =>
  (stringFrom anyCode (failHere .controlCharacter) (cs.length + 1) |>.map fun _ => ()) cs

/-! ## Numbers -/

/-- Takes a run of digits. -/
def digits : Scan (List Char) := fun cs => .ok (cs.span Char.isDigit)

/-- Takes the digits before a point: a zero alone, or digits that start with none. -/
def wholeDigits (atEnd : Problem) : Scan (List Char) := do
  match ← peek with
  | none => failHere atEnd
  | some '0' => do
    eat
    match ← peek with
    | some d => if d.isDigit then failNext .badNumber else pure ['0']
    | none => pure ['0']
  | some c => if c.isDigit then digits else failNext .badNumber

/-- Takes a sign if there is one, and gives whether it is a minus. -/
def sign : Scan Bool := do
  match ← peek with
  | some '+' => do
    eat
    pure false
  | some '-' => do
    eat
    pure true
  | _ => pure false

/-- Takes a point and the digits after it, of which there is at least one. -/
def fraction (atEnd : Problem) : Scan (List Char) := do
  match ← peek with
  | some '.' => do
    eat
    match ← digits with
    | [] => do
      match ← peek with
      | none => failHere atEnd
      | some _ => failNext .badNumber
    | run => pure run
  | _ => pure []

/-- Takes a power of ten: its sign and its digits, of which there is at least one. -/
def power? (atEnd : Problem) : Scan (Option (Bool × List Char)) := do
  let mark ← peek
  if mark = some 'e' || mark = some 'E' then
    eat
    let negative ← sign
    match ← digits with
    | [] => do
      match ← peek with
      | none => failHere atEnd
      | some _ => failNext .badNumber
    | run => pure (some (negative, run))
  else pure none

/-- Skips a number after its sign. -/
def skipNumber : Scan Unit := do
  let _ ← wholeDigits .badNumber
  let _ ← fraction .badNumber
  let _ ← power? .badNumber
  pure ()

/-- The leading digits whose value fits 64 bits, and the number of those after them. -/
def fitting (value : Nat) : List Char → Nat × Nat
  | [] => (value, 0)
  | c :: cs =>
    let more := value * 10 + Number.digitValue c
    if more < Nat.pow 2 64 then fitting more cs else (value, cs.length + 1)

/-- Significand and power of ten of the digits before and after a point. Digits that do not fit 64
bits are dropped. -/
def significand (whole fraction : List Char) : Nat × Int :=
  match fitting 0 whole with
  | (value, 0) =>
    let (value, dropped) := fitting value fraction
    (value, -Int.ofNat (fraction.length - dropped))
  | (value, dropped) =>
    let (value, left) := fitting value fraction
    (value, Int.ofNat dropped - Int.ofNat (fraction.length - left))

/-- The product or the quotient of a double and a power of ten that is a double, rounded. -/
def scaleOnce (value : Number) (exponent : Int) : Number :=
  match value, Number.ofDecimal false 1 (Int.ofNat exponent.natAbs) with
  | .finite negative m e, .finite _ p q =>
    let shift (n : Nat) (k : Int) : Nat × Nat :=
      if k < 0 then (n, Nat.pow 2 (-k).toNat) else (n * Nat.pow 2 k.toNat, 1)
    if 0 ≤ exponent then
      let (num, den) := shift (m * p) (e + q)
      Number.ofRatio negative num den
    else
      let (num, den) := shift m (e - q)
      Number.ofRatio negative num (den * p)
  | _, _ => value

/-- `significand · 10 ^ exponent`, rounded at each step; nothing if it is too large. -/
def scaled? : Nat → Number → Int → Option Number
  | 0, value, _ => some value
  | steps + 1, value, exponent =>
    if exponent.natAbs ≤ 308 then
      match scaleOnce value exponent with
      | .infinite _ => none
      | result => some result
    else if value.isZero then some value
    else if 0 ≤ exponent then none
    else scaled? steps (scaleOnce value (-308)) (exponent + 308)

/-- The sign of a number put before its magnitude. -/
def withSign (negative : Bool) : Number → Number
  | .finite _ m e => .finite negative m e
  | .infinite _ => .infinite negative
  | .nan => .nan

/-- The value of a number with a point or a power of ten. -/
def floatOf (negative : Bool) (significand : Nat) (exponent : Int) : Scan Found := do
  match scaled? 64 (.ofRatio false significand 1) exponent with
  | some value => pure (.float (withSign negative value))
  | none => failHere .numberOutOfRange

/-- The number of digits after the first at which the value of a run passes 31 bits. -/
def surplus (value : Nat) : List Char → Nat
  | [] => 0
  | c :: cs =>
    let more := value * 10 + Number.digitValue c
    if more < Nat.pow 2 31 then surplus more cs else cs.length

/-- The value of a number with a power of ten. A power beyond 31 bits is decided by its sign, as
soon as it is seen to be so. -/
def poweredOf (negative : Bool) (significand : Nat) (exponent : Int) (power : Bool × List Char) :
    Scan Found := do
  let size := Number.ofDigits 10 power.2
  if size < Nat.pow 2 31 then
    floatOf negative significand
      (if power.1 then exponent - Int.ofNat size else exponent + Int.ofNat size)
  else if significand ≠ 0 && !power.1 then
    fun cs => .error ⟨.numberOutOfRange, Text.byteSize cs + surplus 0 power.2⟩
  else pure (.float (.finite negative 0 0))

/-- The value of an integer. One that does not fit 64 bits, and minus zero, is no integer. -/
def integerOf (negative : Bool) (whole : List Char) : Scan Found := do
  let value := Number.ofDigits 10 whole
  if value < Nat.pow 2 64 && !negative then pure (.integer (Int.ofNat value))
  else if 0 < value && value ≤ Nat.pow 2 63 then pure (.integer (-Int.ofNat value))
  else
    let (significand, exponent) := significand whole []
    floatOf negative significand exponent

/-- Takes a number after its sign. -/
def number (negative : Bool) : Scan Found := do
  let whole ← wholeDigits .endInValue
  let mark ← peek
  let fraction ← fraction .endInValue
  match ← power? .endInValue with
  | some power => do
    let (significand, exponent) := significand whole fraction
    poweredOf negative significand exponent power
  | none =>
    if mark = some '.' then do
      let (significand, exponent) := significand whole fraction
      floatOf negative significand exponent
    else integerOf negative whole

/-! ## Values that are not kept -/

/-- What encloses a run of items: the brackets of a list or the braces of an object. -/
inductive Enclosure
  | list
  | object
deriving DecidableEq, Repr

namespace Enclosure

/-- The mark that ends the run. -/
def close : Enclosure → Char
  | .list => ']'
  | .object => '\x7d'

/-- What is wrong with a text that ends within the run. -/
def atEnd : Enclosure → Problem
  | .list => .endInList
  | .object => .endInObject

/-- What is wrong with an item that comes right after another. -/
def noComma : Enclosure → Problem
  | .list => .expectedCommaOrBracket
  | .object => .expectedCommaOrBrace

/-- The scan of an item, given those of an element and a member. -/
def item (kind : Enclosure) (element member : Scan Unit) : Scan Unit :=
  match kind with
  | .list => element
  | .object => member

end Enclosure

mutual

/-- Skips a value. -/
def skipValue : Nat → Scan Unit
  | 0 => failNext .endInValue
  | fuel + 1 => do
    match ← next with
    | none => failNext .endInValue
    | some 'n' => letters ['n', 'u', 'l', 'l']
    | some 't' => letters ['t', 'r', 'u', 'e']
    | some 'f' => letters ['f', 'a', 'l', 's', 'e']
    | some '-' => do
      eat
      skipNumber
    | some '"' => do
      eat
      skipString
    | some '[' => do
      eat
      skipItems fuel .list false
    | some '\x7b' => do
      eat
      skipItems fuel .object false
    | some c => if c.isDigit then skipNumber else failNext .expectedValue

/-- Skips the rest of a list or an object; `started` says that an item was skipped. -/
def skipItems : Nat → Enclosure → Bool → Scan Unit
  | 0, kind, _ => failNext kind.atEnd
  | fuel + 1, kind, started => do
    match ← next with
    | none => failNext kind.atEnd
    | some c =>
      if c = kind.close then eat
      else if !started then do
        kind.item (skipValue fuel) (skipMember fuel)
        skipItems fuel kind true
      else if c = ',' then do
        eat
        kind.item (skipValue fuel) (skipMember fuel)
        skipItems fuel kind true
      else failNext kind.noComma

/-- Skips a key and its value. -/
def skipMember : Nat → Scan Unit
  | 0 => failNext .endInObject
  | fuel + 1 => do
    match ← next with
    | none => failNext .endInObject
    | some '"' => do
      eat
      skipString
      match ← next with
      | none => failNext .endInObject
      | some ':' => do
        eat
        skipValue fuel
      | some _ => failNext .expectedColon
    | some _ => failNext .keyNotString

end

/-- Skips a value. Each level of nesting takes a character. -/
def ignored : Scan Unit := fun cs => skipValue (4 * (cs.length + 1)) cs

end JsxLowering.Json
