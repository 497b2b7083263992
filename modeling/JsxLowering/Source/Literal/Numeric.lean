import JsxLowering.Number.Parse
import JsxLowering.Source.Literal.Quoted
import JsxLowering.Text.Identifier
import JsxLowering.Tree.Basic

/-!
# Numeric literals

Decimal, hexadecimal, octal and binary literals, with underscores between digits. A literal that
ends in `n` is a big integer and is kept in decimal digits.
-/

namespace JsxLowering.Source

/-- Whether underscores stand only between two digits. -/
def wellSeparated : List Char → Bool
  | [] => true
  | ['_'] => false
  | '_' :: '_' :: _ => false
  | _ :: cs => wellSeparated cs

/-- A run of digits of a base, with the text after it. The run has no underscores. -/
def digitRun (isDigit : Char → Bool) (cs : List Char) : Option (List Char × List Char) :=
  let (run, rest) := cs.span fun c => isDigit c || c = '_'
  if run.head? = some '_' || !wellSeparated run then none
  else some (run.filter (· ≠ '_'), rest)

/-- A big integer. -/
def bigLeaf (value : Nat) : Leaf := .verbatim (toString value ++ "n")

/-- A number with a digit of a base added at its end, rounded. -/
def appendDigit (base : Nat) (number : Number) (digit : Char) : Number :=
  match number.integral? with
  | some value => .ofRatio false (value * base + Number.digitValue digit) 1
  | none => number

/-- The value of digits of a base, each of so many bits. Digits that fit into sixty-four bits are
rounded once; longer runs are rounded after each digit. -/
def basedNumber (base bits : Nat) (digits : List Char) : Number :=
  if digits.length * bits ≤ 64 then .ofRatio false (Number.ofDigits base digits) 1
  else digits.foldl (appendDigit base) (.finite false 0 0)

/-- An integer after a base mark such as `0x`; a big one if `n` follows. -/
def basedInteger (base bits : Nat) (isDigit : Char → Bool) (cs : List Char) :
    Option (Leaf × List Char) := do
  let (digits, rest) ← digitRun isDigit cs
  if digits.isEmpty then none
  else match rest with
    | 'n' :: after => some (bigLeaf (Number.ofDigits base digits), after)
    | _ => some (.number (basedNumber base bits digits), rest)

/-- The power of ten of a decimal literal: digits with a sign, and the text after them. -/
def powerOf (cs : List Char) : Option (Int × List Char) :=
  match cs with
  | c :: rest =>
    if c = 'e' || c = 'E' then do
      let (sign, rest) : Int × List Char := match rest with
        | '-' :: more => (-1, more)
        | '+' :: more => (1, more)
        | more => (1, more)
      let (digits, rest) ← digitRun Char.isDigit rest
      if digits.isEmpty then none else some (sign * Int.ofNat (Number.ofDigits 10 digits), rest)
    else some (0, cs)
  | [] => some (0, [])

/-- The digits of a decimal literal before its point. After a leading zero no underscores stand. -/
def wholeRun (cs : List Char) : Option (List Char × List Char) :=
  if cs.head? = some '0' then some (cs.span Char.isDigit) else digitRun Char.isDigit cs

/-- A decimal literal. A leading zero before octal digits only makes it octal. -/
def decimalOf (cs : List Char) : Option (Leaf × List Char) := do
  let (whole, rest) ← wholeRun cs
  if 1 < whole.length && whole.head? = some '0' && whole.all isOctalDigit then
    some (.number (basedNumber 8 3 whole.tail), rest)
  else
    match rest with
    | 'n' :: after =>
      if whole.isEmpty || (1 < whole.length && whole.head? = some '0') then none
      else some (bigLeaf (Number.ofDigits 10 whole), after)
    | _ =>
      let (fraction, rest) ← match rest with
        | '.' :: more => digitRun Char.isDigit more
        | _ => some ([], rest)
      if whole.isEmpty && fraction.isEmpty then none
      else
        let (power, rest) ← powerOf rest
        let value := Number.ofDecimal false (Number.ofDigits 10 (whole ++ fraction))
          (power - Int.ofNat fraction.length)
        some (.number value, rest)

/-- The numeric literal that a text starts with. No name or digit may follow it directly. -/
def numericOf (cs : List Char) : Option (Leaf × List Char) := do
  let (leaf, rest) ← match cs with
    | '0' :: c :: more =>
      if c = 'x' || c = 'X' then basedInteger 16 4 isHexDigit more
      else if c = 'o' || c = 'O' then basedInteger 8 3 isOctalDigit more
      else if c = 'b' || c = 'B' then basedInteger 2 1 (fun d => d = '0' || d = '1') more
      else decimalOf cs
    | _ => decimalOf cs
  match rest with
  | c :: _ => if Text.isNamePart c || c = '\\' then none else some (leaf, rest)
  | [] => some (leaf, rest)

end JsxLowering.Source
