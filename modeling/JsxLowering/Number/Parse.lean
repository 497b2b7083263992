import JsxLowering.Number.Basic

/-!
# Reading decimals

A decimal is a run of digits with an optional point and an optional power of ten.
-/

namespace JsxLowering.Number

/-- Value of a digit in bases up to sixteen. -/
def digitValue (c : Char) : Nat :=
  if c.isDigit then c.toNat - '0'.toNat
  else if 'a' ≤ c && c ≤ 'f' then c.toNat - 'a'.toNat + 10
  else if 'A' ≤ c && c ≤ 'F' then c.toNat - 'A'.toNat + 10
  else 0

/-- Value of a run of digits. -/
def ofDigits (base : Nat) (digits : List Char) : Nat :=
  digits.foldl (fun n c => n * base + digitValue c) 0

/-- Splits off the leading digits. -/
def spanDigits (cs : List Char) : List Char × List Char := cs.span Char.isDigit

/-- A power of ten, `e` and a signed run of digits, or nothing. -/
def exponent? : List Char → Option Int
  | [] => some 0
  | c :: cs =>
    if c = 'e' || c = 'E' then
      let (sign, digits) : Int × List Char := match cs with
        | '-' :: ds => (-1, ds)
        | '+' :: ds => (1, ds)
        | ds => (1, ds)
      if digits.isEmpty || !digits.all Char.isDigit then none
      else some (sign * Int.ofNat (ofDigits 10 digits))
    else none

/-- The double nearest to an unsigned decimal such as `1`, `.5`, `2.` or `1e21`. -/
def ofUnsigned? (negative : Bool) (cs : List Char) : Option Number :=
  let (whole, rest) := spanDigits cs
  let (fraction, rest) := match rest with
    | '.' :: ds => spanDigits ds
    | ds => ([], ds)
  if whole.isEmpty && fraction.isEmpty then none
  else (exponent? rest).map fun e =>
    ofDecimal negative (ofDigits 10 (whole ++ fraction)) (e - Int.ofNat fraction.length)

/-- A double from its text: a signed decimal, `inf` or `NaN`. -/
def parse? (text : String) : Option Number :=
  let (negative, cs) := match text.toList with
    | '-' :: cs => (true, cs)
    | '+' :: cs => (false, cs)
    | cs => (false, cs)
  if cs = "inf".toList then some (.infinite negative)
  else if cs = "NaN".toList then some .nan
  else ofUnsigned? negative cs

end JsxLowering.Number
