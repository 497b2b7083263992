import JsxLowering.Number.Shortest

/-!
# Numbers as text

Three layouts of the shortest decimal: the positional one of markup text, the compact one of
printed code, and the one that error messages quote. Of two equally near decimals markup takes the
greater, the others the even one.
-/

namespace JsxLowering

namespace Decimal

/-- The digits of a decimal. -/
def figures (d : Decimal) : List Char := Nat.toDigits 10 d.digits

/-- Number of digits before the point. -/
def point (d : Decimal) : Int := Int.ofNat d.figures.length + d.exponent

/-- All digits, with a point where one is needed and no exponent. -/
def positional (d : Decimal) : String :=
  let figures := d.figures
  String.ofList <|
    if 0 ≤ d.exponent then figures ++ List.replicate d.exponent.toNat '0'
    else if 0 < d.point then
      figures.take d.point.toNat ++ '.' :: figures.drop d.point.toNat
    else '0' :: '.' :: List.replicate (-d.point).toNat '0' ++ figures

/-- One digit before the point, and an exponent with `plus` before it if it is not negative. -/
def scientific (d : Decimal) (plus : String) : String :=
  let exponent := (if 0 < d.point then "e" ++ plus else "e") ++ toString (d.point - 1)
  match d.figures with
  | [c] => String.ofList [c] ++ exponent
  | c :: cs => String.ofList (c :: '.' :: cs) ++ exponent
  | [] => exponent

end Decimal

namespace Number

/-- A text with the sign of a number before it. -/
def signed (n : Number) (text : String) : String :=
  if n.isNegative then "-" ++ text else text

/-- Text of a number in markup. Integral values below `10 ^ 21` are written exactly, all others by
their shortest decimal, never with an exponent. -/
def text (n : Number) : String :=
  match n with
  | .nan => "NaN"
  | .infinite _ => n.signed "inf"
  | .finite _ m e =>
    if m = 0 then "0"
    else match n.integral? with
      | some k =>
        n.signed (if k < Nat.pow 10 21 then toString k else (shortest .upward m e).positional)
      | none => n.signed (shortest .upward m e).positional

/-- The shorter of two spellings, the first of two that are equally long. -/
private def shorter (a b : List Char) : List Char := if b.length < a.length then b else a

/-- The plain spelling of a decimal in printed code: positional from `10 ^ -6` up to `10 ^ 21`, and
without a zero before the point. -/
def plainCode (d : Decimal) : List Char :=
  if -6 < d.point && d.point ≤ 21 then
    match d.positional.toList with
    | '0' :: '.' :: cs => '.' :: cs
    | cs => cs
  else (d.scientific "").toList

/-- The zeros at the end of a spelling written as a power of ten. -/
def zerosAsPower (cs : List Char) : List Char :=
  let zeros := (cs.reverse.takeWhile (· = '0')).length
  cs.take (cs.length - zeros) ++ 'e' :: Nat.toDigits 10 zeros

/-- A fraction below a tenth, as its digits and a power of ten. -/
def fractionAsPower (cs : List Char) : List Char :=
  cs.tail.dropWhile (· = '0') ++ 'e' :: '-' :: Nat.toDigits 10 (cs.length - 1)

/-- A spelling with both a point and an exponent, or all its digits and a power of ten if that is
shorter. -/
def withoutPoint (d : Decimal) (cs : List Char) : List Char :=
  if cs.contains '.' && cs.contains 'e' then
    shorter cs (d.figures ++ 'e' :: (toString d.exponent).toList)
  else cs

/-- An integral magnitude in printed code: below a thousand its digits, else its plain spelling,
unless hexadecimal digits are shorter than that, or a power of ten shortens it. -/
def wholeCode (k : Nat) (d : Decimal) : List Char :=
  if k < 1000 then Nat.toDigits 10 k
  else
    let plain := plainCode d
    let hexadecimal := '0' :: 'x' :: Nat.toDigits 16 k
    if hexadecimal.length < plain.length then hexadecimal
    else withoutPoint d (shorter plain (zerosAsPower plain))

/-- A magnitude with a fraction in printed code: its plain spelling, unless a power of ten shortens
it. -/
def fractionCode (d : Decimal) : List Char :=
  match plainCode d with
  | '.' :: '0' :: cs => shorter ('.' :: '0' :: cs) (fractionAsPower ('.' :: '0' :: cs))
  | plain => withoutPoint d plain

/-- Text of a number in printed code, without its sign. -/
def magnitudeCode (n : Number) : String :=
  match n with
  | .nan => "NaN"
  | .infinite _ => "Infinity"
  | .finite _ m e =>
    if m = 0 then "0"
    else match n.integral? with
      | some k => String.ofList (wholeCode k (shortest .toEven m e))
      | none => String.ofList (fractionCode (shortest .toEven m e))

/-- Text of a number in an error message: positional from `10 ^ -5` up to `10 ^ 16`, and always
with a point or an exponent. -/
def quoted (n : Number) : String :=
  match n with
  | .nan => "NaN"
  | .infinite _ => n.signed "inf"
  | .finite negative m e =>
    if m = 0 then (if negative then "-0.0" else "0.0")
    else
      let d := shortest .toEven m e
      n.signed <|
        if 0 ≤ d.exponent && d.point ≤ 16 then d.positional ++ ".0"
        else if -5 < d.point && d.point ≤ 16 then d.positional
        else d.scientific "+"

end Number

end JsxLowering
