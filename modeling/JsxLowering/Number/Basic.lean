/-!
# Numbers

The value of a numeric literal is an IEEE double, held exactly: its significand and its power of
two. Decimals are rounded to the nearest double, a tie to the even significand.
-/

namespace JsxLowering

/-- A double: not a number, an infinity, or `± significand · 2 ^ exponent`. -/
inductive Number
  | nan
  | infinite (negative : Bool)
  | finite (negative : Bool) (significand : Nat) (exponent : Int)
deriving DecidableEq, Repr

namespace Number

/-- Least exponent of a finite double. -/
def minExponent : Int := -1074

/-- Greatest exponent of a finite double. -/
def maxExponent : Int := 971

/-- `num / den`, with `2 ^ e` moved into the numerator or the denominator. -/
def unscale (num den : Nat) (e : Int) : Nat × Nat :=
  if e < 0 then (num * Nat.pow 2 (-e).toNat, den) else (num, den * Nat.pow 2 e.toNat)

/-- `num / den` to the nearest integer, a half to the even one. -/
def roundDiv (num den : Nat) : Nat :=
  let q := num / den
  let twice := 2 * (num % den)
  if twice < den then q else if den < twice then q + 1 else q + q % 2

/-- The double nearest to `num / den`, for a positive `den`. -/
def ofRatio (negative : Bool) (num den : Nat) : Number :=
  if num = 0 then .finite negative 0 0
  else
    let guess : Int := Int.ofNat num.log2 - Int.ofNat den.log2 - 52
    let (n, d) := unscale num den guess
    let e := max minExponent (if n / d < Nat.pow 2 52 then guess - 1 else guess)
    let (n, d) := unscale num den e
    let q := roundDiv n d
    let (q, e) := if q = Nat.pow 2 53 then (Nat.pow 2 52, e + 1) else (q, e)
    if maxExponent < e then .infinite negative
    else if q = 0 then .finite negative 0 0
    else .finite negative q e

/-- The double nearest to `digits · 10 ^ exponent`. Magnitudes far outside the range of doubles are
decided without computing the power. -/
def ofDecimal (negative : Bool) (digits : Nat) (exponent : Int) : Number :=
  let size : Int := Int.ofNat (Nat.toDigits 10 digits).length + exponent
  if digits = 0 || size < -330 then .finite negative 0 0
  else if 310 < size then .infinite negative
  else if exponent < 0 then ofRatio negative digits (Nat.pow 10 (-exponent).toNat)
  else ofRatio negative (digits * Nat.pow 10 exponent.toNat) 1

/-- Whether the value is zero, of either sign. -/
def isZero : Number → Bool
  | .finite _ 0 _ => true
  | _ => false

/-- The magnitude of an integral value. -/
def integral? : Number → Option Nat
  | .finite _ m e =>
    if 0 ≤ e then some (m * Nat.pow 2 e.toNat)
    else if m % Nat.pow 2 (-e).toNat = 0 then some (m / Nat.pow 2 (-e).toNat)
    else none
  | _ => none

/-- Whether a sign is written before the value. -/
def isNegative : Number → Bool
  | .nan => false
  | .infinite negative => negative
  | .finite negative m _ => negative && m ≠ 0

/-- Whether the value carries a sign; a zero may. -/
def hasSign : Number → Bool
  | .nan => false
  | .infinite negative => negative
  | .finite negative _ _ => negative

end Number

end JsxLowering
