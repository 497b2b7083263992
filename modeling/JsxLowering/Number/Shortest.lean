import JsxLowering.Number.Basic

/-!
# Shortest decimals

The decimal with the fewest digits that rounds to a given double, and of those the nearest; the
caller says which of two equally near ones. A decimal grid is tried from coarse to fine; a grid has
a point that rounds to the value iff one of the value's two neighbours on the grid does.
-/

namespace JsxLowering

/-- `digits · 10 ^ exponent`. -/
structure Decimal where
  digits : Nat
  exponent : Int
deriving DecidableEq, Repr

/-- Which of two equally near decimals is taken. -/
inductive Tie
  /-- The greater one. -/
  | upward
  /-- The one whose last digit is even. -/
  | toEven
deriving DecidableEq, Repr

/-- Whether the lower of two neighbours at the given distances is taken. -/
def Tie.takesLower (tie : Tie) (lower belowBy aboveBy : Nat) : Bool :=
  belowBy < aboveBy || (belowBy = aboveBy && tie = .toEven && lower % 2 = 0)

namespace Number

/-- The value and the ends of the interval that rounds to it, over one denominator. -/
structure Rounding where
  value : Nat
  low : Nat
  high : Nat
  denominator : Nat
  /-- Whether the ends round to the value. -/
  closed : Bool

/-- Interval of `m · 2 ^ e`. It is a quarter unit shorter below a power of two. -/
def rounding (m : Nat) (e : Int) : Rounding :=
  let low := if m = Nat.pow 2 52 && minExponent < e then 4 * m - 1 else 4 * m - 2
  let scale := if e < 2 then 1 else Nat.pow 2 (e - 2).toNat
  { value := 4 * m * scale
    low := low * scale
    high := (4 * m + 2) * scale
    denominator := if e < 2 then Nat.pow 2 (2 - e).toNat else 1
    closed := m % 2 = 0 }

/-- The point of the grid of `10 ^ k` that rounds to the value: the nearer of its two
neighbours. -/
def Rounding.onGrid? (r : Rounding) (tie : Tie) (k : Int) : Option Nat :=
  let up := if k < 0 then Nat.pow 10 (-k).toNat else 1
  let unit := r.denominator * (if k < 0 then 1 else Nat.pow 10 k.toNat)
  let value := r.value * up
  let below := value / unit
  let inLow := 0 < below &&
    (if r.closed then r.low * up ≤ below * unit else r.low * up < below * unit)
  let inHigh :=
    if r.closed then (below + 1) * unit ≤ r.high * up else (below + 1) * unit < r.high * up
  if inLow && inHigh then
    if tie.takesLower below (value - below * unit) ((below + 1) * unit - value) then some below
    else some (below + 1)
  else if inLow then some below
  else if inHigh then some (below + 1)
  else none

/-- Tries the grids of `10 ^ k`, `10 ^ (k - 1)`, … -/
def Rounding.search (r : Rounding) (tie : Tie) : Nat → Int → Decimal
  | 0, k => ⟨0, k⟩
  | steps + 1, k =>
    match r.onGrid? tie k with
    | some digits => ⟨digits, k⟩
    | none => r.search tie steps (k - 1)

/-- The shortest decimal that rounds to `m · 2 ^ e`, for a positive `m`. Seventeen digits always
suffice, and the first grid tried is at most two places too coarse. -/
def shortest (tie : Tie) (m : Nat) (e : Int) : Decimal :=
  let top : Int := (Int.ofNat m.log2 + e + 1) * 30103 / 100000 + 1
  (rounding m e).search tie 24 top

end Number

end JsxLowering
