import JsxLowering.Number.Parse
import JsxLowering.Number.Text
import Mathlib.Data.List.TakeDrop
import Mathlib.Data.List.TakeWhile
import Mathlib.Tactic.Positivity

/-!
# Numbers read back from their text

The text of an integral number in markup is its digits, all of them below `10 ^ 21` and the fewest
that still round to the number from there on. Reading the text gives the number back.
-/

namespace JsxLowering

namespace Number

/-- Whether a number is a normal double: its significand has 53 bits, and its exponent is in the
range of doubles. All integral values but zero are. -/
def IsNormal : Number → Prop
  | .finite _ m e => 2 ^ 52 ≤ m ∧ m < 2 ^ 53 ∧ minExponent ≤ e ∧ e ≤ maxExponent
  | _ => False

/-! ## Runs of digits -/

/-- A run of decimal digits has the value that the library gives it. -/
theorem ofDigits_ten {cs : List Char} (h : ∀ c ∈ cs, c.isDigit) :
    ofDigits 10 cs = Nat.ofDigitChars 10 cs 0 := by
  have from_any (n : Nat) :
      cs.foldl (fun n c => n * 10 + digitValue c) n = Nat.ofDigitChars 10 cs n := by
    induction cs generalizing n with
    | nil => rfl
    | cons c cs ih =>
      have value : digitValue c = c.toNat - '0'.toNat := if_pos (h c List.mem_cons_self)
      rw [List.foldl_cons, ih fun d hd => h d (List.mem_cons_of_mem c hd),
        Nat.ofDigitChars_cons, value, Nat.mul_comm]
  exact from_any 0

/-- A number written with zeros after it has nothing but digits. -/
theorem isDigit_of_mem_toDigits_zeros {k zeros : Nat} :
    ∀ c ∈ Nat.toDigits 10 k ++ List.replicate zeros '0', c.isDigit := by
  intro c hc
  rcases List.mem_append.mp hc with front | zero
  · exact Nat.isDigit_of_mem_toDigits (by decide) (by decide) front
  · rw [List.eq_of_mem_replicate zero]
    rfl

/-- The digits of a number with zeros after them stand for the number times a power of ten. -/
theorem ofDigits_toDigits_zeros (k zeros : Nat) :
    ofDigits 10 (Nat.toDigits 10 k ++ List.replicate zeros '0') = k * 10 ^ zeros := by
  rw [ofDigits_ten isDigit_of_mem_toDigits_zeros, Nat.ofDigitChars_append,
    Nat.ofDigitChars_ten_toDigits, Nat.ofDigitChars_replicate_zero, Nat.mul_comm]

/-- A run of digits, with a minus sign or without, is read as an integer. -/
theorem parse?_digits {cs : List Char} (hne : cs ≠ []) (hd : ∀ c ∈ cs, c.isDigit)
    (negative : Bool) :
    parse? (String.ofList (if negative then '-' :: cs else cs)) =
      some (ofDecimal negative (ofDigits 10 cs) 0) := by
  obtain ⟨c, rest, rfl⟩ := List.exists_cons_of_ne_nil hne
  have first : c.isDigit := hd c List.mem_cons_self
  have sign : c ≠ '-' ∧ c ≠ '+' ∧ c ≠ 'i' ∧ c ≠ 'N' := by
    refine ⟨?_, ?_, ?_, ?_⟩ <;> (rintro rfl; revert first; decide)
  have split : spanDigits (c :: rest) = (c :: rest, []) := by
    rw [spanDigits, List.span_eq_takeWhile_dropWhile,
      List.takeWhile_eq_self_iff.mpr hd, List.dropWhile_eq_nil_iff.mpr hd]
  have unsigned : ofUnsigned? negative (c :: rest) =
      some (ofDecimal negative (ofDigits 10 (c :: rest)) 0) := by
    simp [ofUnsigned?, split, exponent?]
  have inf : c :: rest ≠ "inf".toList := by
    intro h
    exact sign.2.2.1 (List.cons.inj h).1
  have nan : c :: rest ≠ "NaN".toList := by
    intro h
    exact sign.2.2.2 (List.cons.inj h).1
  unfold parse?
  rw [String.toList_ofList]
  cases negative with
  | true => simp only [if_true, if_neg inf, if_neg nan, unsigned]
  | false =>
    -- no sign is split off in front of a digit
    split
    next negative rest' heq =>
      have unsplit : false = negative ∧ c :: rest = rest' := by grind
      rw [← unsplit.1, ← unsplit.2, if_neg inf, if_neg nan, unsigned]

/-! ## Rounding an integer -/

/-- Rounding gives the nearest integer, and of two that are equally near the even one. -/
theorem roundDiv_eq {num den q : Nat} (hd : 0 < den) (above : 2 * num ≤ 2 * (q * den) + den)
    (below : 2 * (q * den) ≤ 2 * num + den)
    (odd : q % 2 = 1 → 2 * num < 2 * (q * den) + den ∧ 2 * (q * den) < 2 * num + den) :
    roundDiv num den = q := by
  unfold roundDiv
  dsimp only
  have parts : num / den * den + num % den = num := Nat.div_add_mod' num den
  have small : num % den < den := Nat.mod_lt num hd
  generalize num / den = a at parts ⊢
  generalize num % den = r at parts small ⊢
  have next : (a + 1) * den = a * den + den := by rw [Nat.add_mul, one_mul]
  -- only the two integers around the quotient are within half a unit of it
  have near : q = a ∨ q = a + 1 := by
    rcases Nat.lt_trichotomy q a with less | equal | more
    · have : (q + 1) * den ≤ a * den := Nat.mul_le_mul_right den less
      rw [Nat.add_mul, one_mul] at this
      omega
    · exact .inl equal
    · refine .inr (le_antisymm ?_ more)
      by_contra beyond
      have : (a + 2) * den ≤ q * den := Nat.mul_le_mul_right den (by omega)
      rw [Nat.add_mul] at this
      omega
  rcases near with rfl | rfl
  · have half : 2 * r ≤ den := by omega
    have strict : q % 2 = 1 → 2 * r < den := by omega
    split_ifs <;> omega
  · have half : den ≤ 2 * r := by omega
    have strict : (a + 1) % 2 = 1 → den < 2 * r := by omega
    split_ifs <;> omega

theorem roundDiv_mul (q : Nat) {den : Nat} (hd : 0 < den) : roundDiv (q * den) den = q := by
  apply roundDiv_eq hd <;> omega

/-- A rounded significand at an exponent; `2 ^ 53` is the next power of two. -/
def ofSignificand (negative : Bool) (q : Nat) (e : Int) : Number :=
  let (q, e) := if q = 2 ^ 53 then (2 ^ 52, e + 1) else (q, e)
  if maxExponent < e then .infinite negative else .finite negative q e

/-- Only a carry raises the exponent. -/
theorem ofSignificand_cases (negative : Bool) (q : Nat) (e : Int) :
    ofSignificand negative q e = .infinite negative
      ∨ ∃ m e', ofSignificand negative q e = .finite negative m e' ∧ e ≤ e' := by
  unfold ofSignificand
  by_cases carry : q = 2 ^ 53
  · rw [if_pos carry]
    by_cases beyond : maxExponent < e + 1
    · exact .inl (if_pos beyond)
    · exact .inr ⟨_, _, if_neg beyond, by omega⟩
  · rw [if_neg carry]
    by_cases beyond : maxExponent < e
    · exact .inl (if_pos beyond)
    · exact .inr ⟨_, _, if_neg beyond, le_rfl⟩

/-- The quotient of an integer by the power of two under its top 53 bits. -/
theorem unscale_one (k : Nat) :
    unscale k 1 (Int.ofNat k.log2 - 52) = (k * 2 ^ (52 - k.log2), 2 ^ (k.log2 - 52)) := by
  unfold unscale
  by_cases h : k.log2 < 52
  · rw [if_pos (by simp; omega)]
    have down : (-(Int.ofNat k.log2 - 52)).toNat = 52 - k.log2 := by simp
    have up : k.log2 - 52 = 0 := by omega
    rw [down, up, Nat.pow_eq, pow_zero]
  · rw [if_neg (by simp; omega)]
    have down : (Int.ofNat k.log2 - 52).toNat = k.log2 - 52 := by simp; omega
    have up : 52 - k.log2 = 0 := by omega
    rw [down, up, Nat.pow_eq, pow_zero, mul_one, one_mul]

/-- An integer over the power of two under its top 53 bits is at least `2 ^ 52`. -/
theorem le_top_bits {k : Nat} (hk : 0 < k) :
    2 ^ 52 ≤ k * 2 ^ (52 - k.log2) / 2 ^ (k.log2 - 52) := by
  rw [Nat.le_div_iff_mul_le (by positivity), ← pow_add]
  calc 2 ^ (52 + (k.log2 - 52)) = 2 ^ k.log2 * 2 ^ (52 - k.log2) := by
        rw [← pow_add]; congr 1; omega
    _ ≤ k * 2 ^ (52 - k.log2) := Nat.mul_le_mul_right _ (Nat.log2_self_le (by omega))

theorem div_le_roundDiv (num den : Nat) : num / den ≤ roundDiv num den := by
  unfold roundDiv
  dsimp only
  split_ifs <;> omega

theorem roundDiv_le (num den : Nat) : roundDiv num den ≤ num / den + 1 := by
  unfold roundDiv
  dsimp only
  split_ifs <;> omega

theorem top_bits_lt (k : Nat) : k * 2 ^ (52 - k.log2) / 2 ^ (k.log2 - 52) < 2 ^ 53 := by
  rw [Nat.div_lt_iff_lt_mul (by positivity), ← pow_add]
  calc k * 2 ^ (52 - k.log2) < 2 ^ (k.log2 + 1) * 2 ^ (52 - k.log2) :=
        Nat.mul_lt_mul_of_pos_right Nat.lt_log2_self (by positivity)
    _ = 2 ^ (53 + (k.log2 - 52)) := by
        rw [← pow_add]
        congr 1
        omega

/-- The double nearest to an integer: its top 53 bits are rounded to. -/
theorem ofRatio_one (negative : Bool) {k : Nat} (hk : 0 < k) :
    ofRatio negative k 1 =
      ofSignificand negative
        (roundDiv (k * 2 ^ (52 - k.log2)) (2 ^ (k.log2 - 52))) (Int.ofNat k.log2 - 52) := by
  have guess : Int.ofNat k.log2 - Int.ofNat (Nat.log2 1) - 52 = Int.ofNat k.log2 - 52 := by
    have one : Nat.log2 1 = 0 := by decide
    rw [one]
    simp
  have top := le_top_bits hk
  have full := top.trans (div_le_roundDiv _ _)
  have range : max minExponent (Int.ofNat k.log2 - 52) = Int.ofNat k.log2 - 52 := by
    apply max_eq_right
    simp [minExponent]
    omega
  unfold ofRatio
  rw [if_neg (by omega)]
  simp only [guess, unscale_one, Nat.pow_eq, if_neg (Nat.not_lt.mpr top), range]
  unfold ofSignificand
  generalize roundDiv _ _ = q at full ⊢
  by_cases h : q = 2 ^ 53
  · rw [if_pos h]
    rfl
  · rw [if_neg h]
    have nonzero : q ≠ 0 := by
      rintro rfl
      exact absurd full (by decide)
    simp only [if_neg nonzero]

/-- The double nearest to a positive integer has a full significand, or it is beyond all. -/
theorem isNormal_ofRatio (negative : Bool) {k : Nat} (hk : 0 < k) :
    (ofRatio negative k 1).IsNormal ∨ ofRatio negative k 1 = .infinite negative := by
  have low := (le_top_bits hk).trans (div_le_roundDiv _ _)
  have high := (roundDiv_le _ _).trans (top_bits_lt k)
  rw [ofRatio_one negative hk]
  generalize roundDiv _ _ = q at low high ⊢
  unfold ofSignificand
  have least : minExponent = -1074 := rfl
  by_cases full : q = 2 ^ 53
  · rw [if_pos full]
    by_cases beyond : maxExponent < Int.ofNat k.log2 - 52 + 1
    · exact .inr (if_pos beyond)
    · left
      dsimp only
      rw [if_neg beyond]
      refine ⟨le_rfl, by decide, ?_, by omega⟩
      simp only [Int.ofNat_eq_natCast, least]
      omega
  · rw [if_neg full]
    by_cases beyond : maxExponent < Int.ofNat k.log2 - 52
    · exact .inr (if_pos beyond)
    · left
      dsimp only
      rw [if_neg beyond]
      refine ⟨low, by omega, ?_, by omega⟩
      simp only [Int.ofNat_eq_natCast, least]
      omega

/-- The double nearest to a positive integer is integral itself. -/
theorem exists_integral?_ofRatio {negative : Bool} {k : Nat} (hk : 0 < k)
    (hf : ofRatio negative k 1 ≠ .infinite negative) :
    ∃ value, (ofRatio negative k 1).integral? = some value := by
  rw [ofRatio_one negative hk] at hf ⊢
  by_cases wide : 52 ≤ k.log2
  · -- the exponent is not negative, with a carry or without
    have size : 0 ≤ Int.ofNat k.log2 - 52 := by
      simp only [Int.ofNat_eq_natCast]
      omega
    rcases ofSignificand_cases negative _ (Int.ofNat k.log2 - 52) with beyond | ⟨m, e, same, he⟩
    · exact absurd beyond hf
    · rw [same]
      exact ⟨_, if_pos (size.trans he)⟩
  · -- the integer is exact, and zero bits fill up its significand
    have exact_bits := top_bits_lt k
    rw [Nat.sub_eq_zero_of_le (show k.log2 ≤ 52 by omega), pow_zero, Nat.div_one] at exact_bits
    have rounded : roundDiv (k * 2 ^ (52 - k.log2)) 1 = k * 2 ^ (52 - k.log2) := by
      simpa using roundDiv_mul (k * 2 ^ (52 - k.log2)) (by decide : 0 < 1)
    have range : ¬ maxExponent < Int.ofNat k.log2 - 52 := by
      have : maxExponent = 971 := rfl
      simp only [Int.ofNat_eq_natCast]
      omega
    have places : (-(Int.ofNat k.log2 - 52)).toNat = 52 - k.log2 := by simp
    rw [Nat.sub_eq_zero_of_le (show k.log2 ≤ 52 by omega), pow_zero, rounded]
    unfold ofSignificand
    rw [if_neg exact_bits.ne]
    dsimp only
    rw [if_neg range, integral?, if_neg (by simp only [Int.ofNat_eq_natCast]; omega), places,
      Nat.pow_eq, if_pos (Nat.mul_mod_left _ _)]
    exact ⟨_, rfl⟩

/-- An integer of known size whose top bits round to a significand rounds to that double. -/
theorem ofRatio_of_roundDiv {negative : Bool} {m : Nat} {e : Int} {k : Nat} (hk : 0 < k)
    (hm : m < 2 ^ 53) (he : e ≤ maxExponent) (size : Int.ofNat k.log2 - 52 = e)
    (round : roundDiv (k * 2 ^ (52 - k.log2)) (2 ^ (k.log2 - 52)) = m) :
    ofRatio negative k 1 = .finite negative m e := by
  rw [ofRatio_one negative hk, round, size]
  unfold ofSignificand
  rw [if_neg (by omega)]
  exact if_neg (by omega)

/-- An integer that has a full significand is the nearest double to itself. -/
theorem ofRatio_exact {negative : Bool} {m : Nat} {e : Int} {k : Nat}
    (hn : (finite negative m e).IsNormal) (hk : (finite negative m e).integral? = some k) :
    ofRatio negative k 1 = .finite negative m e := by
  obtain ⟨low, high, -, most⟩ := hn
  simp only [integral?, Nat.pow_eq] at hk
  by_cases he : 0 ≤ e
  · rw [if_pos he, Option.some.injEq] at hk
    have positive : 0 < k := by
      rw [← hk]
      exact Nat.mul_pos (by omega) (by positivity)
    have size : k.log2 = 52 + e.toNat := by
      rw [Nat.log2_eq_iff (by omega), ← hk, pow_add, show 52 + e.toNat + 1 = 53 + e.toNat by omega,
        pow_add]
      exact ⟨Nat.mul_le_mul_right _ low, Nat.mul_lt_mul_of_pos_right high (by positivity)⟩
    apply ofRatio_of_roundDiv positive high most
    · simp only [size, Int.ofNat_eq_natCast]
      omega
    · rw [size, Nat.sub_eq_zero_of_le (Nat.le_add_right 52 _), Nat.add_sub_cancel_left, pow_zero,
        mul_one, ← hk]
      exact roundDiv_mul m (by positivity)
  · rw [if_neg he] at hk
    split at hk
    next whole =>
      rw [Option.some.injEq] at hk
      -- the significand is the integer with zero bits after it
      have shifted : k * 2 ^ (-e).toNat = m := by
        rw [← hk]
        exact Nat.div_mul_cancel (Nat.dvd_of_mod_eq_zero whole)
      generalize ha : (-e).toNat = a at shifted
      have positive : 0 < k := by
        by_contra h
        rw [show k = 0 by omega, zero_mul] at shifted
        omega
      have few : a ≤ 52 := by
        have fits : 2 ^ a < 2 ^ 53 := (Nat.le_mul_of_pos_left _ positive).trans_lt (shifted ▸ high)
        have := (Nat.pow_lt_pow_iff_right (by decide : 1 < 2)).mp fits
        omega
      have size : k.log2 = 52 - a := by
        rw [Nat.log2_eq_iff (by omega)]
        have split : 2 ^ 52 = 2 ^ (52 - a) * 2 ^ a := by
          rw [← pow_add, Nat.sub_add_cancel few]
        have split' : 2 ^ 53 = 2 ^ (52 - a + 1) * 2 ^ a := by
          rw [← pow_add]
          congr 1
          omega
        rw [← shifted] at low high
        constructor
        · exact Nat.le_of_mul_le_mul_right (split ▸ low) (by positivity)
        · exact Nat.lt_of_mul_lt_mul_right (split' ▸ high)
      apply ofRatio_of_roundDiv positive high most
      · simp only [size, Int.ofNat_eq_natCast]
        omega
      · rw [size, show 52 - (52 - a) = a by omega, show 52 - a - 52 = 0 by omega, shifted,
          pow_zero]
        simpa using roundDiv_mul m (by decide : 0 < 1)
    next => cases hk

/-! ## The shortest decimal -/

/-- Whether an integer rounds to the value, for an interval over the denominator one. -/
def Rounding.Contains (r : Rounding) (n : Nat) : Prop :=
  r.low ≤ n ∧ n ≤ r.high ∧ (r.closed = false → r.low < n ∧ n < r.high)

/-- A point of the grid of `10 ^ j` that was found rounds to the value. -/
theorem Rounding.contains_of_onGrid? {r : Rounding} {tie : Tie} {j : Int} {digits : Nat}
    (hd : r.denominator = 1) (hv : r.low < r.value ∧ r.value < r.high) (hj : 0 ≤ j)
    (h : r.onGrid? tie j = some digits) : r.Contains (digits * 10 ^ j.toNat) := by
  simp only [onGrid?, hd, if_neg (Int.not_lt.mpr hj), Nat.pow_eq, one_mul, mul_one] at h
  have unit : 0 < 10 ^ j.toNat := by positivity
  have below : r.value / 10 ^ j.toNat * 10 ^ j.toNat ≤ r.value := Nat.div_mul_le_self _ _
  have above : r.value < (r.value / 10 ^ j.toNat + 1) * 10 ^ j.toNat :=
    Nat.lt_mul_of_div_lt (Nat.lt_succ_self _) unit
  generalize r.value / 10 ^ j.toNat = q at below above h
  generalize 10 ^ j.toNat = p at below above h ⊢
  unfold Contains
  -- the lower neighbour is above the low end or the upper one below the high end, as was checked
  rw [Nat.add_mul, one_mul] at above h
  cases closed : r.closed <;> simp only [closed, if_true, Bool.false_eq_true, if_false] at h ⊢ <;>
    split_ifs at h <;> cases h <;> simp_all [Nat.add_mul] <;> omega

/-- A grid that is fine enough has a point that rounds to the value. -/
theorem Rounding.isSome_onGrid? {r : Rounding} {tie : Tie} {j : Int} (hd : r.denominator = 1)
    (hj : 0 ≤ j) (fine : r.low + 10 ^ j.toNat ≤ r.value) : (r.onGrid? tie j).isSome := by
  simp only [onGrid?, hd, if_neg (Int.not_lt.mpr hj), Nat.pow_eq, one_mul, mul_one]
  have unit : 0 < 10 ^ j.toNat := by positivity
  have above : r.value < (r.value / 10 ^ j.toNat + 1) * 10 ^ j.toNat :=
    Nat.lt_mul_of_div_lt (Nat.lt_succ_self _) unit
  have some : 0 < r.value / 10 ^ j.toNat := Nat.div_pos (by omega) unit
  generalize r.value / 10 ^ j.toNat = q at above some ⊢
  generalize 10 ^ j.toNat = p at fine above ⊢
  have low : r.low < q * p := by
    rw [Nat.add_mul] at above
    omega
  cases closed : r.closed <;> simp [some, low, low.le] <;> split_ifs <;> rfl

/-- The search ends at a grid where a point is found, not below one where there is a point. -/
theorem Rounding.search_of_isSome {r : Rounding} {tie : Tie} {j : Int}
    (h : (r.onGrid? tie j).isSome) {steps : Nat} {top : Int} (hj : j ≤ top)
    (reach : top < j + steps) :
    ∃ k digits, r.search tie steps top = ⟨digits, k⟩ ∧ j ≤ k ∧ r.onGrid? tie k = some digits := by
  induction steps generalizing top with
  | zero =>
    simp only [Nat.cast_zero] at reach
    omega
  | succ steps ih =>
    rw [search]
    cases found : r.onGrid? tie top with
    | some digits => exact ⟨top, digits, rfl, hj, found⟩
    | none =>
      -- this grid has no point, so it is not the one at `j`
      have other : j ≠ top := by
        rintro rfl
        rw [found] at h
        cases h
      exact ih (by omega) (by push_cast at reach; omega)

section
variable {negative : Bool} {m : Nat} {e : Int}

/-- From exponent two on, the ends of the interval are integers. -/
theorem rounding_of_two_le (he : 2 ≤ e) (m : Nat) :
    (rounding m e).denominator = 1 ∧ (rounding m e).value = 4 * m * 2 ^ (e - 2).toNat ∧
      (rounding m e).high = (4 * m + 2) * 2 ^ (e - 2).toNat ∧
      (rounding m e).closed = decide (m % 2 = 0) ∧
      (rounding m e).low =
        (if m = 2 ^ 52 then 4 * m - 1 else 4 * m - 2) * 2 ^ (e - 2).toNat := by
  have least : minExponent < e := by
    have : minExponent = -1074 := rfl
    omega
  unfold rounding
  by_cases h : e < 2
  · omega
  · simp [h, least]

/-- Integers within the interval of a double round to it. -/
theorem ofRatio_of_contains (he : 2 ≤ e) (hn : (finite negative m e).IsNormal) {k : Nat}
    (hk : (rounding m e).Contains k) : ofRatio negative k 1 = .finite negative m e := by
  obtain ⟨-, -, hhigh, hclosed, hlow⟩ := rounding_of_two_le he m
  obtain ⟨low, high, -, most⟩ := hn
  obtain ⟨above, below, inside⟩ := hk
  have power (a : Nat) : 2 ^ (a + (e - 2).toNat) = 2 ^ a * 2 ^ (e - 2).toNat := pow_add 2 a _
  have quarter : 0 < 2 ^ (e - 2).toNat := by positivity
  obtain ⟨u, hu⟩ : ∃ u, 2 ^ (e - 2).toNat = u := ⟨_, rfl⟩
  rw [hu] at hlow hhigh quarter power
  -- all bounds are linear in the significand times a quarter of its unit
  have least : 2 ^ 52 * u ≤ m * u := Nat.mul_le_mul_right u low
  have greatest : (m + 1) * u ≤ 2 ^ 53 * u := Nat.mul_le_mul_right u high
  rw [Nat.add_mul, one_mul] at greatest
  rw [Nat.add_mul, mul_assoc] at hhigh
  have hlow : (rounding m e).low = 4 * (m * u) - (if m = 2 ^ 52 then u else 2 * u) := by
    rw [hlow]
    split_ifs
    · rw [Nat.sub_mul, mul_assoc, one_mul]
    · rw [Nat.sub_mul, mul_assoc]
  have odd : m % 2 = 1 → 4 * (m * u) < k + 2 * u ∧ k < 4 * (m * u) + 2 * u := by
    intro h
    have strict := inside (by rw [hclosed]; simp [h])
    rw [hlow, hhigh, if_neg (by omega)] at strict
    omega
  have near : 4 * (m * u) ≤ k + 2 * u := by
    split_ifs at hlow <;> omega
  have positive : 0 < k := by omega
  by_cases size : 2 ^ (54 + (e - 2).toNat) ≤ k
  · have bits : k.log2 = 54 + (e - 2).toNat := by
      rw [Nat.log2_eq_iff (by omega)]
      refine ⟨size, ?_⟩
      rw [show 54 + (e - 2).toNat + 1 = 55 + (e - 2).toNat by omega, power]
      omega
    apply ofRatio_of_roundDiv positive high most
    · simp only [bits, Int.ofNat_eq_natCast]
      omega
    · rw [bits, show 52 - (54 + (e - 2).toNat) = 0 by omega, pow_zero, mul_one,
        show 54 + (e - 2).toNat - 52 = 2 + (e - 2).toNat by omega, power]
      have scaled : m * (2 ^ 2 * u) = 4 * (m * u) := mul_left_comm m 4 u
      apply roundDiv_eq (by omega) <;> rw [scaled] <;> omega
  · -- below the power of two only its own interval reaches, and there the significand carries
    rw [power, Nat.not_le] at size
    have power_of_two : m = 2 ^ 52 := by
      by_contra other
      have : (2 ^ 52 + 1) * u ≤ m * u := Nat.mul_le_mul_right u (by omega)
      rw [Nat.add_mul, one_mul] at this
      omega
    rw [if_pos power_of_two] at hlow
    subst power_of_two
    have bits : k.log2 = 53 + (e - 2).toNat := by
      rw [Nat.log2_eq_iff (by omega), power,
        show 53 + (e - 2).toNat + 1 = 54 + (e - 2).toNat by omega, power]
      omega
    have carry : roundDiv (k * 2 ^ (52 - k.log2)) (2 ^ (k.log2 - 52)) = 2 ^ 53 := by
      rw [bits, show 52 - (53 + (e - 2).toNat) = 0 by omega, pow_zero, mul_one,
        show 53 + (e - 2).toNat - 52 = 1 + (e - 2).toNat by omega, power]
      apply roundDiv_eq <;> omega
    have exponent : Int.ofNat k.log2 - 52 + 1 = e := by
      simp only [bits, Int.ofNat_eq_natCast]
      omega
    rw [ofRatio_one negative positive, carry]
    unfold ofSignificand
    rw [if_pos rfl, exponent]
    exact if_neg (by omega)

/-- The last grid that the search for an integer may try is finer than the interval. -/
theorem pow_ten_le (he : 2 ≤ e) (most : e ≤ maxExponent) :
    10 ^ (((53 + e) * 30103 / 100000).toNat - 22) ≤ 2 ^ (e - 2).toNat := by
  have range : maxExponent = 971 := rfl
  generalize ht : ((53 + e) * 30103 / 100000).toNat = t
  by_cases few : t ≤ 22
  · rw [Nat.sub_eq_zero_of_le few, pow_zero]
    exact Nat.one_le_two_pow
  -- a thousand is less than `2 ^ 10`, which loses a few bits, and twenty-two tens spare
  -- seventy-three
  have tens : 10 ^ t ≤ 2 ^ (10 * (t / 3 + 1)) := by
    calc 10 ^ t ≤ 10 ^ (3 * (t / 3 + 1)) := Nat.pow_le_pow_right (by decide) (by omega)
      _ = 1000 ^ (t / 3 + 1) := by rw [pow_mul]; rfl
      _ ≤ 1024 ^ (t / 3 + 1) := Nat.pow_le_pow_left (by decide) _
      _ = 2 ^ (10 * (t / 3 + 1)) := by rw [pow_mul]; rfl
  have spare : 10 ^ (t - 22) * 2 ^ 73 ≤ 10 ^ t := by
    calc 10 ^ (t - 22) * 2 ^ 73 ≤ 10 ^ (t - 22) * 10 ^ 22 := Nat.mul_le_mul_left _ (by decide)
      _ = 10 ^ t := by rw [← pow_add, Nat.sub_add_cancel (by omega)]
  have bits : 2 ^ (10 * (t / 3 + 1)) ≤ 2 ^ (e - 2).toNat * 2 ^ 73 := by
    rw [← pow_add]
    exact Nat.pow_le_pow_right (by decide) (by omega)
  exact Nat.le_of_mul_le_mul_right (spare.trans (tens.trans bits)) (by decide)

/-- The shortest decimal of an integer from exponent two on is an integer that rounds to it. -/
theorem shortest_contains (tie : Tie) (he : 2 ≤ e) (hn : (finite negative m e).IsNormal) :
    ∃ digits zeros : Nat, shortest tie m e = ⟨digits, zeros⟩ ∧
      (rounding m e).Contains (digits * 10 ^ zeros) := by
  obtain ⟨hdenominator, hvalue, hhigh, -, hlow⟩ := rounding_of_two_le he m
  obtain ⟨low, high, -, most⟩ := hn
  have quarter : 0 < 2 ^ (e - 2).toNat := by positivity
  have width : (rounding m e).low + 2 ^ (e - 2).toNat ≤ (rounding m e).value := by
    have left : (if m = 2 ^ 52 then 4 * m - 1 else 4 * m - 2) + 1 ≤ 4 * m := by
      split_ifs <;> omega
    rw [hlow, hvalue, ← Nat.succ_mul]
    exact Nat.mul_le_mul_right _ left
  have inner : (rounding m e).low < (rounding m e).value ∧
      (rounding m e).value < (rounding m e).high := by
    refine ⟨by omega, ?_⟩
    rw [hvalue, hhigh]
    exact Nat.mul_lt_mul_of_pos_right (by omega) quarter
  have size : m.log2 = 52 := (Nat.log2_eq_iff (by omega)).mpr ⟨low, high⟩
  unfold shortest
  rw [size]
  generalize htop : (Int.ofNat 52 + e + 1) * 30103 / 100000 + 1 = top
  have exponent : Int.ofNat 52 + e + 1 = 53 + e := by
    simp only [Int.ofNat_eq_natCast]
    omega
  rw [exponent] at htop
  -- the grid of one always has the value itself, the last grid tried some point next to it
  have found : ((rounding m e).onGrid? tie (max 0 (top - 23))).isSome := by
    apply Rounding.isSome_onGrid? hdenominator (le_max_left _ _)
    have fine := pow_ten_le he most
    rw [show ((53 + e) * 30103 / 100000).toNat - 22 = (max 0 (top - 23)).toNat by omega] at fine
    omega
  have reach : top < max 0 (top - 23) + (24 : Nat) := by
    push_cast
    omega
  obtain ⟨j, digits, hj, least, point⟩ := Rounding.search_of_isSome found (by omega) reach
  have whole : 0 ≤ j := le_trans (le_max_left _ _) least
  refine ⟨digits, j.toNat, ?_, Rounding.contains_of_onGrid? hdenominator inner whole point⟩
  rw [hj, Int.toNat_of_nonneg whole]

end

/-! ## Reading back -/

/-- An integer of no more than 310 digits is read as the double nearest to it. -/
theorem ofDecimal_zero {negative : Bool} {k places : Nat} (hk : 0 < k) (few : k < 10 ^ places)
    (hp : places ≤ 310) : ofDecimal negative k 0 = ofRatio negative k 1 := by
  have some : 0 < places := by
    by_contra h
    rw [Nat.eq_zero_of_not_pos h, pow_zero] at few
    omega
  have length : (Nat.toDigits 10 k).length ≤ places :=
    (Nat.length_toDigits_le_iff (by decide) some).mpr few
  unfold ofDecimal
  have small : ¬(k = 0 ∨ Int.ofNat (Nat.toDigits 10 k).length + 0 < -330) := by
    simp only [Int.ofNat_eq_natCast]
    omega
  have large : ¬310 < Int.ofNat (Nat.toDigits 10 k).length + 0 := by
    simp only [Int.ofNat_eq_natCast]
    omega
  simp only [Bool.or_eq_true, decide_eq_true_eq, if_neg small, if_neg large, Int.lt_irrefl,
    if_false, Int.toNat_zero, Nat.pow_eq, pow_zero, mul_one]

section
variable {negative : Bool} {m : Nat} {e : Int}

/-- The digits of an integer that rounds to a double, with the sign of the double before them, are
read as the double. -/
theorem parse?_signed (hn : (finite negative m e).IsNormal) {k zeros places : Nat}
    (round : ofRatio negative (k * 10 ^ zeros) 1 = finite negative m e)
    (few : k * 10 ^ zeros < 10 ^ places) (hp : places ≤ 310) {text : String}
    (ht : text.toList = Nat.toDigits 10 k ++ List.replicate zeros '0') :
    parse? ((finite negative m e).signed text) = some (finite negative m e) := by
  obtain ⟨low, -⟩ := hn
  have positive : 0 < k * 10 ^ zeros := by
    rw [Nat.pos_iff_ne_zero]
    intro zero
    rw [zero, ofRatio, if_pos rfl] at round
    cases round
    omega
  have spelled : (finite negative m e).signed text =
      String.ofList (if negative then '-' :: text.toList else text.toList) := by
    have nonzero : m ≠ 0 := by omega
    apply String.toList_inj.mp
    cases negative <;> simp [signed, isNegative, nonzero]
  have digits : ∀ c ∈ text.toList, c.isDigit := by
    rw [ht]
    exact isDigit_of_mem_toDigits_zeros
  have some : text.toList ≠ [] := by simp [ht]
  rw [spelled, parse?_digits some digits, ht, ofDigits_toDigits_zeros,
    ofDecimal_zero positive few hp, round]

/-- No integer that rounds to a double has more than 309 digits. -/
theorem Rounding.Contains.lt_pow {k : Nat} (he : 2 ≤ e) (hn : (finite negative m e).IsNormal)
    (hk : (rounding m e).Contains k) : k < 10 ^ 309 := by
  obtain ⟨-, -, hhigh, -, -⟩ := rounding_of_two_le he m
  obtain ⟨-, high, -, most⟩ := hn
  have range : maxExponent = 971 := rfl
  calc k ≤ (4 * m + 2) * 2 ^ (e - 2).toNat := hhigh ▸ hk.2.1
    _ ≤ 2 ^ 55 * 2 ^ (e - 2).toNat := Nat.mul_le_mul_right _ (by omega)
    _ = 2 ^ (55 + (e - 2).toNat) := (pow_add 2 55 _).symm
    _ ≤ 2 ^ 1024 := Nat.pow_le_pow_right (by decide) (by omega)
    _ < 10 ^ 309 := by decide +kernel

/-- An integral double with twenty-two digits or more has an exponent of two at least. -/
theorem two_le_of_integral {k : Nat} (hn : (finite negative m e).IsNormal)
    (hk : (finite negative m e).integral? = some k) (large : 10 ^ 21 ≤ k) : 2 ≤ e := by
  obtain ⟨-, high, -, -⟩ := hn
  by_contra small
  simp only [integral?, Nat.pow_eq] at hk
  split_ifs at hk with whole
  · rw [Option.some.injEq] at hk
    have unit : 2 ^ e.toNat ≤ 2 ^ 1 := Nat.pow_le_pow_right (by decide) (by omega)
    have : m * 2 ^ e.toNat ≤ m * 2 ^ 1 := Nat.mul_le_mul_left m unit
    omega
  · rw [Option.some.injEq] at hk
    have : m / 2 ^ (-e).toNat ≤ m := Nat.div_le_self _ _
    omega

/-- The text of an integral number in markup reads back as the number. -/
theorem parse?_text {n : Number} {k : Nat} (hn : n.IsNormal) (hk : n.integral? = some k) :
    parse? n.text = some n := by
  match n, hn with
  | .finite negative m e, hn =>
    have nonzero : m ≠ 0 := by
      have := hn.1
      omega
    unfold text
    simp only [if_neg nonzero, hk, Nat.pow_eq]
    split_ifs with small
    · -- all digits are written, with no zeros after them
      have round : ofRatio negative (k * 10 ^ 0) 1 = finite negative m e := by
        simpa using ofRatio_exact hn hk
      have few : k * 10 ^ 0 < 10 ^ 21 := by simpa using small
      exact parse?_signed hn round few (by decide) (by simp)
    · -- digits and zeros are written, another integer that rounds to the number
      have he := two_le_of_integral hn hk (Nat.not_lt.mp small)
      obtain ⟨digits, zeros, hd, inside⟩ := shortest_contains .upward he hn
      rw [hd]
      apply parse?_signed hn (ofRatio_of_contains he hn inside) (inside.lt_pow he hn) (by decide)
      simp [Decimal.positional, Decimal.figures]

end

/-- The text of the double nearest to a positive integer reads back, unless it is an infinity. -/
theorem parse?_text_ofRatio {negative : Bool} {k : Nat} (hk : 0 < k)
    (hf : ofRatio negative k 1 ≠ .infinite negative) :
    parse? (ofRatio negative k 1).text = some (ofRatio negative k 1) := by
  obtain ⟨value, integral⟩ := exists_integral?_ofRatio hk hf
  exact parse?_text ((isNormal_ofRatio negative hk).resolve_right hf) integral

/-- The digits need not be those of the number itself, which is `10 ^ 23 - 2 ^ 23`. -/
example : (ofRatio true (10 ^ 23) 1).text = "-100000000000000000000000" := by decide

end Number

end JsxLowering
