import CommandFile.Number.Numeral
import CommandFile.Proofs.Rounding
import Mathlib.Algebra.Order.Floor.Semiring

/-!
# Decimals

A decimal is rounded by its value.  The shortest decimal of a number has been rounded to it
before it is taken, and the exact one is the number itself.
-/

namespace CommandFile.Number.Decimal

def value (decimal : Decimal) : ℚ := decimal.digits * 10 ^ decimal.exponent

/-! ## Widths -/

theorem width_le_iff {number : Nat} (positive : 0 < number) (count : Nat) :
    width number ≤ count ↔ number < 10 ^ count := by
  rw [width, if_neg positive.ne']
  rcases Nat.eq_zero_or_pos count with rfl | some
  · have long := Nat.length_toDigits_pos (b := 10) (n := number)
    omega
  · exact Nat.length_toDigits_le_iff (by decide) some

theorem leading_eq_log {decimal : Decimal} (positive : 0 < decimal.digits) :
    decimal.exponent + width decimal.digits = Int.log 10 decimal.value + 1 := by
  have some : (0 : ℚ) < decimal.digits := by exact_mod_cast positive
  have here : 0 < decimal.value := by unfold value; positivity
  have upper := (width_le_iff positive _).mp (Nat.le_refl (width decimal.digits))
  have wide : 0 < width decimal.digits := by
    rw [Nat.pos_iff_ne_zero]
    intro none
    have := (width_le_iff positive 0).mp none.le
    omega
  have lower : 10 ^ (width decimal.digits - 1) ≤ decimal.digits := by
    refine Nat.not_lt.mp fun less => ?_
    have := (width_le_iff positive _).mpr less
    omega
  have below : decimal.value < ((10 : Nat) : ℚ) ^ (width decimal.digits + decimal.exponent) := by
    rw [value, Nat.cast_ofNat, zpow_add₀ (by norm_num), zpow_natCast]
    gcongr
    exact_mod_cast upper
  have above : ((10 : Nat) : ℚ) ^ ((width decimal.digits - 1 : Nat) + decimal.exponent) ≤
      decimal.value := by
    rw [value, Nat.cast_ofNat, zpow_add₀ (by norm_num), zpow_natCast]
    gcongr
    exact_mod_cast lower
  have less := (Int.lt_zpow_iff_log_lt (by decide) here).mp below
  have most := (Int.zpow_le_iff_le_log (by decide) here).mp above
  omega

/-! ## Rounding -/

theorem quotient_snd_pos (decimal : Decimal) : 0 < decimal.quotient.2 := by
  unfold quotient
  split
  · exact Nat.pow_pos (by decide)
  · exact Nat.one_pos

theorem quotient_ratio (decimal : Decimal) :
    (decimal.quotient.1 / decimal.quotient.2 : ℚ) = decimal.value :=
  powered_ratio 10 decimal.digits decimal.exponent

theorem value_eq_zero_iff (decimal : Decimal) : decimal.value = 0 ↔ decimal.digits = 0 := by
  have power : (10 : ℚ) ^ decimal.exponent ≠ 0 := by positivity
  rw [value, mul_eq_zero, or_iff_left power, Nat.cast_eq_zero]

theorem toNumber_eq (negative : Bool) (decimal : Decimal) :
    decimal.toNumber negative =
      let leading := decimal.exponent + width decimal.digits
      if decimal.digits = 0 || leading < -farthest then nearest negative 0 1
      else if farthest < leading then .infinite negative
      else nearest negative decimal.quotient.1 decimal.quotient.2 := rfl

theorem toNumber_congr {decimal other : Decimal} (same : decimal.value = other.value)
    (negative : Bool) : decimal.toNumber negative = other.toNumber negative := by
  have zero : decimal.digits = 0 ↔ other.digits = 0 := by
    rw [← value_eq_zero_iff, ← value_eq_zero_iff, same]
  have rounded : nearest negative decimal.quotient.1 decimal.quotient.2 =
      nearest negative other.quotient.1 other.quotient.2 :=
    nearest_congr negative (quotient_snd_pos _) (quotient_snd_pos _)
      (by rw [quotient_ratio, quotient_ratio, same])
  rcases Nat.eq_zero_or_pos decimal.digits with none | some
  · simp [toNumber_eq, none, zero.mp none]
  · have someToo : 0 < other.digits := Nat.pos_of_ne_zero fun none => some.ne' (zero.mpr none)
    have leading :
        decimal.exponent + width decimal.digits = other.exponent + width other.digits := by
      rw [leading_eq_log some, leading_eq_log someToo, same]
    simp only [toNumber_eq, some.ne', someToo.ne', leading, rounded]

theorem leading_within {mantissa : Nat} {exponent : Int} (fits : Fits mantissa exponent)
    {decimal : Decimal} (some : 0 < decimal.digits)
    (same : decimal.value = mantissa * 2 ^ exponent) :
    -farthest ≤ decimal.exponent + width decimal.digits ∧
      decimal.exponent + width decimal.digits ≤ farthest := by
  have zero : (mantissa : ℚ) * 2 ^ exponent ≠ 0 := by
    rw [← same, ne_eq, value_eq_zero_iff]
    exact some.ne'
  have present : (1 : ℚ) ≤ mantissa := by
    exact_mod_cast Nat.one_le_iff_ne_zero.mpr (by simpa using left_ne_zero_of_mul zero)
  have here : 0 < decimal.value := by
    rw [same]
    positivity
  have eight : ((10 : Nat) : ℚ)⁻¹ ≤ (2 ^ 3)⁻¹ := by norm_num
  have lower : ((10 : Nat) : ℚ) ^ (-358 : Int) ≤ decimal.value := by
    calc ((10 : Nat) : ℚ) ^ (-358 : Int) = (((10 : Nat) : ℚ)⁻¹) ^ 358 := by
          rw [zpow_neg, ← inv_zpow, ← zpow_natCast]
          rfl
      _ ≤ ((2 ^ 3 : ℚ)⁻¹) ^ 358 := by gcongr
      _ = 2 ^ leastExponent := by
          rw [inv_pow, ← pow_mul, leastExponent, zpow_neg, ← zpow_natCast]
          rfl
      _ ≤ 1 * 2 ^ exponent := by
          rw [one_mul]
          exact zpow_le_zpow_right₀ one_le_two fits.least
      _ ≤ decimal.value := by
          rw [same]
          gcongr
  have upper : decimal.value < ((10 : Nat) : ℚ) ^ (342 : Int) := by
    have narrow : (mantissa : ℚ) < 2 ^ precision := by exact_mod_cast fits.narrow
    calc decimal.value = mantissa * 2 ^ exponent := same
      _ < 2 ^ precision * 2 ^ exponent := by gcongr
      _ ≤ 2 ^ precision * 2 ^ greatestExponent := by
          gcongr
          · exact one_le_two
          · exact fits.greatest
      _ = 2 ^ 1024 := by
          rw [greatestExponent, ← zpow_natCast, ← zpow_natCast, ← zpow_add₀ two_ne_zero]
          rfl
      _ ≤ 2 ^ (3 * 342) := by gcongr <;> norm_num
      _ = ((2 : ℚ) ^ 3) ^ 342 := pow_mul _ _ _
      _ ≤ ((10 : Nat) : ℚ) ^ 342 := by gcongr; norm_num
      _ = ((10 : Nat) : ℚ) ^ (342 : Int) := (zpow_natCast _ _).symm
  have most := (Int.zpow_le_iff_le_log (by decide) here).mp lower
  have less := (Int.lt_zpow_iff_log_lt (by decide) here).mp upper
  rw [leading_eq_log some, farthest]
  omega

theorem toNumber_of_fits {mantissa : Nat} {exponent : Int} (fits : Fits mantissa exponent)
    {decimal : Decimal} (same : decimal.value = mantissa * 2 ^ exponent) (negative : Bool) :
    decimal.toNumber negative = .finite negative mantissa exponent := by
  rcases Nat.eq_zero_or_pos decimal.digits with none | some
  · have zero : nearest negative 0 1 = .finite negative mantissa exponent :=
      nearest_of_fits negative fits Nat.one_pos (by
        rw [Nat.cast_zero, zero_div, ← same, eq_comm, value_eq_zero_iff, none])
    rw [toNumber_eq, ← zero]
    exact if_pos (by simp [none])
  · obtain ⟨least, greatest⟩ := leading_within fits some same
    have rounded : nearest negative decimal.quotient.1 decimal.quotient.2 =
        .finite negative mantissa exponent :=
      nearest_of_fits negative fits (quotient_snd_pos decimal) (by rw [quotient_ratio, same])
    rw [toNumber_eq, ← rounded]
    dsimp only
    rw [if_neg (by simp [some.ne', least]), if_neg (Int.not_lt.mpr greatest)]

theorem toNumber_sign {decimal : Decimal} {mantissa : Nat} {exponent : Int}
    (found : decimal.toNumber false = .finite false mantissa exponent) (negative : Bool) :
    decimal.toNumber negative = .finite negative mantissa exponent := by
  rw [toNumber_eq] at found ⊢
  dsimp only at found ⊢
  split at found
  · next none =>
      rw [if_pos none]
      exact nearest_sign negative found
  · next some =>
      rw [if_neg some]
      split at found
      · nomatch found
      · next within =>
          rw [if_neg within]
          exact nearest_sign negative found

/-! ## The shortest decimal -/

theorem value_strip (fuel : Nat) (decimal : Decimal) :
    (strip fuel decimal).value = decimal.value := by
  induction fuel generalizing decimal with
  | zero => rfl
  | succ fuel ih =>
      unfold strip
      split
      · next ends =>
          simp only [ne_eq, Bool.and_eq_true, decide_eq_true_eq] at ends
          have whole : (decimal.digits : ℚ) = (decimal.digits / 10 : Nat) * 10 := by
            exact_mod_cast (Nat.div_mul_cancel (Nat.dvd_of_mod_eq_zero ends.2)).symm
          rw [ih, value, value, whole, zpow_add₀ (by norm_num), zpow_one]
          ring
      · rfl

theorem toNumber_of_onGrid? {number : Number} {above below : Nat} {exponent : Int}
    {decimal : Decimal} (found : onGrid? number above below exponent = some decimal) :
    decimal.toNumber false = number := by
  unfold onGrid? at found
  dsimp only at found
  generalize (if exponent < 0 then _ else _ : Nat × Nat) = form at found
  split at found
  · next low high =>
      split at found
      · obtain rfl := Option.some.inj found
        exact eq_of_beq low
      · obtain rfl := Option.some.inj found
        exact eq_of_beq high
  · next low _ =>
      obtain rfl := Option.some.inj found
      exact eq_of_beq low
  · next _ high =>
      obtain rfl := Option.some.inj found
      exact eq_of_beq high
  · nomatch found

theorem value_exact (mantissa : Nat) (exponent : Int) :
    (if exponent < 0 then ⟨mantissa * Nat.pow 5 exponent.natAbs, exponent⟩
      else ⟨mantissa * Nat.pow 2 exponent.natAbs, 0⟩ : Decimal).value =
        mantissa * 2 ^ exponent := by
  split
  · next negative =>
      obtain ⟨count, rfl⟩ := Int.exists_eq_neg_ofNat (Int.le_of_lt negative)
      have tens : (10 : ℚ) ^ count = 5 ^ count * 2 ^ count := by rw [← mul_pow]; norm_num
      simp only [value, Int.natAbs_neg, Int.natAbs_natCast, Nat.pow_eq, Nat.cast_mul, Nat.cast_pow,
        Nat.cast_ofNat, zpow_neg, zpow_natCast, tens]
      field_simp
  · next natural =>
      obtain ⟨count, rfl⟩ := Int.eq_ofNat_of_zero_le (Int.not_lt.mp natural)
      simp only [value, Int.natAbs_natCast, Nat.pow_eq, Nat.cast_mul, Nat.cast_pow, Nat.cast_ofNat,
        zpow_natCast, zpow_zero, mul_one]

theorem toNumber_shortest {mantissa : Nat} {exponent : Int} (fits : Fits mantissa exponent)
    (negative : Bool) :
    (shortest mantissa exponent).toNumber negative = .finite negative mantissa exponent := by
  refine toNumber_sign ?_ negative
  unfold shortest
  dsimp only
  rw [toNumber_congr (value_strip _ _)]
  generalize searched : (List.range enough).findSome? _ = found
  cases found with
  | some decimal =>
      obtain ⟨_, _, grid⟩ := List.exists_of_findSome?_eq_some searched
      exact toNumber_of_onGrid? grid
  | none =>
      refine toNumber_of_fits fits ?_ false
      rw [Option.getD_none]
      exact value_exact mantissa exponent

end CommandFile.Number.Decimal
