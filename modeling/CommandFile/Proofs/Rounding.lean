import CommandFile.Number.Basic
import Mathlib.Algebra.Order.Field.Power
import Mathlib.Data.Int.Log
import Mathlib.Data.Rat.Floor
import Mathlib.Tactic.FieldSimp
import Mathlib.Tactic.Positivity
import Mathlib.Tactic.Ring

/-!
# Rounding

What a quotient is rounded to depends on its value alone.  A value that has a form with a
mantissa of 53 bits, or with the least exponent, is rounded to that form, and every result of
rounding is infinite or has such a form.
-/

namespace CommandFile.Number

/-- A mantissa and an exponent as rounding chooses them. -/
structure Fits (mantissa : Nat) (exponent : Int) : Prop where
  narrow : mantissa < 2 ^ precision
  full : 2 ^ (precision - 1) ≤ mantissa ∨ exponent = leastExponent
  least : leastExponent ≤ exponent
  greatest : exponent ≤ greatestExponent

def IsFinite : Number → Prop
  | .finite _ mantissa exponent => Fits mantissa exponent
  | _ => False

/-! ## Quotients -/

section Quotients

variable {numerator denominator : Nat}

theorem scaled_snd_pos (positive : 0 < denominator) (exponent : Int) :
    0 < (scaled numerator denominator exponent).2 := by
  unfold scaled
  split
  · exact positive
  · exact Nat.mul_pos positive (Nat.pow_pos Nat.two_pos)

theorem scaled_ratio (numerator denominator : Nat) (exponent : Int) :
    ((scaled numerator denominator exponent).1 : ℚ) / (scaled numerator denominator exponent).2 =
      numerator / denominator / 2 ^ exponent := by
  unfold scaled
  split
  · next negative =>
      obtain ⟨count, rfl⟩ := Int.exists_eq_neg_ofNat (Int.le_of_lt negative)
      simp only [Int.natAbs_neg, Int.natAbs_natCast, Nat.pow_eq, Nat.cast_mul, Nat.cast_pow,
        Nat.cast_ofNat, zpow_neg, zpow_natCast]
      field_simp
  · next natural =>
      obtain ⟨count, rfl⟩ := Int.eq_ofNat_of_zero_le (Int.not_lt.mp natural)
      simp only [Int.natAbs_natCast, Nat.pow_eq, Nat.cast_mul, Nat.cast_pow, Nat.cast_ofNat,
        zpow_natCast]
      rw [div_div]

theorem powered_ratio (base factor : Nat) (exponent : Int) :
    let form : Nat × Nat :=
      if exponent < 0 then (factor, Nat.pow base exponent.natAbs)
      else (factor * Nat.pow base exponent.natAbs, 1)
    (form.1 / form.2 : ℚ) = factor * (base : ℚ) ^ exponent := by
  dsimp only
  split
  · next negative =>
      obtain ⟨count, rfl⟩ := Int.exists_eq_neg_ofNat (Int.le_of_lt negative)
      simp only [Int.natAbs_neg, Int.natAbs_natCast, Nat.pow_eq, Nat.cast_pow, zpow_neg,
        zpow_natCast]
      rw [div_eq_mul_inv]
  · next natural =>
      obtain ⟨count, rfl⟩ := Int.eq_ofNat_of_zero_le (Int.not_lt.mp natural)
      simp only [Int.natAbs_natCast, Nat.pow_eq, Nat.cast_mul, Nat.cast_pow, Nat.cast_one,
        zpow_natCast, div_one]

theorem quotient_ratio (mantissa : Nat) (exponent : Int) :
    ((quotient mantissa exponent).1 / (quotient mantissa exponent).2 : ℚ) =
      mantissa * 2 ^ exponent :=
  powered_ratio 2 mantissa exponent

theorem log_eq_of_bounds {value : ℚ} {exponent : Int} (above : (2 : ℚ) ^ exponent ≤ value)
    (below : value < 2 ^ (exponent + 1)) : Int.log 2 value = exponent := by
  have positive : 0 < value := lt_of_lt_of_le (by positivity) above
  have lower := (Int.zpow_le_iff_le_log (b := 2) (by decide) positive).mp (by exact_mod_cast above)
  have upper := (Int.lt_zpow_iff_log_lt (b := 2) (by decide) positive).mp (by exact_mod_cast below)
  omega

theorem ratio_bounds (positive : 0 < numerator) (positiveToo : 0 < denominator) :
    (2 : ℚ) ^ ((numerator.log2 : Int) - denominator.log2 - 1) ≤ numerator / denominator ∧
      (numerator / denominator : ℚ) < 2 ^ ((numerator.log2 : Int) - denominator.log2 + 1) := by
  have here : (0 : ℚ) < denominator := by exact_mod_cast positiveToo
  have lower : (2 : ℚ) ^ numerator.log2 ≤ numerator := by
    exact_mod_cast Nat.log2_self_le positive.ne'
  have upper : (numerator : ℚ) < 2 ^ (numerator.log2 + 1) := by exact_mod_cast Nat.lt_log2_self
  have lowerToo : (2 : ℚ) ^ denominator.log2 ≤ denominator := by
    exact_mod_cast Nat.log2_self_le positiveToo.ne'
  have upperToo : (denominator : ℚ) < 2 ^ (denominator.log2 + 1) := by
    exact_mod_cast Nat.lt_log2_self
  constructor
  · rw [le_div_iff₀ here]
    calc (2 : ℚ) ^ ((numerator.log2 : Int) - denominator.log2 - 1) * denominator
        ≤ 2 ^ ((numerator.log2 : Int) - denominator.log2 - 1) * 2 ^ (denominator.log2 + 1) := by
          gcongr
      _ = 2 ^ numerator.log2 := by
          rw [← zpow_natCast, ← zpow_add₀ two_ne_zero, ← zpow_natCast]
          congr 1
          omega
      _ ≤ numerator := lower
  · rw [div_lt_iff₀ here]
    calc (numerator : ℚ) < 2 ^ (numerator.log2 + 1) := upper
      _ = 2 ^ ((numerator.log2 : Int) - denominator.log2 + 1) * 2 ^ denominator.log2 := by
          rw [← zpow_natCast, ← zpow_natCast (n := denominator.log2), ← zpow_add₀ two_ne_zero]
          congr 1
          omega
      _ ≤ 2 ^ ((numerator.log2 : Int) - denominator.log2 + 1) * denominator := by gcongr

theorem scaled_fst_lt_snd_iff (positive : 0 < denominator) (exponent : Int) :
    (scaled numerator denominator exponent).1 < (scaled numerator denominator exponent).2 ↔
      (numerator / denominator : ℚ) < 2 ^ exponent := by
  have below : (0 : ℚ) < (scaled numerator denominator exponent).2 := by
    exact_mod_cast scaled_snd_pos positive exponent
  have power : (0 : ℚ) < 2 ^ exponent := by positivity
  rw [← div_lt_one power, ← scaled_ratio, div_lt_one below, Nat.cast_lt]

theorem magnitude_eq_log (positive : 0 < numerator) (positiveToo : 0 < denominator) :
    magnitude numerator denominator = Int.log 2 (numerator / denominator : ℚ) := by
  obtain ⟨lower, upper⟩ := ratio_bounds positive positiveToo
  unfold magnitude
  simp only [scaled_fst_lt_snd_iff positiveToo]
  split
  · next less => exact (log_eq_of_bounds lower (by rwa [sub_add_cancel])).symm
  · next least => exact (log_eq_of_bounds (not_lt.mp least) upper).symm

end Quotients

/-! ## Rounding to a natural number -/

theorem roundQuotient_mul_left {factor : Nat} (positive : 0 < factor) (above below : Nat) :
    roundQuotient (factor * above) (factor * below) = roundQuotient above below := by
  have scales (left right : Nat) : factor * left < factor * right ↔ left < right :=
    Nat.mul_lt_mul_left positive
  simp only [roundQuotient, Nat.mul_div_mul_left _ _ positive, Nat.mul_mod_mul_left,
    Nat.mul_left_comm 2 factor, scales]

theorem roundQuotient_congr {above below other under : Nat} (positive : 0 < below)
    (positiveToo : 0 < under) (same : (above / below : ℚ) = other / under) :
    roundQuotient above below = roundQuotient other under := by
  have crossed : under * above = below * other := by
    have here : (below : ℚ) ≠ 0 := by exact_mod_cast positive.ne'
    have hereToo : (under : ℚ) ≠ 0 := by exact_mod_cast positiveToo.ne'
    rw [div_eq_div_iff here hereToo] at same
    have exact : above * under = other * below := by exact_mod_cast same
    rw [Nat.mul_comm, exact, Nat.mul_comm]
  rw [← roundQuotient_mul_left positiveToo above, ← roundQuotient_mul_left positive other, crossed,
    Nat.mul_comm under below]

@[simp] theorem roundQuotient_one (value : Nat) : roundQuotient value 1 = value := by
  simp [roundQuotient, Nat.mod_one]

/-! ## Rounding to a number -/

def exponentAt (value : ℚ) : Int := max (Int.log 2 value - (precision - 1 : Nat)) leastExponent

def ofRounded (negative : Bool) (exponent : Int) (mantissa : Nat) : Number :=
  let (mantissa, exponent) :=
    if mantissa = Nat.pow 2 precision then (Nat.pow 2 (precision - 1), exponent + 1)
    else (mantissa, exponent)
  if greatestExponent < exponent then .infinite negative
  else .finite negative mantissa exponent

theorem ofRounded_sign {exponent rounded : Int} {candidate mantissa : Nat} (negative : Bool)
    (found : ofRounded false exponent candidate = .finite false mantissa rounded) :
    ofRounded negative exponent candidate = .finite negative mantissa rounded := by
  unfold ofRounded at found ⊢
  generalize (if candidate = Nat.pow 2 precision then _ else _) = form at found ⊢
  simp only at found ⊢
  split at found
  · nomatch found
  · next within =>
      rw [if_neg within]
      injection found with _ same sameToo
      rw [same, sameToo]

theorem ofRounded_of_fits {mantissa : Nat} {exponent : Int} (fits : Fits mantissa exponent)
    (negative : Bool) :
    ofRounded negative exponent mantissa = .finite negative mantissa exponent := by
  have stays : mantissa ≠ Nat.pow 2 precision := fits.narrow.ne
  rw [ofRounded, if_neg stays]
  exact if_neg (Int.not_lt.mpr fits.greatest)

section Nearest

variable {numerator denominator : Nat}

theorem nearest_of_ne_zero (negative : Bool) (some : numerator ≠ 0) :
    nearest negative numerator denominator =
      let exponent :=
        max (magnitude numerator denominator - (precision - 1 : Nat)) leastExponent
      let (above, below) := scaled numerator denominator exponent
      ofRounded negative exponent (roundQuotient above below) := by
  rw [nearest, if_neg some]
  rfl

theorem nearest_of_pos (negative : Bool) (positive : 0 < numerator)
    (positiveToo : 0 < denominator) :
    nearest negative numerator denominator =
      let exponent := exponentAt (numerator / denominator)
      let (above, below) := scaled numerator denominator exponent
      ofRounded negative exponent (roundQuotient above below) := by
  rw [nearest_of_ne_zero negative positive.ne', magnitude_eq_log positive positiveToo]
  rfl

theorem nearest_congr {other under : Nat} (negative : Bool) (positive : 0 < denominator)
    (positiveToo : 0 < under) (same : (numerator / denominator : ℚ) = other / under) :
    nearest negative numerator denominator = nearest negative other under := by
  have here : (denominator : ℚ) ≠ 0 := by exact_mod_cast positive.ne'
  have hereToo : (under : ℚ) ≠ 0 := by exact_mod_cast positiveToo.ne'
  have zero : numerator = 0 ↔ other = 0 := by
    rw [← Nat.cast_eq_zero (R := ℚ), ← Nat.cast_eq_zero (R := ℚ) (n := other),
      ← div_eq_zero_iff.trans (or_iff_left here), same, div_eq_zero_iff, or_iff_left hereToo]
  rcases Nat.eq_zero_or_pos numerator with none | some
  · rw [nearest, nearest, if_pos none, if_pos (zero.mp none)]
  · have someToo : 0 < other := Nat.pos_of_ne_zero fun none => some.ne' (zero.mpr none)
    rw [nearest_of_pos negative some positive, nearest_of_pos negative someToo positiveToo, same]
    simp only
    congr 1
    refine roundQuotient_congr (scaled_snd_pos positive _) (scaled_snd_pos positiveToo _) ?_
    rw [scaled_ratio, scaled_ratio, same]

theorem nearest_sign {mantissa : Nat} {exponent : Int} (negative : Bool)
    (found : nearest false numerator denominator = .finite false mantissa exponent) :
    nearest negative numerator denominator = .finite negative mantissa exponent := by
  by_cases zero : numerator = 0
  · rw [nearest, if_pos zero] at found ⊢
    injection found with _ same sameToo
    rw [same, sameToo]
  · rw [nearest_of_ne_zero _ zero] at found ⊢
    exact ofRounded_sign negative found

theorem exponentAt_of_fits {mantissa : Nat} {exponent : Int} (fits : Fits mantissa exponent)
    (positive : 0 < mantissa) : exponentAt (mantissa * 2 ^ exponent) = exponent := by
  have power : (0 : ℚ) < 2 ^ exponent := by positivity
  have value : (0 : ℚ) < mantissa * 2 ^ exponent := by positivity
  have upper : (mantissa * 2 ^ exponent : ℚ) < 2 ^ (precision + exponent) := by
    rw [zpow_add₀ two_ne_zero, zpow_natCast]
    gcongr
    exact_mod_cast fits.narrow
  have less := (Int.lt_zpow_iff_log_lt (b := 2) (by decide) value).mp (by exact_mod_cast upper)
  rcases fits.full with full | least
  · have lower : (2 : ℚ) ^ ((precision - 1 : Nat) + exponent) ≤ mantissa * 2 ^ exponent := by
      rw [zpow_add₀ two_ne_zero, zpow_natCast]
      gcongr
      exact_mod_cast full
    have most := (Int.zpow_le_iff_le_log (b := 2) (by decide) value).mp (by exact_mod_cast lower)
    have := fits.least
    simp only [exponentAt, precision] at less most ⊢
    omega
  · simp only [exponentAt, precision] at less ⊢
    omega

theorem nearest_of_fits {mantissa : Nat} {exponent : Int} (negative : Bool)
    (fits : Fits mantissa exponent) (positive : 0 < denominator)
    (same : (numerator / denominator : ℚ) = mantissa * 2 ^ exponent) :
    nearest negative numerator denominator = .finite negative mantissa exponent := by
  have power : (2 : ℚ) ^ exponent ≠ 0 := by positivity
  have here : (denominator : ℚ) ≠ 0 := by exact_mod_cast positive.ne'
  have zero : numerator = 0 ↔ mantissa = 0 := by
    rw [← Nat.cast_eq_zero (R := ℚ), ← Nat.cast_eq_zero (R := ℚ) (n := mantissa),
      ← div_eq_zero_iff.trans (or_iff_left here), same, mul_eq_zero, or_iff_left power]
  rcases Nat.eq_zero_or_pos mantissa with rfl | some
  · have least : exponent = leastExponent := fits.full.resolve_left (by decide)
    rw [nearest, if_pos (zero.mpr rfl), least]
  · have someToo : 0 < numerator := Nat.pos_of_ne_zero fun none => some.ne' (zero.mp none)
    rw [nearest_of_pos negative someToo positive, same, exponentAt_of_fits fits some]
    have ratio : ((scaled numerator denominator exponent).1 : ℚ) /
        (scaled numerator denominator exponent).2 = mantissa / (1 : Nat) := by
      rw [scaled_ratio, same, mul_div_cancel_right₀ _ power, Nat.cast_one, div_one]
    simp only [roundQuotient_congr (scaled_snd_pos positive _) Nat.one_pos ratio,
      roundQuotient_one, ofRounded_of_fits fits]

end Nearest

end CommandFile.Number
