import Mathlib.Algebra.Order.Field.Power
import Mathlib.Data.Rat.Cast.Order
import Mathlib.Tactic.Linarith
import Mathlib.Tactic.NormNum
import Mathlib.Tactic.Positivity
import Mathlib.Tactic.Ring
import SpecServer.Decimal.Binary64
set_option autoImplicit false

/-!
How far rounding leads away from a quotient, and when a quotient is too large to be rounded. All bounds are about exact
rational numbers.
-/

namespace SpecServer.Decimal.Binary64

def magnitude (x : Binary64) : ℚ :=
  x.mantissa * 2 ^ x.exponent

/-- Where overflow begins: half a step above the greatest number. -/
def overflowBound : ℚ :=
  (2 ^ 53 - 1 / 2) * 2 ^ greatestExponent

variable {negative : Bool} {numerator denominator : Nat} {x : Binary64}

/-! ## One division -/

private theorem twice_roundDiv_le (numerator denominator : Nat) :
    2 * (denominator * roundDiv numerator denominator) ≤ 2 * numerator + denominator := by
  have whole := Nat.div_add_mod numerator denominator
  rw [roundDiv]
  generalize numerator / denominator = quotient at whole ⊢
  generalize numerator % denominator = remainder at whole ⊢
  split
  · omega
  · split
    · rw [Nat.mul_add]
      omega
    · have even : denominator * (quotient % 2) ≤ denominator * 1 := Nat.mul_le_mul_left _ (by omega)
      rw [Nat.mul_add]
      omega

private theorem le_twice_roundDiv (positive : 0 < denominator) (numerator : Nat) :
    2 * numerator ≤ 2 * (denominator * roundDiv numerator denominator) + denominator := by
  have whole := Nat.div_add_mod numerator denominator
  have less := Nat.mod_lt numerator positive
  rw [roundDiv]
  generalize numerator / denominator = quotient at whole ⊢
  generalize numerator % denominator = remainder at whole less ⊢
  split
  · omega
  · split
    · rw [Nat.mul_add]
      omega
    · rw [Nat.mul_add]
      omega

private theorem roundDiv_le (positive : 0 < denominator) (numerator : Nat) :
    (roundDiv numerator denominator : ℚ) ≤ numerator / denominator + 1 / 2 := by
  have above : (0 : ℚ) < denominator := by exact_mod_cast positive
  have bound : 2 * ((denominator : ℚ) * roundDiv numerator denominator) ≤ 2 * numerator + denominator := by
    exact_mod_cast twice_roundDiv_le numerator denominator
  rw [div_add_div _ _ above.ne' two_ne_zero, le_div_iff₀ (by positivity)]
  linarith

private theorem le_roundDiv (positive : 0 < denominator) (numerator : Nat) :
    (numerator / denominator : ℚ) ≤ roundDiv numerator denominator + 1 / 2 := by
  have above : (0 : ℚ) < denominator := by exact_mod_cast positive
  have bound : 2 * (numerator : ℚ) ≤ 2 * ((denominator : ℚ) * roundDiv numerator denominator) + denominator := by
    exact_mod_cast le_twice_roundDiv positive numerator
  rw [div_le_iff₀ above]
  linarith

/-! ## Scaling by a power of two -/

private theorem ratio_down {exponent : Int} (least : 0 ≤ exponent) (numerator denominator : Nat) :
    (numerator / (denominator * Nat.pow 2 exponent.toNat : ℕ) : ℚ) = numerator / denominator / 2 ^ exponent := by
  obtain ⟨n, rfl⟩ := Int.eq_ofNat_of_zero_le least
  simp [div_div]

private theorem ratio_up {exponent : Int} (below : ¬0 ≤ exponent) (numerator denominator : Nat) :
    ((numerator * Nat.pow 2 (-exponent).toNat : ℕ) / denominator : ℚ) = numerator / denominator / 2 ^ exponent := by
  obtain ⟨n, same⟩ := Int.eq_ofNat_of_zero_le (show 0 ≤ -exponent by omega)
  obtain rfl : exponent = -(n : Int) := by omega
  simp only [neg_neg, Int.toNat_natCast, Nat.pow_eq, Nat.cast_mul, Nat.cast_pow, Nat.cast_ofNat, zpow_neg, zpow_natCast,
    div_inv_eq_mul]
  ring

private theorem scaled_bounds (positive : 0 < denominator) (numerator : Nat) (exponent : Int) :
    (scaled numerator denominator exponent : ℚ) ≤ numerator / denominator / 2 ^ exponent + 1 / 2 ∧
      (numerator / denominator / 2 ^ exponent : ℚ) ≤ scaled numerator denominator exponent + 1 / 2 := by
  rw [scaled]
  split
  next least =>
    have above : 0 < denominator * Nat.pow 2 exponent.toNat := Nat.mul_pos positive (Nat.two_pow_pos _)
    rw [← ratio_down least]
    exact ⟨roundDiv_le above numerator, le_roundDiv above numerator⟩
  next below =>
    rw [← ratio_up below]
    exact ⟨roundDiv_le positive _, le_roundDiv positive _⟩

private theorem log2_bounds (nonzero : numerator ≠ 0) (positive : 0 < denominator) :
    (2 : ℚ) ^ ((numerator.log2 : Int) - denominator.log2 - 1) ≤ numerator / denominator ∧
      (numerator / denominator : ℚ) < 2 ^ ((numerator.log2 : Int) - denominator.log2 + 1) := by
  have above : (0 : ℚ) < denominator := by exact_mod_cast positive
  have low : (2 : ℚ) ^ (numerator.log2 : Int) ≤ numerator := by exact_mod_cast Nat.log2_self_le nonzero
  have high : (numerator : ℚ) < 2 ^ ((numerator.log2 : Int) + 1) := by exact_mod_cast Nat.lt_log2_self
  have least : (2 : ℚ) ^ (denominator.log2 : Int) ≤ denominator := by
    exact_mod_cast Nat.log2_self_le (Nat.pos_iff_ne_zero.mp positive)
  have most : (denominator : ℚ) < 2 ^ ((denominator.log2 : Int) + 1) := by exact_mod_cast Nat.lt_log2_self
  constructor
  · rw [le_div_iff₀ above]
    calc (2 : ℚ) ^ ((numerator.log2 : Int) - denominator.log2 - 1) * denominator
        ≤ 2 ^ ((numerator.log2 : Int) - denominator.log2 - 1) * 2 ^ ((denominator.log2 : Int) + 1) := by gcongr
      _ = 2 ^ (numerator.log2 : Int) := by rw [← zpow_add₀ two_ne_zero]; congr 1; ring
      _ ≤ numerator := low
  · rw [div_lt_iff₀ above]
    calc (numerator : ℚ) < 2 ^ ((numerator.log2 : Int) + 1) := high
      _ = 2 ^ ((numerator.log2 : Int) - denominator.log2 + 1) * 2 ^ (denominator.log2 : Int) := by
        rw [← zpow_add₀ two_ne_zero]; congr 1; ring
      _ ≤ 2 ^ ((numerator.log2 : Int) - denominator.log2 + 1) * denominator := by gcongr

private theorem div_lt_iff_ratio (positive : 0 < denominator) (numerator bound : Nat) :
    numerator / denominator < bound ↔ (numerator / denominator : ℚ) < bound := by
  have above : (0 : ℚ) < denominator := by exact_mod_cast positive
  rw [Nat.div_lt_iff_lt_mul positive, div_lt_iff₀ above]
  exact_mod_cast Iff.rfl

/-- The exponent is the one at which the quotient has 53 bits, or the least one. -/
theorem exponentFor_spec (nonzero : numerator ≠ 0) (positive : 0 < denominator) :
    ∃ exact : Int, exponentFor numerator denominator = max exact leastExponent ∧
      2 ^ 52 * (2 : ℚ) ^ exact ≤ numerator / denominator ∧ (numerator / denominator : ℚ) < 2 ^ 53 * (2 : ℚ) ^ exact := by
  obtain ⟨low, high⟩ := log2_bounds nonzero positive
  rw [exponentFor]
  generalize (numerator.log2 : Int) = top at low high ⊢
  generalize (denominator.log2 : Int) = bottom at low high ⊢
  obtain ⟨guess, guessed⟩ : ∃ guess, top - bottom - 52 = guess := ⟨_, rfl⟩
  rw [show top - bottom - 1 = 51 + guess by omega, zpow_add₀ two_ne_zero] at low
  rw [show top - bottom + 1 = 53 + guess by omega, zpow_add₀ two_ne_zero] at high
  rw [guessed]
  have power : (0 : ℚ) < 2 ^ guess := by positivity
  have floor : (if 0 ≤ guess then numerator / (denominator * Nat.pow 2 guess.toNat)
      else numerator * Nat.pow 2 (-guess).toNat / denominator) < Nat.pow 2 52 ↔
        (numerator / denominator : ℚ) < 2 ^ 52 * 2 ^ guess := by
    rw [← div_lt_iff₀ power]
    split
    next least =>
      have above : 0 < denominator * Nat.pow 2 guess.toNat := Nat.mul_pos positive (Nat.two_pow_pos _)
      rw [div_lt_iff_ratio above, ratio_down least]
      norm_num
    next below =>
      rw [div_lt_iff_ratio positive, ratio_up below]
      norm_num
  have half : (2 : ℚ) ^ guess = 2 * 2 ^ (guess - 1) := by
    rw [← zpow_one_add₀ two_ne_zero]
    congr 1
    ring
  refine ⟨_, rfl, ?_⟩
  simp only [floor]
  split
  next less =>
    rw [half] at low less
    constructor
    · norm_num at low ⊢
      linarith
    · norm_num at less ⊢
      linarith
  next more => exact ⟨le_of_not_gt more, by exact_mod_cast high⟩

/-! ## Rounding -/

/-- The mantissa of the rounded quotient, which may be the first one with 54 bits. -/
theorem scaled_le (nonzero : numerator ≠ 0) (positive : 0 < denominator) :
    scaled numerator denominator (exponentFor numerator denominator) ≤ 2 ^ 53 := by
  obtain ⟨exact, same, -, high⟩ := exponentFor_spec nonzero positive
  obtain ⟨close, -⟩ := scaled_bounds positive numerator (exponentFor numerator denominator)
  have wider : (2 : ℚ) ^ exact ≤ 2 ^ exponentFor numerator denominator :=
    zpow_le_zpow_right₀ one_le_two (same ▸ le_max_left _ _)
  have bits : (numerator / denominator / 2 ^ exponentFor numerator denominator : ℚ) < 2 ^ 53 := by
    rw [div_lt_iff₀ (by positivity)]
    linarith
  have bound : (scaled numerator denominator (exponentFor numerator denominator) : ℚ) < 2 ^ 53 + 1 := by linarith
  exact Nat.le_of_lt_succ (by exact_mod_cast bound)

/-- What a quotient is rounded to, unless its exponent is too great. -/
theorem round?_eq_some_iff (nonzero : numerator ≠ 0) :
    round? negative numerator denominator = some x ↔ x.exponent ≤ greatestExponent ∧
      x = if scaled numerator denominator (exponentFor numerator denominator) = 2 ^ 53 then
          ⟨negative, 2 ^ 52, exponentFor numerator denominator + 1⟩
        else ⟨negative, scaled numerator denominator (exponentFor numerator denominator),
          exponentFor numerator denominator⟩ := by
  rw [round?, if_neg nonzero]
  simp only [Nat.pow_eq, Option.ite_none_right_eq_some, Option.some.injEq]
  constructor
  · rintro ⟨fits, rfl⟩
    exact ⟨fits, rfl⟩
  · rintro ⟨fits, rfl⟩
    exact ⟨fits, rfl⟩

private theorem magnitude_round? (nonzero : numerator ≠ 0) (rounded : round? negative numerator denominator = some x) :
    x.magnitude = scaled numerator denominator (exponentFor numerator denominator) *
      2 ^ exponentFor numerator denominator := by
  obtain ⟨-, rfl⟩ := (round?_eq_some_iff nonzero).mp rounded
  split
  next carried =>
    rw [carried, magnitude, zpow_add₀ two_ne_zero]
    norm_num
    ring
  next => rfl

/-- A quotient lies at most half a step above the number that it is rounded to. -/
theorem ratio_le_of_round? (nonzero : numerator ≠ 0) (positive : 0 < denominator)
    (rounded : round? negative numerator denominator = some x) :
    (numerator / denominator : ℚ) ≤ (x.mantissa + 1 / 2) * 2 ^ x.exponent := by
  have power : (0 : ℚ) < 2 ^ exponentFor numerator denominator := by positivity
  obtain ⟨-, close⟩ := scaled_bounds positive numerator (exponentFor numerator denominator)
  have near := (div_le_iff₀ power).mp close
  obtain ⟨-, rfl⟩ := (round?_eq_some_iff nonzero).mp rounded
  split
  next carried =>
    rw [carried] at near
    rw [zpow_add₀ two_ne_zero]
    norm_num at near ⊢
    linarith
  next => exact near

theorem mantissa_lt_of_round? (nonzero : numerator ≠ 0) (positive : 0 < denominator)
    (rounded : round? negative numerator denominator = some x) : x.mantissa < 2 ^ 53 := by
  have most := scaled_le nonzero positive
  obtain ⟨-, rfl⟩ := (round?_eq_some_iff nonzero).mp rounded
  split
  next => exact Nat.pow_lt_pow_right (by decide) (by decide)
  next plain => exact Nat.lt_of_le_of_ne most plain

/-- A quotient of at least one is rounded upwards by a small part of it only. -/
theorem magnitude_le_of_round? (positive : 0 < denominator) (large : (1 : ℚ) ≤ numerator / denominator)
    (rounded : round? negative numerator denominator = some x) :
    x.magnitude ≤ numerator / denominator * (1 + 1 / 2 ^ 53) := by
  have nonzero : numerator ≠ 0 := by
    rintro rfl
    norm_num at large
  obtain ⟨exact, same, low, high⟩ := exponentFor_spec nonzero positive
  have normal : leastExponent ≤ exact := by
    by_contra small
    have tiny : (2 : ℚ) ^ exact ≤ 2 ^ (-53 : Int) :=
      zpow_le_zpow_right₀ one_le_two (by simp only [leastExponent] at small; omega)
    norm_num at tiny high
    linarith
  rw [magnitude_round? nonzero rounded, same, max_eq_left normal]
  have power : (0 : ℚ) < 2 ^ exact := by positivity
  obtain ⟨close, -⟩ := scaled_bounds positive numerator exact
  have near := mul_le_mul_of_nonneg_right close power.le
  rw [add_mul, div_mul_cancel₀ _ power.ne'] at near
  norm_num at low near ⊢
  linarith

theorem round?_of_lt (positive : 0 < denominator) (small : (numerator / denominator : ℚ) < overflowBound) :
    ∃ x, round? negative numerator denominator = some x := by
  by_cases nonzero : numerator = 0
  · exact ⟨_, by rw [round?, if_pos nonzero]⟩
  obtain ⟨exact, same, low, -⟩ := exponentFor_spec nonzero positive
  have power : (0 : ℚ) < 2 ^ greatestExponent := by positivity
  refine ⟨_, (round?_eq_some_iff nonzero).mpr ⟨?_, rfl⟩⟩
  have most : exponentFor numerator denominator ≤ greatestExponent := by
    by_contra great
    have above : greatestExponent + 1 ≤ exact := by
      rw [same] at great
      simp only [leastExponent, greatestExponent] at great ⊢
      omega
    have wide : (2 : ℚ) ^ (greatestExponent + 1) ≤ 2 ^ exact := zpow_le_zpow_right₀ one_le_two above
    rw [zpow_add₀ two_ne_zero] at wide
    rw [overflowBound] at small
    generalize (2 : ℚ) ^ greatestExponent = unit at wide small power
    norm_num at wide low small
    linarith
  split
  next carried =>
    refine Int.add_one_le_of_lt (lt_of_le_of_ne most fun top => ?_)
    obtain ⟨close, -⟩ := scaled_bounds positive numerator (exponentFor numerator denominator)
    rw [carried, top] at close
    rw [overflowBound, ← div_lt_iff₀ power] at small
    generalize (numerator / denominator / 2 ^ greatestExponent : ℚ) = bits at close small
    norm_num at close small
    linarith
  next => exact most

end SpecServer.Decimal.Binary64
