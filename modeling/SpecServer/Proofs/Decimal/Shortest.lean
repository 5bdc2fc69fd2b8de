import SpecServer.Decimal.Shortest
import SpecServer.Proofs.Decimal.Rounding
set_option autoImplicit false

/-!
How great the shortest digits of a number can be: they read back as the number, so they lie at most half a step above it.
-/

namespace SpecServer.Decimal

def Digits.size (digits : Digits) : ℚ :=
  digits.value * 10 ^ digits.power

namespace Binary64

variable {x : Binary64} {digits : Digits} {power leading : Int} {fuel count : Nat}

/-! ## Where the digits come from -/

private theorem readsBack_of_onGrid? (found : onGrid? x power = some digits) : readsBack x digits = true := by
  simp only [onGrid?] at found
  generalize (if 0 ≤ power then _ else _ : ℕ) = low at found
  split at found
  next hit =>
    cases found
    exact (Bool.and_eq_true_iff.mp hit).1
  next =>
    split at found
    next hit =>
      cases found
      exact hit
    next => cases found

private theorem size_trimZeros (fuel : Nat) (digits : Digits) : (trimZeros fuel digits).size = digits.size := by
  induction fuel generalizing digits with
  | zero => rfl
  | succ fuel ih =>
    rw [trimZeros]
    split
    next ends =>
      have whole : digits.value / 10 * 10 = digits.value := Nat.div_mul_cancel (Nat.dvd_of_mod_eq_zero ends.2)
      have tens : ((digits.value / 10 : ℕ) : ℚ) * 10 = digits.value := by exact_mod_cast whole
      rw [ih, Digits.size, Digits.size, zpow_add₀ (by norm_num), zpow_one, ← tens]
      ring
    next => rfl

private theorem searchGrids_cases (fuel count : Nat) :
    searchGrids x leading fuel count = ⟨0, 0⟩ ∨
      ∃ digits, readsBack x digits = true ∧ (searchGrids x leading fuel count).size = digits.size := by
  induction fuel generalizing count with
  | zero => exact .inl rfl
  | succ fuel ih =>
    rw [searchGrids]
    split
    next digits found => exact .inr ⟨digits, readsBack_of_onGrid? found, size_trimZeros 20 digits⟩
    next => exact ih (count + 1)

/-- The shortest digits are those of a decimal number that reads back, if there is one. -/
theorem shortest_cases (x : Binary64) :
    x.shortest = ⟨0, 0⟩ ∨ x.mantissa ≠ 0 ∧ ∃ digits, readsBack x digits = true ∧ x.shortest.size = digits.size := by
  rw [shortest]
  split
  next => exact .inl rfl
  next nonzero => exact (searchGrids_cases _ _).imp_right fun found => ⟨nonzero, found⟩

/-! ## How great they are -/

private theorem round?_of_readsBack (nonzero : x.mantissa ≠ 0) (back : readsBack x digits = true) :
    ∃ numerator denominator : Nat, numerator ≠ 0 ∧ 0 < denominator ∧ digits.size = numerator / denominator ∧
      round? x.negative numerator denominator = some x := by
  have rounded : ofDecimal? x.negative digits.value digits.power = some x := beq_iff_eq.mp back
  have differs : ∀ negative, some (zero negative) ≠ some x := by
    intro negative same
    cases same
    exact nonzero rfl
  rw [ofDecimal?] at rounded
  split at rounded
  · exact absurd rounded (differs _)
  next some =>
    split at rounded
    · cases rounded
    · split at rounded
      · exact absurd rounded (differs _)
      · split at rounded
        next least =>
          obtain ⟨n, same⟩ := Int.eq_ofNat_of_zero_le least
          refine ⟨_, _, Nat.mul_ne_zero some (Nat.pow_pos (by decide)).ne', Nat.one_pos, ?_, rounded⟩
          simp [Digits.size, same]
        next below =>
          obtain ⟨n, same⟩ := Int.eq_ofNat_of_zero_le (show 0 ≤ -digits.power by omega)
          refine ⟨_, _, some, Nat.pow_pos (by decide), ?_, rounded⟩
          rw [Digits.size, show digits.power = -(n : Int) by omega]
          simp [div_eq_mul_inv]

private theorem size_le_of_readsBack (nonzero : x.mantissa ≠ 0) (back : readsBack x digits = true) :
    digits.size ≤ (x.mantissa + 1 / 2) * 2 ^ x.exponent ∧ x.mantissa < 2 ^ 53 ∧ x.exponent ≤ greatestExponent := by
  obtain ⟨numerator, denominator, some, positive, same, rounded⟩ := round?_of_readsBack nonzero back
  exact ⟨same ▸ ratio_le_of_round? some positive rounded, mantissa_lt_of_round? some positive rounded,
    ((round?_eq_some_iff some).mp rounded).1⟩

theorem shortest_of_value_eq_zero (zero : x.shortest.value = 0) : x.shortest = ⟨0, 0⟩ := by
  rcases shortest_cases x with same | ⟨nonzero, digits, back, same⟩
  · exact same
  · obtain ⟨numerator, denominator, some, positive, ratio, -⟩ := round?_of_readsBack nonzero back
    have size : (numerator / denominator : ℚ) = 0 := by
      rw [← ratio, ← same, Digits.size, zero, Nat.cast_zero, zero_mul]
    rcases div_eq_zero_iff.mp size with top | bottom
    · exact absurd (Nat.cast_eq_zero.mp top) some
    · exact absurd (Nat.cast_eq_zero.mp bottom) positive.ne'

def Topmost (x : Binary64) : Prop :=
  2 ^ 53 - 3 ≤ x.mantissa ∧ x.mantissa < 2 ^ 53 ∧ x.exponent = greatestExponent

def calmBound : ℚ :=
  (2 ^ 53 - 7 / 2) * 2 ^ greatestExponent

private theorem calmBound_nonneg : 0 ≤ calmBound :=
  mul_nonneg (by norm_num) (by positivity)

theorem calmBound_rounded : calmBound * (1 + 1 / 2 ^ 53) ^ 2 < overflowBound := by
  rw [calmBound, overflowBound, mul_right_comm]
  exact mul_lt_mul_of_pos_right (by norm_num) (by positivity)

theorem calmBound_lt : calmBound < overflowBound :=
  (le_mul_of_one_le_right calmBound_nonneg (by norm_num)).trans_lt calmBound_rounded

/-- The shortest digits stay away from overflow, except for those of the greatest numbers. -/
theorem size_shortest_le (x : Binary64) : x.shortest.size ≤ calmBound ∨ x.Topmost := by
  have power : (0 : ℚ) < 2 ^ greatestExponent := by positivity
  rcases shortest_cases x with zero | ⟨nonzero, digits, back, same⟩
  · left
    rw [zero, Digits.size]
    simpa using calmBound_nonneg
  · obtain ⟨close, bits, most⟩ := size_le_of_readsBack nonzero back
    rw [same]
    by_cases top : 2 ^ 53 - 3 ≤ x.mantissa ∧ x.exponent = greatestExponent
    · exact .inr ⟨top.1, bits, top.2⟩
    left
    refine close.trans ?_
    rcases Int.lt_or_eq_of_le most with below | equal
    · have half : (2 : ℚ) ^ x.exponent ≤ 2 ^ greatestExponent / 2 := by
        rw [le_div_iff₀ two_pos, mul_comm, ← zpow_one_add₀ two_ne_zero]
        exact zpow_le_zpow_right₀ one_le_two (by omega)
      have bound : (x.mantissa : ℚ) + 1 / 2 ≤ 2 ^ 53 := by
        have whole : (x.mantissa : ℚ) + 1 ≤ 2 ^ 53 := by exact_mod_cast bits
        linarith
      calc ((x.mantissa : ℚ) + 1 / 2) * 2 ^ x.exponent
          ≤ 2 ^ 53 * (2 ^ greatestExponent / 2) := by gcongr
        _ = 2 ^ 52 * 2 ^ greatestExponent := by ring
        _ ≤ calmBound := mul_le_mul_of_nonneg_right (by norm_num) power.le
    · have small : x.mantissa + 4 ≤ 2 ^ 53 := by omega
      have bound : (x.mantissa : ℚ) + 1 / 2 ≤ 2 ^ 53 - 7 / 2 := by
        have whole : (x.mantissa : ℚ) + 4 ≤ 2 ^ 53 := by exact_mod_cast small
        linarith
      rw [equal]
      exact mul_le_mul_of_nonneg_right bound power.le

end Binary64

end SpecServer.Decimal
