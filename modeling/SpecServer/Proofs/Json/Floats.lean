import SpecServer.Proofs.Decimal.Shortest
import SpecServer.Proofs.Json.Digits
set_option autoImplicit false

/-!
Floating-point numbers are read. The reader rounds the digits, a power of ten and their product, each of which may lead
upwards, so it could overflow on digits that stand for a finite number. The shortest digits of a number stay far enough
below the bound of overflow; those of the three greatest numbers are looked at one by one.
-/

namespace SpecServer

namespace Decimal.Binary64

private theorem fraction_pos (x : Binary64) : 0 < x.fraction.2 := by
  rw [fraction]
  split
  · exact Nat.one_pos
  · exact Nat.two_pow_pos _

private theorem fraction_ratio (x : Binary64) : (x.fraction.1 / x.fraction.2 : ℚ) = x.magnitude := by
  rw [fraction, magnitude]
  split
  next least =>
    obtain ⟨n, same⟩ := Int.eq_ofNat_of_zero_le least
    simp [same]
  next below =>
    obtain ⟨n, same⟩ := Int.eq_ofNat_of_zero_le (show 0 ≤ -x.exponent by omega)
    rw [same, show x.exponent = -(n : Int) by omega]
    simp [div_eq_mul_inv]

theorem mul?_of_lt {left right : Binary64} (small : left.magnitude * right.magnitude < overflowBound) :
    ∃ x, left.mul? right = some x := by
  refine round?_of_lt (Nat.mul_pos left.fraction_pos right.fraction_pos) ?_
  rw [← fraction_ratio, ← fraction_ratio, div_mul_div_comm] at small
  exact_mod_cast small

private theorem ofDecimal?_nat {n power : Nat} (nonzero : n ≠ 0) (small : power ≤ 400) (negative : Bool) :
    ofDecimal? negative n power = round? negative (n * 10 ^ power) 1 := by
  rw [ofDecimal?, if_neg nonzero, if_neg (by omega), if_neg (by omega), if_pos (Int.natCast_nonneg power)]
  rfl

/-- A natural number that does not overflow is rounded upwards by a small part of it only. -/
theorem magnitude_ofDecimal?_le {n power : Nat} (small : power ≤ 400) (below : (n * 10 ^ power : ℚ) < overflowBound)
    (negative : Bool) :
    ((ofDecimal? negative n power).getD (.zero negative)).magnitude ≤ n * 10 ^ power * (1 + 1 / 2 ^ 53) := by
  by_cases zero : n = 0
  · rw [ofDecimal?, if_pos zero, Option.getD_some, magnitude, Binary64.zero, Nat.cast_zero, zero_mul]
    positivity
  have ratio : ((n * 10 ^ power : ℕ) / (1 : ℕ) : ℚ) = n * 10 ^ power := by simp
  have large : (1 : ℚ) ≤ (n * 10 ^ power : ℕ) / (1 : ℕ) := by
    have some : 1 ≤ n * 10 ^ power := Nat.mul_pos (Nat.pos_of_ne_zero zero) (Nat.pow_pos (by decide))
    rw [Nat.cast_one, div_one]
    exact_mod_cast some
  obtain ⟨x, rounded⟩ : ∃ x, round? negative (n * 10 ^ power) 1 = some x := round?_of_lt Nat.one_pos (ratio ▸ below)
  rw [ofDecimal?_nat zero small, rounded, Option.getD_some]
  exact ratio ▸ magnitude_le_of_round? Nat.one_pos large rounded

private theorem overflowBound_eq : overflowBound * 2 = ((2 ^ 54 - 1) * 2 ^ 971 : ℕ) := by
  have unit : (2 : ℚ) ^ greatestExponent = (2 ^ 971 : ℕ) := by
    rw [Nat.cast_pow]
    exact zpow_natCast 2 971
  rw [overflowBound, unit, Nat.cast_mul]
  -- no tactic may work out the power itself
  generalize ((2 ^ 971 : ℕ) : ℚ) = unit
  norm_num
  ring

theorem tenPower_lt_iff (power : Nat) : (10 ^ power : ℚ) < overflowBound ↔ power ≤ 308 := by
  have below : 10 ^ 308 * 2 < (2 ^ 54 - 1) * 2 ^ 971 := by decide +kernel
  have above : (2 ^ 54 - 1) * 2 ^ 971 < 10 ^ 309 * 2 := by decide +kernel
  rw [← mul_lt_mul_iff_left₀ two_pos, overflowBound_eq]
  generalize (2 ^ 54 - 1) * 2 ^ 971 = bound at below above ⊢
  have exact : (10 ^ power : ℚ) * 2 < (bound : ℕ) ↔ 10 ^ power * 2 < bound := by exact_mod_cast Iff.rfl
  have next : ∀ high, bound < 10 ^ high * 2 → 10 ^ power * 2 < bound → power < high := by
    intro high more less
    have order : 10 ^ power < 10 ^ high := by omega
    exact (Nat.pow_lt_pow_iff_right (by decide)).mp order
  have prior : ∀ low, 10 ^ low * 2 < bound → power ≤ low → 10 ^ power * 2 < bound :=
    fun low less small => (Nat.mul_le_mul_right 2 (Nat.pow_le_pow_right (by decide) small)).trans_lt less
  exact exact.trans ⟨fun less => Nat.le_of_lt_succ (next 309 above less), prior 308 below⟩

end Decimal.Binary64

namespace Json

open Decimal (Binary64)

variable {significand : Nat} {exponent : Int} {x : Binary64}

/-! ## Decimal numbers that are read -/

theorem float?_of_neg (below : exponent < 0) (negative : Bool) (significand : Nat) :
    ∃ x, float? negative significand exponent = some x := by
  simp only [float?, if_neg (show ¬0 ≤ exponent by omega), Option.map_some]
  exact ⟨_, rfl⟩

private theorem float?_of_le {power : Nat} (small : power ≤ 308)
    (calm : (significand * 10 ^ power : ℚ) ≤ Binary64.calmBound)
    (negative : Bool) : ∃ x, float? negative significand power = some x := by
  have whole : (1 : ℚ) ≤ 10 ^ power := one_le_pow₀ (by norm_num)
  have alone : (significand * 10 ^ 0 : ℚ) < Binary64.overflowBound := by
    rw [pow_zero, mul_one]
    exact ((le_mul_of_one_le_right (Nat.cast_nonneg _) whole).trans calm).trans_lt Binary64.calmBound_lt
  have unit : ((1 : ℕ) * 10 ^ power : ℚ) < Binary64.overflowBound := by
    rw [Nat.cast_one, one_mul]
    exact (Binary64.tenPower_lt_iff power).mpr small
  have start := Binary64.magnitude_ofDecimal?_le (Nat.zero_le _) alone false
  have factor := Binary64.magnitude_ofDecimal?_le (by omega) unit false
  -- the significand and the power of ten may both have been rounded upwards
  obtain ⟨x, found⟩ := Binary64.mul?_of_lt <|
    calc ((Binary64.ofDecimal? false significand 0).getD (.zero false)).magnitude * (powerOfTen power).magnitude
        ≤ significand * 10 ^ 0 * (1 + 1 / 2 ^ 53) * ((1 : ℕ) * 10 ^ power * (1 + 1 / 2 ^ 53)) :=
          mul_le_mul start factor (by rw [Binary64.magnitude]; positivity) (by positivity)
      _ = significand * 10 ^ power * (1 + 1 / 2 ^ 53) ^ 2 := by
          rw [Nat.cast_one]
          ring
      _ ≤ Binary64.calmBound * (1 + 1 / 2 ^ 53) ^ 2 := by gcongr
      _ < Binary64.overflowBound := Binary64.calmBound_rounded
  refine ⟨{ x with negative := negative }, ?_⟩
  simp only [float?, Int.natCast_nonneg, ↓reduceIte, Nat.cast_le_ofNat, small, Int.toNat_natCast, found, Option.map_some]

/-! ## Front parts of the shortest digits -/

/-- Whether the reader makes a number of each front part of some digits, with zeros for the others: it may leave out
digits behind the point that do not fit. -/
def Readable (digits : Decimal.Digits) : Prop :=
  ∀ negative k, 0 < k → k ≤ (Nat.toDigits 10 digits.value).length →
    ∃ x, float? negative (Nat.ofDigitChars 10 ((Nat.toDigits 10 digits.value).take k) 0)
      (digits.power + ((Nat.toDigits 10 digits.value).length - k : ℕ)) = some x

private theorem tenPower_le {n : Nat} (nonzero : n ≠ 0) : 10 ^ ((Nat.toDigits 10 n).length - 1) ≤ n := by
  by_contra small
  rcases Nat.eq_zero_or_pos ((Nat.toDigits 10 n).length - 1) with single | more
  · rw [single] at small
    omega
  · have shorter := (Nat.length_toDigits_le_iff (by decide) more).mpr (Nat.lt_of_not_le small)
    omega

private theorem readable_of_le {digits : Decimal.Digits} (nonzero : digits.value ≠ 0)
    (calm : digits.size ≤ Binary64.calmBound) :
    Readable digits := by
  intro negative k some most
  -- with the digits' own power of ten, both the leading digit and the front part stay below the number itself
  have lead := tenPower_le nonzero
  have front := ofDigitChars_take_le (Nat.toDigits 10 digits.value) k
  rw [Nat.ofDigitChars_ten_toDigits] at front
  generalize (Nat.toDigits 10 digits.value).length = length at most lead front ⊢
  generalize Nat.ofDigitChars 10 ((Nat.toDigits 10 digits.value).take k) 0 = significand at front ⊢
  by_cases below : digits.power + (length - k : ℕ) < 0
  · exact float?_of_neg below negative significand
  obtain ⟨power, same⟩ := Int.eq_ofNat_of_zero_le (Int.not_lt.mp below)
  have unit : (0 : ℚ) < 10 ^ digits.power := by positivity
  have split : ∀ more : ℕ, (10 : ℚ) ^ (power + more) = 10 ^ (length - k + more) * 10 ^ digits.power := by
    intro more
    rw [← zpow_natCast, ← zpow_natCast, ← zpow_add₀ (by norm_num)]
    congr 1
    push_cast
    omega
  have bounded : ∀ n : ℕ, n ≤ digits.value → (n : ℚ) * 10 ^ digits.power ≤ Binary64.calmBound := by
    intro n less
    exact (mul_le_mul_of_nonneg_right (by exact_mod_cast less) unit.le).trans calm
  rw [same]
  apply float?_of_le
  · rw [← Binary64.tenPower_lt_iff]
    calc (10 : ℚ) ^ power ≤ 10 ^ (power + (k - 1)) := pow_le_pow_right₀ (by norm_num) (Nat.le_add_right _ _)
      _ = (10 ^ (length - 1) : ℕ) * 10 ^ digits.power := by
        rw [split, show length - k + (k - 1) = length - 1 by omega, Nat.cast_pow, Nat.cast_ofNat]
      _ ≤ Binary64.calmBound := bounded _ lead
      _ < Binary64.overflowBound := Binary64.calmBound_lt
  · calc (significand : ℚ) * 10 ^ power
        = (significand * 10 ^ (length - k) : ℕ) * 10 ^ digits.power := by
          have whole := split 0
          rw [Nat.add_zero, Nat.add_zero] at whole
          rw [whole, Nat.cast_mul, Nat.cast_pow, Nat.cast_ofNat, mul_assoc]
      _ ≤ Binary64.calmBound := bounded _ front

/-- The three greatest numbers have seventeen digits each, and all front parts of these are read. -/
theorem readable_topmost (topmost : x.Topmost) : Readable x.shortest := by
  have digits : ∀ negative, ∀ i < 3, Binary64.shortest ⟨negative, 2 ^ 53 - 3 + i, Binary64.greatestExponent⟩ =
      ⟨17976931348623153 + 2 * i, 292⟩ := by decide +kernel
  have length : ∀ i < 3, (Nat.toDigits 10 (17976931348623153 + 2 * i)).length = 17 := by decide +kernel
  have read : ∀ negative, ∀ i < 3, ∀ k < 17, (float? negative (Nat.ofDigitChars 10
      ((Nat.toDigits 10 (17976931348623153 + 2 * i)).take (k + 1)) 0) (292 + (17 - (k + 1) : ℕ))).isSome := by
    decide +kernel
  obtain ⟨negative, mantissa, exponent⟩ := x
  obtain ⟨least, most, top⟩ := topmost
  obtain ⟨i, same⟩ := Nat.exists_eq_add_of_le least
  have small : i < 3 := by
    simp only at most same
    omega
  simp only at same top
  subst same top
  intro sign k some inside
  obtain ⟨k, rfl⟩ := Nat.exists_eq_add_of_lt some
  rw [digits negative i small] at inside ⊢
  simp only [length i small] at inside ⊢
  exact Option.isSome_iff_exists.mp (read sign i small _ (by omega))

theorem readable_shortest (nonzero : x.shortest.value ≠ 0) : Readable x.shortest := by
  rcases x.size_shortest_le with calm | topmost
  · exact readable_of_le nonzero calm
  · exact readable_topmost topmost

end Json

end SpecServer
