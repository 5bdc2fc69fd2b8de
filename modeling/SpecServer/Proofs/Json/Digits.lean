import Mathlib.Algebra.Group.Nat.Defs
import SpecServer.Json.Reader
import SpecServer.Json.Writer
import SpecServer.Proofs.Text.Runs
set_option autoImplicit false

/-!
Reading runs of digits. As many digits as the bound allows are taken; all of them, if the number they are read as is below
the bound. Thus the integers of 64 bits are read back.
-/

namespace SpecServer.Json

variable {digits rest : List Char} {value bound n : Nat} {negative : Bool} {c : Char}

/-- Whether all characters are digits. -/
def Digital (text : List Char) : Prop :=
  ∀ c ∈ text, isDigit c = true

/-! ## The number of a run -/

theorem digitValue_lt (digit : isDigit c = true) : digitValue c < 10 := by
  simp only [isDigit, Bool.and_eq_true, decide_eq_true_eq, Char.le_def, UInt32.le_iff_toNat_le] at digit
  have most : c.toNat ≤ 57 := digit.2
  rw [digitValue]
  omega

theorem digitValue_ne_zero (digit : isDigit c = true) (other : c ≠ '0') : digitValue c ≠ 0 := by
  simp only [isDigit, Bool.and_eq_true, decide_eq_true_eq, Char.le_def, UInt32.le_iff_toNat_le] at digit
  have least : 48 ≤ c.toNat := digit.1
  intro zero
  rw [digitValue] at zero
  exact other (Char.toNat_inj.mp (show c.toNat = 48 by omega))

theorem ofDigitChars_cons (c : Char) (digits : List Char) (value : Nat) :
    Nat.ofDigitChars 10 (c :: digits) value = Nat.ofDigitChars 10 digits (value * 10 + digitValue c) := by
  rw [Nat.ofDigitChars_cons, Nat.mul_comm]
  rfl

private theorem le_ofDigitChars (digits : List Char) (value : Nat) : value ≤ Nat.ofDigitChars 10 digits value := by
  induction digits generalizing value with
  | nil => exact Nat.le_refl _
  | cons c digits ih =>
    rw [ofDigitChars_cons]
    exact Nat.le_trans (by omega) (ih _)

theorem ofDigitChars_lt (digital : Digital digits) (value : Nat) :
    Nat.ofDigitChars 10 digits value < (value + 1) * 10 ^ digits.length := by
  induction digits generalizing value with
  | nil => simp
  | cons c digits ih =>
    obtain ⟨first, later⟩ := List.forall_mem_cons.mp digital
    have small := digitValue_lt first
    rw [ofDigitChars_cons]
    calc Nat.ofDigitChars 10 digits (value * 10 + digitValue c)
        < (value * 10 + digitValue c + 1) * 10 ^ digits.length := ih later _
      _ ≤ (value + 1) * 10 * 10 ^ digits.length := Nat.mul_le_mul_right _ (by omega)
      _ = (value + 1) * 10 ^ (digits.length + 1) := by rw [Nat.pow_succ', Nat.mul_assoc]

theorem ofDigitChars_take_le (digits : List Char) (k : Nat) :
    Nat.ofDigitChars 10 (digits.take k) 0 * 10 ^ (digits.length - k) ≤ Nat.ofDigitChars 10 digits 0 := by
  calc Nat.ofDigitChars 10 (digits.take k) 0 * 10 ^ (digits.length - k)
      = 10 ^ (digits.drop k).length * Nat.ofDigitChars 10 (digits.take k) 0 := by rw [List.length_drop, Nat.mul_comm]
    _ ≤ Nat.ofDigitChars 10 (digits.drop k) (Nat.ofDigitChars 10 (digits.take k) 0) := by
      rw [Nat.ofDigitChars_eq_ofDigitChars_zero (l := digits.drop k)]
      exact Nat.le_add_right _ _
    _ = Nat.ofDigitChars 10 digits 0 := by rw [← Nat.ofDigitChars_append, List.take_append_drop]

/-! ## Reading a run -/

/-- So many digits of a run are taken, whatever follows it: at least those whose number is below the bound. -/
theorem boundedDigits_run (digital : Digital digits) (bound value : Nat) :
    ∃ k ≤ digits.length,
      (∀ j ≤ digits.length, Nat.ofDigitChars 10 (digits.take j) value < bound → j ≤ k) ∧
      ∀ count rest, Text.EndsRun isDigit rest → boundedDigits bound value count (digits ++ rest) =
        (Nat.ofDigitChars 10 (digits.take k) value, count + k, digits.drop k ++ rest) := by
  induction digits generalizing value with
  | nil =>
    refine ⟨0, Nat.le_refl _, fun _ least _ => least, fun count rest ends => ?_⟩
    cases rest with
    | nil => rfl
    | cons c rest =>
      rw [List.nil_append, boundedDigits, if_neg (by simp [ends c rfl])]
      rfl
  | cons c digits ih =>
    obtain ⟨first, later⟩ := List.forall_mem_cons.mp digital
    by_cases fits : value * 10 + digitValue c < bound
    · obtain ⟨k, most, least, read⟩ := ih later (value * 10 + digitValue c)
      refine ⟨k + 1, Nat.succ_le_succ most, ?_, fun count rest ends => ?_⟩
      · intro j inside below
        cases j with
        | zero => exact Nat.zero_le _
        | succ j =>
          rw [List.take_succ_cons, ofDigitChars_cons] at below
          exact Nat.succ_le_succ (least j (Nat.le_of_succ_le_succ inside) below)
      · rw [List.cons_append, boundedDigits, if_pos ⟨first, fits⟩, read _ _ ends, List.take_succ_cons, ofDigitChars_cons,
          List.drop_succ_cons, Nat.add_assoc, Nat.add_comm 1 k]
    · refine ⟨0, Nat.zero_le _, ?_, fun count rest ends => ?_⟩
      · intro j inside below
        cases j with
        | zero => exact Nat.le_refl _
        | succ j =>
          rw [List.take_succ_cons, ofDigitChars_cons] at below
          exact absurd (Nat.lt_of_le_of_lt (le_ofDigitChars _ _) below) fits
      · rw [List.cons_append, boundedDigits, if_neg fun taken => fits taken.2]
        rfl

theorem boundedDigits_all (digital : Digital digits) (below : Nat.ofDigitChars 10 digits value < bound) (count : Nat)
    (ends : Text.EndsRun isDigit rest) :
    boundedDigits bound value count (digits ++ rest) =
      (Nat.ofDigitChars 10 digits value, count + digits.length, rest) := by
  obtain ⟨k, most, least, read⟩ := boundedDigits_run digital bound value
  obtain rfl : k = digits.length :=
    Nat.le_antisymm most (least _ (Nat.le_refl _) (by rwa [List.take_of_length_le (Nat.le_refl _)]))
  rw [read count rest ends, List.take_of_length_le (Nat.le_refl _), List.drop_of_length_le (Nat.le_refl _),
    List.nil_append]

/-! ## Integers -/

/-- A run of digits before a point, as numbers have it: it starts with a zero only if that is all. -/
structure WholePart (digits : List Char) : Prop where
  digital : Digital digits
  nonempty : digits ≠ []
  plain : digits.head? = some '0' → digits = ['0']

/-- The integer part of a number that is below the bound is read as a whole. -/
theorem readNumber_run (whole : WholePart digits) (below : Nat.ofDigitChars 10 digits 0 < significandBound)
    (ends : Text.EndsRun isDigit rest) :
    readNumber negative (digits ++ rest) = afterInteger negative (Nat.ofDigitChars 10 digits 0) rest := by
  obtain ⟨digital, nonempty, plain⟩ := whole
  obtain ⟨c, digits, rfl⟩ := List.exists_cons_of_ne_nil nonempty
  obtain ⟨first, later⟩ := List.forall_mem_cons.mp digital
  by_cases zero : c = '0'
  · subst zero
    cases plain rfl
    cases rest with
    | nil => rfl
    | cons d rest =>
      have other : isDigit d = false := ends d rfl
      simp only [List.cons_append, List.nil_append, readNumber, other]
      rfl
  · have start : Nat.ofDigitChars 10 digits (digitValue c) = Nat.ofDigitChars 10 (c :: digits) 0 := by
      rw [ofDigitChars_cons, Nat.zero_mul, Nat.zero_add]
    have read := boundedDigits_all later (start ▸ below) 1 ends
    rw [List.cons_append, readNumber]
    · simp only [first, read, start]
      cases rest with
      | nil => rfl
      | cons d rest =>
        have other : isDigit d = false := ends d rfl
        simp only [other]
        rfl
    · exact zero

theorem digital_toDigits (n : Nat) : Digital (Nat.toDigits 10 n) := by
  intro c member
  have digit := Char.isDigit_iff_toNat.mp (Nat.isDigit_of_mem_toDigits (by decide) (by decide) member)
  simp only [isDigit, Bool.and_eq_true, decide_eq_true_eq, Char.le_def, UInt32.le_iff_toNat_le]
  exact digit

private theorem head_toDigits (nonzero : n ≠ 0) : (Nat.toDigits 10 n).head? ≠ some '0' := by
  induction n using Nat.strongRecOn with
  | ind n ih =>
    rw [Nat.toDigits_eq_if (by decide)]
    split
    next small =>
      have digits : ∀ d < 10, d ≠ 0 → Nat.digitChar d ≠ '0' := by decide
      exact fun same => digits n small nonzero (Option.some.inj same)
    next large =>
      obtain ⟨d, digits, written⟩ := List.exists_cons_of_ne_nil (Nat.toDigits_ne_nil (n := n / 10) (b := 10))
      have front := ih (n / 10) (by omega) (by omega)
      rw [written] at front ⊢
      exact front

/-- The first digit of a number, which is a zero for zero only, and the run behind it. -/
theorem toDigits_cases (n : Nat) : ∃ c digits, Nat.toDigits 10 n = c :: digits ∧ isDigit c = true ∧ Digital digits ∧
    Nat.ofDigitChars 10 digits (digitValue c) = n ∧ (n ≠ 0 → c ≠ '0') := by
  obtain ⟨c, digits, written⟩ := List.exists_cons_of_ne_nil (Nat.toDigits_ne_nil (n := n) (b := 10))
  obtain ⟨first, later⟩ := List.forall_mem_cons.mp (written ▸ digital_toDigits n)
  refine ⟨c, digits, written, first, later, ?_, ?_⟩
  · rw [← Nat.ofDigitChars_ten_toDigits (n := n), written, ofDigitChars_cons, Nat.zero_mul, Nat.zero_add]
  · rintro nonzero rfl
    have head := head_toDigits nonzero
    rw [written] at head
    exact head rfl

theorem wholePart_cons (first : isDigit c = true) (other : c ≠ '0') (later : Digital digits) : WholePart (c :: digits) where
  digital := List.forall_mem_cons.mpr ⟨first, later⟩
  nonempty := List.cons_ne_nil c digits
  plain zero := absurd (Option.some.inj zero) other

private theorem wholePart_toDigits (n : Nat) : WholePart (Nat.toDigits 10 n) := by
  by_cases zero : n = 0
  · subst zero
    exact ⟨digital_toDigits 0, Nat.toDigits_ne_nil, fun _ => rfl⟩
  · obtain ⟨c, digits, written, first, later, -, other⟩ := toDigits_cases n
    rw [written]
    exact wholePart_cons first (other zero) later

/-- What may follow a number: nothing that could be a part of it. -/
def Stops (rest : List Char) : Prop :=
  Text.EndsRun (fun c => isDigit c || c == '.' || c == 'e' || c == 'E') rest

theorem Stops.endsRun (stops : Stops rest) : Text.EndsRun isDigit rest := by
  intro c first
  have other := stops c first
  simp only [Bool.or_eq_false_iff] at other
  exact other.1.1.1

private theorem Stops.afterInteger (stops : Stops rest) (negative : Bool) (n : Nat) :
    afterInteger negative n rest = .ok (signedNumber negative n, rest) := by
  cases rest with
  | nil => rfl
  | cons c rest =>
    have other := stops c rfl
    simp only [Bool.or_eq_false_iff, beq_eq_false_iff_ne] at other
    rw [Json.afterInteger]
    · intro _ same
      exact other.1.1.2 (List.cons.inj same).1
    · intro _ same
      exact other.1.2 (List.cons.inj same).1
    · intro _ same
      exact other.2 (List.cons.inj same).1

theorem readNumber_toDigits (small : n < 2 ^ 64) (stops : Stops rest) (negative : Bool) :
    readNumber negative (Nat.toDigits 10 n ++ rest) = .ok (signedNumber negative n, rest) := by
  rw [readNumber_run (wholePart_toDigits n) (by rwa [Nat.ofDigitChars_ten_toDigits]) stops.endsRun,
    Nat.ofDigitChars_ten_toDigits, stops.afterInteger]

end SpecServer.Json
