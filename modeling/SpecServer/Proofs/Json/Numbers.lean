import SpecServer.Proofs.Json.Floats
set_option autoImplicit false

/-!
The texts of numbers are read. An integer of 64 bits is read back; a floating-point number may come back as a neighbour, as
the reader rounds more than once, but its text is always one of a number.
-/

namespace SpecServer.Json

open Decimal (Binary64)

variable {significand n : Nat} {exponent : Int} {x : Binary64} {negative : Bool} {digits fraction rest : List Char}

/-! ## The parts of a number with a point or an exponent -/

private theorem floatOr_of_some (found : float? negative significand exponent = some x) (rest : List Char) :
    floatOr negative significand exponent rest = .ok (.float x, rest) := by
  rw [floatOr, found]

private theorem Stops.exponentOrEnd (stops : Stops rest) (negative : Bool) (significand : Nat) (exponent : Int) :
    exponentOrEnd negative significand exponent rest = floatOr negative significand exponent rest := by
  cases rest with
  | nil => rfl
  | cons c rest =>
    have other := stops c rfl
    simp only [Bool.or_eq_false_iff, beq_eq_false_iff_ne] at other
    rw [Json.exponentOrEnd]
    · intro _ same
      exact other.1.2 (List.cons.inj same).1
    · intro _ same
      exact other.2 (List.cons.inj same).1

/-- At least one digit behind the point is taken if there is room for it. -/
theorem fractionPart_run (digital : Digital digits) (nonempty : digits ≠ [])
    (room : (significand + 1) * 10 ≤ significandBound) :
    ∃ k, 0 < k ∧ k ≤ digits.length ∧ ∀ negative exponent rest, Text.EndsRun isDigit rest →
      fractionPart negative significand exponent (digits ++ rest) =
        exponentOrEnd negative (Nat.ofDigitChars 10 (digits.take k) significand) (exponent - k) rest := by
  obtain ⟨k, most, least, read⟩ := boundedDigits_run digital significandBound significand
  have some : 0 < k := by
    refine least 1 (List.length_pos_iff.mpr nonempty) ?_
    obtain ⟨c, digits, rfl⟩ := List.exists_cons_of_ne_nil nonempty
    have small := digitValue_lt (digital c List.mem_cons_self)
    rw [List.take_succ_cons, List.take_zero, ofDigitChars_cons, Nat.ofDigitChars_nil]
    omega
  refine ⟨k, some, most, fun negative exponent rest ends => ?_⟩
  have left : Digital (digits.drop k) := fun c inside => digital c (List.mem_of_mem_drop inside)
  have dropped : (digits.drop k ++ rest).dropWhile isDigit = rest := (Text.takeWhile_run left ends).2
  rw [fractionPart, read 0 rest ends, Nat.zero_add]
  -- digits that do not fit are skipped
  cases further : digits.drop k with
  | nil =>
    cases rest with
    | nil => simp only [List.append_nil, some.ne', ↓reduceIte]
    | cons c rest =>
      have other : isDigit c = false := ends c rfl
      simp only [List.nil_append, other, Bool.false_eq_true, some.ne', ↓reduceIte]
  | cons c more =>
    have digit : isDigit c = true := left c (further ▸ List.mem_cons_self)
    rw [further, List.cons_append] at dropped
    simp only [List.cons_append, digit, ↓reduceIte, dropped]

/-- A number with digits before and behind its point is read if there are not too many before it. -/
theorem readNumber_plain (whole : WholePart digits) (short : digits.length ≤ 16) (digital : Digital fraction)
    (nonempty : fraction ≠ []) (negative : Bool) :
    ∃ x, ∀ rest, Stops rest → readNumber negative (digits ++ '.' :: (fraction ++ rest)) = .ok (.float x, rest) := by
  have bound : Nat.ofDigitChars 10 digits 0 < 10 ^ 16 := by
    have less := ofDigitChars_lt whole.digital 0
    rw [Nat.zero_add, Nat.one_mul] at less
    exact Nat.lt_of_lt_of_le less (Nat.pow_le_pow_right (by decide) short)
  have room : (Nat.ofDigitChars 10 digits 0 + 1) * 10 ≤ significandBound :=
    Nat.le_trans (Nat.mul_le_mul_right 10 bound) (by decide)
  obtain ⟨k, some, -, read⟩ := fractionPart_run digital nonempty room
  obtain ⟨x, found⟩ := float?_of_neg (show (0 : Int) - k < 0 by omega) negative
    (Nat.ofDigitChars 10 (fraction.take k) (Nat.ofDigitChars 10 digits 0))
  refine ⟨x, fun rest stops => ?_⟩
  rw [readNumber_run whole (by omega) (Text.endsRun_cons rfl _), afterInteger, read _ _ _ stops.endsRun, stops.exponentOrEnd,
    floatOr_of_some found]

private theorem exponentPart_down (least : exponent ≤ 0) (nonzero : n ≠ 0) (negative : Bool) (significand : Nat) :
    ∃ x, ∀ rest, Stops rest →
      exponentPart negative significand exponent ('-' :: (Nat.toDigits 10 n ++ rest)) = .ok (.float x, rest) := by
  obtain ⟨c, after, written, first, later, number, -⟩ := toDigits_cases n
  obtain ⟨k, most, -, read⟩ := boundedDigits_run later exponentBound (digitValue c)
  rw [written]
  -- an exponent that does not fit makes the number zero, as it is negative
  cases further : after.drop k with
  | nil =>
    have all : after.take k = after := by
      rw [List.drop_eq_nil_iff] at further
      exact List.take_of_length_le further
    obtain ⟨x, found⟩ := float?_of_neg (show exponent - n < 0 by omega) negative significand
    refine ⟨x, fun rest stops => ?_⟩
    simp only [exponentPart, List.cons_append, first, Bool.not_true, Bool.false_eq_true, ↓reduceIte,
      read 1 rest stops.endsRun, further, all, number, List.nil_append]
    cases rest with
    | nil => exact floatOr_of_some found []
    | cons d rest =>
      have other : isDigit d = false := stops.endsRun d rfl
      simp only [other, Bool.false_eq_true, ↓reduceIte]
      exact floatOr_of_some found (d :: rest)
  | cons d more =>
    refine ⟨.zero negative, fun rest stops => ?_⟩
    have left : Digital (d :: more) := fun c inside => later c (List.mem_of_mem_drop (further ▸ inside))
    obtain ⟨digit, others⟩ := List.forall_mem_cons.mp left
    simp only [exponentPart, List.cons_append, first, Bool.not_true, Bool.false_eq_true, ↓reduceIte,
      read 1 rest stops.endsRun, further, digit, Bool.not_true, and_false, (Text.takeWhile_run others stops.endsRun).2]

private theorem exponentPart_up (found : float? negative significand (exponent + n) = some x)
    (small : n < exponentBound)
    (stops : Stops rest) :
    exponentPart negative significand exponent ('+' :: (Nat.toDigits 10 n ++ rest)) = .ok (.float x, rest) := by
  obtain ⟨c, after, written, first, later, number, -⟩ := toDigits_cases n
  rw [written]
  simp only [exponentPart, List.cons_append, first, Bool.not_true, Bool.false_eq_true, ↓reduceIte,
    boundedDigits_all later (number ▸ small) 1 stops.endsRun, number]
  cases rest with
  | nil => exact floatOr_of_some found []
  | cons d rest =>
    have other : isDigit d = false := stops.endsRun d rfl
    simp only [other, Bool.false_eq_true, ↓reduceIte]
    exact floatOr_of_some found (d :: rest)

/-! ## Floating-point numbers -/

def significandText : List Char → List Char
  | [] => []
  | [d] => [d]
  | d :: rest => d :: '.' :: rest

private theorem readNumber_significand (nonzero : n ≠ 0) :
    ∃ k, 0 < k ∧ k ≤ (Nat.toDigits 10 n).length ∧ ∀ negative text,
      readNumber negative (significandText (Nat.toDigits 10 n) ++ 'e' :: text) =
        exponentPart negative (Nat.ofDigitChars 10 ((Nat.toDigits 10 n).take k) 0) (-(k - 1 : Int)) text := by
  obtain ⟨c, after, written, first, later, -, other⟩ := toDigits_cases n
  rw [written]
  have whole : WholePart [c] := wholePart_cons first (other nonzero) nofun
  have value : Nat.ofDigitChars 10 [c] 0 = digitValue c := by
    rw [ofDigitChars_cons, Nat.ofDigitChars_nil, Nat.zero_mul, Nat.zero_add]
  have small := digitValue_lt first
  have below : Nat.ofDigitChars 10 [c] 0 < significandBound := value ▸ Nat.lt_trans small (by decide)
  cases after with
  | nil =>
    refine ⟨1, Nat.one_pos, Nat.le_refl _, fun negative text => ?_⟩
    exact readNumber_run whole below (Text.endsRun_cons rfl text)
  | cons d after =>
    have room : (digitValue c + 1) * 10 ≤ significandBound :=
      Nat.le_trans (Nat.mul_le_mul_right 10 small) (by decide)
    obtain ⟨k, some, most, read⟩ := fractionPart_run later (by simp) room
    refine ⟨k + 1, Nat.succ_pos k, Nat.succ_le_succ most, fun negative text => ?_⟩
    rw [List.take_succ_cons, ofDigitChars_cons, Nat.zero_mul, Nat.zero_add]
    calc readNumber negative ([c] ++ '.' :: (d :: after ++ 'e' :: text))
        = fractionPart negative (digitValue c) 0 (d :: after ++ 'e' :: text) := by
          rw [readNumber_run whole below (Text.endsRun_cons rfl _), value, afterInteger]
      _ = exponentPart negative (Nat.ofDigitChars 10 ((d :: after).take k) (digitValue c)) (0 - k) text := by
          rw [read _ _ _ (Text.endsRun_cons rfl text), exponentOrEnd]
      _ = _ := by
          congr 1
          omega

private theorem exponent_le_of_float? (nonzero : significand ≠ 0)
    (found : float? negative significand exponent = some x) :
    exponent ≤ 308 := by
  by_contra great
  rw [float?, if_pos (show 0 ≤ exponent by omega), if_neg great, if_neg nonzero] at found
  cases found

private theorem leading_le {digits : Decimal.Digits} (nonzero : digits.value ≠ 0) (readable : Readable digits) :
    digits.power + (Nat.toDigits 10 digits.value).length - 1 ≤ 308 := by
  obtain ⟨c, after, written, first, -, -, other⟩ := toDigits_cases digits.value
  obtain ⟨x, found⟩ := readable false 1 Nat.one_pos (by simp [written])
  rw [written] at found ⊢
  have value : Nat.ofDigitChars 10 ((c :: after).take 1) 0 ≠ 0 := by
    rw [List.take_succ_cons, List.take_zero, ofDigitChars_cons, Nat.ofDigitChars_nil, Nat.zero_mul, Nat.zero_add]
    exact digitValue_ne_zero first (other nonzero)
  have most := exponent_le_of_float? value found
  simp only [List.length_cons] at most ⊢
  omega

private theorem readNumber_scientific (nonzero : n ≠ 0) {power leading : Int} (readable : Readable ⟨n, power⟩)
    (lead : leading = power + (Nat.toDigits 10 n).length - 1) (negative : Bool) :
    ∃ x, ∀ rest, Stops rest → readNumber negative (significandText (Nat.toDigits 10 n) ++ 'e' ::
      ((if leading < 0 then '-' else '+') :: (Nat.toDigits 10 leading.natAbs ++ rest))) = .ok (.float x, rest) := by
  have small : leading ≤ 308 := lead ▸ leading_le nonzero readable
  obtain ⟨k, some, most, read⟩ := readNumber_significand nonzero
  simp only [read negative]
  split
  next below => exact exponentPart_down (by omega) (by omega) negative _
  next above =>
    obtain ⟨x, found⟩ := readable negative k some most
    have exponent : -(k - 1 : Int) + leading.natAbs = power + ((Nat.toDigits 10 n).length - k : ℕ) := by omega
    have bounded : leading.natAbs < exponentBound := Nat.lt_of_le_of_lt (m := 308) (by omega) (by decide)
    exact ⟨x, fun rest stops => exponentPart_up (exponent ▸ found) bounded stops⟩

/-- The digits before and behind the point of a number: a zero, or some of the digits. -/
theorem pointed_cases (digits : List Char) (places : Nat) :
    (∃ zeros, Decimal.pointed digits places = ['0'] ++ '.' :: (List.replicate zeros '0' ++ digits)) ∨
      places < digits.length ∧ Decimal.pointed digits places =
        digits.take (digits.length - places) ++ '.' :: digits.drop (digits.length - places) := by
  rcases Nat.lt_or_ge places digits.length with longer | shorter
  · right
    rw [Decimal.pointed, show places + 1 - digits.length = 0 by omega]
    exact ⟨longer, rfl⟩
  · left
    refine ⟨places - digits.length, ?_⟩
    have length : (List.replicate (places + 1 - digits.length) '0' ++ digits).length - places = 1 := by
      rw [List.length_append, List.length_replicate]
      omega
    rw [Decimal.pointed, length, show places + 1 - digits.length = places - digits.length + 1 by omega,
      List.replicate_succ]
    rfl

private theorem digital_zeros (count : Nat) : Digital (List.replicate count '0') := by
  intro c member
  rw [List.eq_of_mem_replicate member]
  rfl

private theorem wholePart_zero : WholePart ['0'] where
  digital := digital_zeros 1
  nonempty := by simp
  plain _ := rfl

/-- A front part of the digits of a number other than zero may stand before the point. -/
theorem wholePart_take (nonzero : n ≠ 0) {count : Nat} (some : 0 < count) :
    WholePart ((Nat.toDigits 10 n).take count) := by
  obtain ⟨c, after, written, first, later, -, other⟩ := toDigits_cases n
  obtain ⟨count, rfl⟩ := Nat.exists_eq_succ_of_ne_zero (Nat.ne_of_gt some)
  rw [written, List.take_succ_cons]
  exact wholePart_cons first (other nonzero) fun d member => later d (List.mem_of_mem_take member)

private theorem wholePart_zeros {count : Nat} (only : n = 0 → count = 0) :
    WholePart (Nat.toDigits 10 n ++ List.replicate count '0') := by
  by_cases zero : n = 0
  · subst zero
    rw [only rfl]
    exact wholePart_zero
  · obtain ⟨c, after, written, first, later, -, other⟩ := toDigits_cases n
    rw [written]
    exact wholePart_cons first (other zero) (List.forall_mem_append.mpr ⟨later, digital_zeros count⟩)

private theorem readNumber_pointed (nonzero : n ≠ 0) {places : Nat} (some : 0 < places)
    (short : (Nat.toDigits 10 n).length ≤ places + 16) (negative : Bool) :
    ∃ x, ∀ rest, Stops rest →
      readNumber negative (Decimal.pointed (Nat.toDigits 10 n) places ++ rest) = .ok (.float x, rest) := by
  rcases pointed_cases (Nat.toDigits 10 n) places with ⟨zeros, split⟩ | ⟨longer, split⟩
  · have digital : Digital (List.replicate zeros '0' ++ Nat.toDigits 10 n) :=
      List.forall_mem_append.mpr ⟨digital_zeros zeros, digital_toDigits n⟩
    obtain ⟨x, read⟩ := readNumber_plain wholePart_zero (by decide) digital (by simp [Nat.toDigits_ne_nil]) negative
    refine ⟨x, fun rest stops => ?_⟩
    rw [split, List.append_assoc]
    exact read rest stops
  · have whole := wholePart_take nonzero (show 0 < (Nat.toDigits 10 n).length - places by omega)
    have digital : Digital ((Nat.toDigits 10 n).drop ((Nat.toDigits 10 n).length - places)) :=
      fun c member => digital_toDigits n c (List.mem_of_mem_drop member)
    have more : (Nat.toDigits 10 n).drop ((Nat.toDigits 10 n).length - places) ≠ [] := by
      rw [Ne, List.drop_eq_nil_iff]
      omega
    obtain ⟨x, read⟩ := readNumber_plain whole (by rw [List.length_take]; omega) digital more negative
    refine ⟨x, fun rest stops => ?_⟩
    rw [split, List.append_assoc]
    exact read rest stops

theorem isDigit_of_readNumber {text : List Char} {found : Number × List Char}
    (read : readNumber negative text = .ok found) : ∃ c after, text = c :: after ∧ isDigit c = true := by
  cases text with
  | nil => cases read
  | cons c after =>
    refine ⟨c, after, rfl, ?_⟩
    by_contra other
    rw [readNumber] at read
    · simp only [other, Bool.not_false, ↓reduceIte] at read
      cases read
    · rintro rfl
      exact other rfl

/-- The text of a floating-point number, behind its sign, is read as a number, whatever follows it. -/
theorem readNumber_write (x : Binary64) :
    ∃ text y, floatLayout.write x = (if x.negative then ['-'] else []) ++ text ∧
      ∀ rest, Stops rest → readNumber x.negative (text ++ rest) = .ok (.float y, rest) := by
  have zero : x.shortest.value = 0 → x.shortest = ⟨0, 0⟩ := Binary64.shortest_of_value_eq_zero
  have readable : x.shortest.value ≠ 0 → Readable x.shortest := readable_shortest
  simp only [Decimal.FloatLayout.write]
  generalize x.shortest = shortest at zero readable ⊢
  obtain ⟨n, power⟩ := shortest
  simp only [Decimal.Digits.mk.injEq] at zero readable ⊢
  have single : n = 0 → power + (Nat.toDigits 10 n).length - 1 = 0 := by
    intro same
    obtain ⟨rfl, rfl⟩ := zero same
    rfl
  split
  next =>
    obtain ⟨y, read⟩ := readNumber_plain wholePart_zero (by decide) (digital_zeros 1) (by simp) x.negative
    exact ⟨['0', '.', '0'], y, rfl, read⟩
  next =>
    simp only [floatLayout]
    split
    next plain =>
      -- without an exponent there are at most sixteen digits before the point, so they all fit
      split
      next least =>
        have whole : WholePart (Nat.toDigits 10 n ++ List.replicate power.toNat '0') :=
          wholePart_zeros fun same => by rw [(zero same).2]; rfl
        have short : (Nat.toDigits 10 n ++ List.replicate power.toNat '0').length ≤ 16 := by
          rw [List.length_append, List.length_replicate]
          omega
        obtain ⟨y, read⟩ := readNumber_plain whole short (digital_zeros 1) (by simp) x.negative
        refine ⟨Nat.toDigits 10 n ++ List.replicate power.toNat '0' ++ ['.', '0'], y, by simp, fun rest stops => ?_⟩
        rw [List.append_assoc]
        exact read rest stops
      next below =>
        have nonzero : n ≠ 0 := fun same => below (by rw [(zero same).2])
        obtain ⟨y, read⟩ := readNumber_pointed nonzero (show 0 < (-power).toNat by omega) (by omega) x.negative
        exact ⟨_, y, rfl, read⟩
    next signed =>
      have nonzero : n ≠ 0 := by
        intro same
        rw [single same] at signed
        exact signed (by decide)
      obtain ⟨y, read⟩ := readNumber_scientific nonzero (readable nonzero) rfl x.negative
      refine ⟨significandText (Nat.toDigits 10 n) ++ 'e' ::
        (if power + (Nat.toDigits 10 n).length - 1 < 0 then '-' else '+') ::
          Nat.toDigits 10 (power + (Nat.toDigits 10 n).length - 1).natAbs, y, ?_, fun rest stops => ?_⟩
      · rw [List.append_assoc, significandText.eq_def]
        congr 3
        split <;> rfl
      · rw [List.append_assoc]
        exact read rest stops

end SpecServer.Json
