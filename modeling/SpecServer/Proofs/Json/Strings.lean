import SpecServer.Json.Reader
import SpecServer.Json.Writer
set_option autoImplicit false

/-!
Strings are read back, whatever characters they hold: a character is written as itself, with a backslash, or as the four
digits of a control character.
-/

namespace SpecServer.Json

variable {c : Char} {fuel : Nat} {read text rest : List Char}

/-- A control character without an escape of its own is written in four digits. -/
theorem hexEscape_control (control : c.toNat < 0x20) (text : List Char) :
    hexEscape ('0' :: '0' :: Nat.digitChar (c.toNat / 16) :: Nat.digitChar (c.toNat % 16) :: text) =
      .ok (c.toNat, text) := by
  have digits : ∀ n < 0x20, Decimal.digits? 16 ['0', '0', Nat.digitChar (n / 16), Nat.digitChar (n % 16)] = some n := by
    decide
  have long : ¬Text.byteLength
      ('0' :: '0' :: Nat.digitChar (c.toNat / 16) :: Nat.digitChar (c.toNat % 16) :: text) < 4 := by
    have first := (Nat.digitChar (c.toNat / 16)).utf8Size_pos
    have second := (Nat.digitChar (c.toNat % 16)).utf8Size_pos
    have zero : ('0' : Char).utf8Size = 1 := rfl
    simp only [Text.byteLength_cons, zero]
    omega
  simp only [hexEscape, if_neg long, List.take_succ_cons, List.take_zero, digits _ control, List.drop_succ_cons,
    List.drop_zero]

private theorem stringFrom_stringChar (c : Char) (fuel : Nat) (read text : List Char) :
    stringFrom (fuel + 1) read (stringChar c ++ text) = stringFrom fuel (c :: read) text := by
  rw [stringChar.eq_def]
  split
  iterate 7 rfl
  next quote slash back form line carriage tab =>
    split
    next control =>
      have small : ¬(0xDC00 ≤ c.toNat ∧ c.toNat ≤ 0xDFFF) := by omega
      have plain : c.toNat < 0xD800 ∨ 0xDBFF < c.toNat := .inl (by omega)
      simp only [List.cons_append, List.nil_append, stringFrom, escape, hexEscape_control control, if_neg small,
        if_pos plain, Char.ofNat_toNat]
    next printed =>
      rw [List.singleton_append, stringFrom]
      · rw [if_neg printed]
      · exact fun same => quote same
      · exact fun same => slash same

private theorem stringFrom_flatMap {name : List Char} (enough : name.length < fuel) (read rest : List Char) :
    stringFrom fuel read (name.flatMap stringChar ++ '\x22' :: rest) = .ok (String.ofList (read.reverse ++ name), rest) := by
  induction name generalizing fuel read with
  | nil =>
    obtain ⟨fuel, rfl⟩ := Nat.exists_eq_add_of_lt enough
    rw [List.append_nil]
    rfl
  | cons c name ih =>
    obtain ⟨fuel, rfl⟩ := Nat.exists_eq_succ_of_ne_zero (Nat.ne_of_gt (Nat.zero_lt_of_lt enough))
    rw [List.flatMap_cons, List.append_assoc, stringFrom_stringChar, ih (Nat.lt_of_succ_lt_succ enough),
      List.reverse_cons, List.append_assoc, List.singleton_append]

private theorem length_le_stringText (s : String) : s.toList.length < (stringText s).length := by
  have each : ∀ c, 1 ≤ (stringChar c).length := by
    intro c
    rw [stringChar.eq_def]
    split
    iterate 7 decide
    split <;> simp
  have total : ∀ name : List Char, name.length ≤ (name.flatMap stringChar).length := by
    intro name
    induction name with
    | nil => exact Nat.le_refl _
    | cons c name ih =>
      rw [List.flatMap_cons, List.length_append, List.length_cons, Nat.add_comm]
      exact Nat.add_le_add (each c) ih
  have whole := total s.toList
  simp only [stringText, List.length_append, List.length_cons, List.length_nil]
  omega

/-- A string in quotes is read back, if there is fuel for its text. -/
theorem stringFrom_stringText {s : String} (enough : (stringText s).length ≤ fuel) (rest : List Char) :
    ∃ text, stringText s ++ rest = '\x22' :: text ∧ stringFrom fuel [] text = .ok (s, rest) := by
  refine ⟨s.toList.flatMap stringChar ++ '\x22' :: rest, ?_, ?_⟩
  · simp [stringText]
  · rw [stringFrom_flatMap (Nat.lt_of_lt_of_le (length_le_stringText s) enough)]
    simp

end SpecServer.Json
