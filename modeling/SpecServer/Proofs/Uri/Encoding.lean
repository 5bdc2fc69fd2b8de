import SpecServer.Uri.Parser
set_option autoImplicit false

/-!
Percent encoding a second time changes nothing: what it writes stands for itself. The encoded text holds no
tabs and no line ends.
-/

namespace SpecServer.Uri

/-- Whether a character stands for itself where the set is encoded. -/
def EncodeSet.Keeps (set : EncodeSet) (c : Char) : Prop :=
  set c = false ∧ c.toNat < 0x80

instance (set : EncodeSet) (c : Char) : Decidable (set.Keeps c) :=
  inferInstanceAs (Decidable (_ ∧ _))

/-- Whether encoded bytes stand for themselves, and what breaks a URI does not. -/
structure EncodeSet.Stable (set : EncodeSet) : Prop where
  percent : set.Keeps '%'
  digit : ∀ n < 16, set.Keeps (hexDigit n)
  fold : ∀ c, isFold c = true → set c = true

private theorem stable_of_controls {set : EncodeSet} (percent : set.Keeps '%')
    (digit : ∀ n < 16, set.Keeps (hexDigit n))
    (controls : ∀ c, EncodeSet.controls c = true → set c = true) : set.Stable := by
  refine ⟨percent, digit, fun c fold => controls c ?_⟩
  simp only [isFold, Bool.or_eq_true, beq_iff_eq] at fold
  rcases fold with (rfl | rfl) | rfl <;> decide

theorem stable_controls : EncodeSet.controls.Stable :=
  stable_of_controls (by decide) (by decide) fun _ kept => kept

theorem stable_fragment : EncodeSet.fragment.Stable :=
  stable_of_controls (by decide) (by decide) fun c kept => by simp [EncodeSet.fragment, EncodeSet.plus, kept]

theorem stable_path : EncodeSet.path.Stable :=
  stable_of_controls (by decide) (by decide) fun c kept => by simp [EncodeSet.path, EncodeSet.fragment, EncodeSet.plus, kept]

theorem stable_userinfo : EncodeSet.userinfo.Stable :=
  stable_of_controls (by decide) (by decide) fun c kept => by
    simp [EncodeSet.userinfo, EncodeSet.path, EncodeSet.fragment, EncodeSet.plus, kept]

theorem stable_query : EncodeSet.query.Stable :=
  stable_of_controls (by decide) (by decide) fun c kept => by simp [EncodeSet.query, EncodeSet.plus, kept]

theorem stable_specialQuery : EncodeSet.specialQuery.Stable :=
  stable_of_controls (by decide) (by decide) fun c kept => by
    simp [EncodeSet.specialQuery, EncodeSet.query, EncodeSet.plus, kept]

variable {set : EncodeSet} {text : List Char} {c : Char}

theorem EncodeSet.Keeps.not_fold (keeps : set.Keeps c) (stable : set.Stable) : isFold c = false := by
  cases fold : isFold c with
  | false => rfl
  | true => exact absurd ((stable.fold c fold).symm.trans keeps.1) (by decide)

private theorem encodeChar_of_keeps (keeps : set.Keeps c) : encodeChar set c = [c] := by
  have small : ¬(set c = true ∨ 0x80 ≤ c.toNat) := by
    rintro (kept | large)
    · exact absurd (kept.symm.trans keeps.1) (by decide)
    · exact Nat.not_lt.mpr large keeps.2
  simp only [encodeChar, Bool.or_eq_true, decide_eq_true_eq, small, ↓reduceIte]

theorem percentEncode_of_keeps (keeps : ∀ c ∈ text, set.Keeps c) : percentEncode set text = text := by
  induction text with
  | nil => rfl
  | cons c rest ih =>
    obtain ⟨first, later⟩ := List.forall_mem_cons.mp keeps
    have rest' := ih later
    simp only [percentEncode] at rest' ⊢
    rw [List.flatMap_cons, encodeChar_of_keeps first, rest', List.singleton_append]

theorem percentEncode_append (set : EncodeSet) (front back : List Char) :
    percentEncode set (front ++ back) = percentEncode set front ++ percentEncode set back :=
  List.flatMap_append

/-- A character of an encoded text is one of the text that stands for itself, or belongs to an encoded byte. -/
theorem mem_percentEncode (member : c ∈ percentEncode set text) :
    (c ∈ text ∧ set.Keeps c) ∨ c = '%' ∨ ∃ n < 16, c = hexDigit n := by
  obtain ⟨source, inside, written⟩ := List.mem_flatMap.mp member
  simp only [encodeChar, Bool.or_eq_true, decide_eq_true_eq] at written
  split at written
  · obtain ⟨byte, -, digit⟩ := List.mem_flatMap.mp written
    simp only [encodeByte, List.mem_cons, List.not_mem_nil, or_false] at digit
    rcases digit with rfl | rfl | rfl
    · exact .inr (.inl rfl)
    · exact .inr (.inr ⟨_, by have := byte.toNat_lt; omega, rfl⟩)
    · exact .inr (.inr ⟨_, Nat.mod_lt _ (by decide), rfl⟩)
  next plain =>
    obtain rfl := List.mem_singleton.mp written
    refine .inl ⟨inside, ?_, Nat.lt_of_not_le fun large => plain (.inr large)⟩
    exact Bool.not_eq_true _ ▸ fun kept => plain (.inl kept)

theorem keeps_of_mem_percentEncode (stable : set.Stable) (member : c ∈ percentEncode set text) : set.Keeps c := by
  rcases mem_percentEncode member with ⟨-, keeps⟩ | rfl | ⟨n, small, rfl⟩
  · exact keeps
  · exact stable.percent
  · exact stable.digit n small

theorem percentEncode_percentEncode (stable : set.Stable) (text : List Char) :
    percentEncode set (percentEncode set text) = percentEncode set text :=
  percentEncode_of_keeps fun _ member => keeps_of_mem_percentEncode stable member

theorem forall_mem_of_all {holds : Char → Prop} [DecidablePred holds] {text : List Char}
    (all : (text.all fun c => decide (holds c)) = true) : ∀ c ∈ text, holds c :=
  fun c member => of_decide_eq_true (List.all_eq_true.mp all c member)

/-- What holds of the first 128 characters holds of every character of ASCII. -/
theorem forall_ascii (holds : Char → Prop) (all : ∀ n < 128, holds (Char.ofNat n)) (small : c.toNat < 128) : holds c :=
  Char.ofNat_toNat c ▸ all c.toNat small

theorem unfold_of_not_fold (plain : ∀ c ∈ text, isFold c = false) : unfold text = text := by
  apply List.filter_eq_self.mpr
  intro c member
  rw [plain c member]
  rfl

end SpecServer.Uri
