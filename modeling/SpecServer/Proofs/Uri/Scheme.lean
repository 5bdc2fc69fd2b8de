import SpecServer.Proofs.Uri.Yield
set_option autoImplicit false

/-!
Schemes, and the start of reading a text that has one. What stands around the text does not count, so only the end
of what follows the scheme can be lost.
-/

namespace SpecServer.Uri

def IsLower (c : Char) : Prop :=
  'a' ≤ c ∧ c ≤ 'z'

instance (c : Char) : Decidable (IsLower c) :=
  inferInstanceAs (Decidable (_ ∧ _))

def SchemeChar (c : Char) : Prop :=
  IsLower c ∨ ('0' ≤ c ∧ c ≤ '9') ∨ c = '+' ∨ c = '-' ∨ c = '.'

instance (c : Char) : Decidable (SchemeChar c) :=
  inferInstanceAs (Decidable (_ ∨ _))

/-- A scheme as it is read: in lower case. -/
def IsScheme (scheme : List Char) : Prop :=
  ∃ c rest, scheme = c :: rest ∧ IsLower c ∧ ∀ d ∈ rest, SchemeChar d

private theorem ascii_of_le {c bound : Char} (small : bound.toNat < 128) (below : c ≤ bound) : c.toNat < 128 :=
  Nat.lt_of_le_of_lt below small

theorem asciiLower_asciiLower (c : Char) : Text.asciiLower (Text.asciiLower c) = Text.asciiLower c := by
  by_cases small : c.toNat < 128
  · exact forall_ascii (fun c => Text.asciiLower (Text.asciiLower c) = Text.asciiLower c) (by decide +kernel) small
  · have still : Text.asciiLower c = c := by
      simp only [Text.asciiLower]
      split
      next upper => exact absurd (ascii_of_le (by decide) upper.2) small
      · rfl
    rw [still, still]

private theorem isLower_asciiLower {c : Char} (letter : isLetter c = true) : IsLower (Text.asciiLower c) :=
  forall_ascii (fun c => isLetter c = true → IsLower (Text.asciiLower c)) (by decide +kernel) (ascii_of_isLetter letter)
    letter

private theorem schemeChar_asciiLower {c : Char} (sign : ('0' ≤ c ∧ c ≤ '9') ∨ c = '+' ∨ c = '-' ∨ c = '.') :
    SchemeChar (Text.asciiLower c) := by
  have small : c.toNat < 128 := by
    rcases sign with ⟨-, digit⟩ | rfl | rfl | rfl
    · exact ascii_of_le (by decide) digit
    · decide
    · decide
    · decide
  exact forall_ascii
    (fun c => ('0' ≤ c ∧ c ≤ '9') ∨ c = '+' ∨ c = '-' ∨ c = '.' → SchemeChar (Text.asciiLower c)) (by decide +kernel)
    small sign

theorem schemeFrom?_yields {read input scheme rest : List Char} (before : read = [] ∨ IsScheme read.reverse)
    (found : schemeFrom? read input = some (scheme, rest)) : IsScheme scheme := by
  induction input generalizing read with
  | nil => cases found
  | cons c input ih =>
    simp only [schemeFrom?] at found
    split at found
    · exact ih before found
    · split at found
      · split at found
        · cases found
        next some =>
          cases found
          refine before.resolve_left fun none => ?_
          rw [none] at some
          exact some rfl
      · split at found
        next taken =>
          refine ih (.inr ?_) found
          rw [List.reverse_cons]
          rcases before with rfl | ⟨first, others, same, lower, good⟩
          · refine ⟨Text.asciiLower c, [], rfl, isLower_asciiLower ?_, by simp⟩
            simpa using taken
          · refine ⟨first, others ++ [Text.asciiLower c], by rw [same]; rfl, lower, fun d member => ?_⟩
            rcases List.mem_append.mp member with front | last
            · exact good d front
            · obtain rfl := List.mem_singleton.mp last
              exact taken.elim (fun letter => .inl (isLower_asciiLower letter)) fun sign => schemeChar_asciiLower sign.2
        · cases found

theorem schemeChar_spec {c : Char} (good : SchemeChar c) :
    isFold c = false ∧ c ≠ ':' ∧ c ≠ '%' ∧ Text.asciiLower c = c ∧
      (isLetter c = true ∨ ('0' ≤ c ∧ c ≤ '9') ∨ c = '+' ∨ c = '-' ∨ c = '.') := by
  have small : c.toNat < 128 := by
    rcases good with ⟨-, lower⟩ | ⟨-, digit⟩ | rfl | rfl | rfl
    · exact ascii_of_le (by decide) lower
    · exact ascii_of_le (by decide) digit
    · decide
    · decide
    · decide
  exact forall_ascii
    (fun c => SchemeChar c → isFold c = false ∧ c ≠ ':' ∧ c ≠ '%' ∧ Text.asciiLower c = c ∧
      (isLetter c = true ∨ ('0' ≤ c ∧ c ≤ '9') ∨ c = '+' ∨ c = '-' ∨ c = '.')) (by decide +kernel) small good

private theorem isLower_spec {c : Char} (lower : IsLower c) : isLetter c = true ∧ isPadding c = false :=
  forall_ascii (fun c => IsLower c → isLetter c = true ∧ isPadding c = false) (by decide +kernel)
    (ascii_of_le (by decide) lower.2) lower

theorem IsScheme.schemeChar {scheme : List Char} (good : IsScheme scheme) {c : Char} (member : c ∈ scheme) :
    SchemeChar c := by
  obtain ⟨first, others, rfl, lower, rest⟩ := good
  rcases List.mem_cons.mp member with rfl | later
  · exact .inl lower
  · exact rest c later

private theorem schemeFrom?_scheme {scheme : List Char} (good : IsScheme scheme) (rest : List Char) :
    schemeFrom? [] (scheme ++ ':' :: rest) = some (scheme, rest) := by
  have along : ∀ (others : List Char), (∀ d ∈ others, SchemeChar d) → ∀ read : List Char, read ≠ [] →
      schemeFrom? read (others ++ ':' :: rest) = some (read.reverse ++ others, rest) := by
    intro others signs
    induction others with
    | nil =>
      intro read some
      simp [schemeFrom?, some, show isFold ':' = false by decide]
    | cons d others ih =>
      intro read some
      obtain ⟨first, later⟩ := List.forall_mem_cons.mp signs
      obtain ⟨fold, colon, -, lower, sign⟩ := schemeChar_spec first
      have nonempty : (!read.isEmpty) = true := by simpa using some
      have taken : isLetter d = true ∨ ((!read.isEmpty) = true ∧ (('0' ≤ d ∧ d ≤ '9') ∨ d = '+' ∨ d = '-' ∨ d = '.')) :=
        sign.imp id fun sign => ⟨nonempty, sign⟩
      simp only [List.cons_append, schemeFrom?, fold, Bool.false_eq_true, ↓reduceIte, colon, if_pos taken, lower]
      rw [ih later (d :: read) (by simp)]
      simp
  obtain ⟨c, others, rfl, lower, signs⟩ := good
  obtain ⟨fold, colon, -, small, -⟩ := schemeChar_spec (.inl lower)
  simp only [List.cons_append, schemeFrom?, fold, Bool.false_eq_true, ↓reduceIte, colon, (isLower_spec lower).1, true_or,
    small]
  rw [along others signs [c] (by simp)]
  rfl

private theorem dropEndWhile_append {test : Char → Bool} (front : List Char) {c : Char} (keeps : test c = false)
    (rest : List Char) :
    Text.dropEndWhile test (front ++ c :: rest) = front ++ c :: Text.dropEndWhile test rest := by
  have turned : (front ++ c :: rest).reverse = rest.reverse ++ c :: front.reverse := by simp
  rw [Text.dropEndWhile, turned, List.dropWhile_append]
  split
  next empty =>
    rw [List.dropWhile_cons, keeps, Text.dropEndWhile, List.isEmpty_iff.mp empty]
    simp
  · simp [Text.dropEndWhile]

theorem dropEndWhile_of_last {test : Char → Bool} {text : List Char}
    (keeps : ∀ c, text.getLast? = some c → test c = false) : Text.dropEndWhile test text = text := by
  rcases List.eq_nil_or_concat text with rfl | ⟨front, last, rfl⟩
  · rfl
  · rw [List.concat_eq_append] at keeps ⊢
    rw [dropEndWhile_append front (keeps last (by simp))]
    rfl

theorem dropEndWhile_prefix (test : Char → Bool) (text : List Char) : Text.dropEndWhile test text <+: text := by
  have suffix := List.dropWhile_suffix (l := text.reverse) test
  simpa [Text.dropEndWhile] using List.reverse_prefix.mpr suffix

theorem dropEndWhile_dropEndWhile (test : Char → Bool) (text : List Char) :
    Text.dropEndWhile test (Text.dropEndWhile test text) = Text.dropEndWhile test text := by
  refine dropEndWhile_of_last fun c last => ?_
  rw [Text.dropEndWhile, List.getLast?_reverse] at last
  have first := List.head?_dropWhile_not test text.reverse
  rw [last] at first
  exact first

theorem parse_scheme {scheme : List Char} (good : IsScheme scheme) (rest : List Char) :
    parse (String.ofList (scheme ++ ':' :: rest)) = readScheme none scheme (Text.dropEndWhile isPadding rest) := by
  have front : (scheme ++ ':' :: rest).dropWhile isPadding = scheme ++ ':' :: rest := by
    obtain ⟨c, others, rfl, lower, -⟩ := good
    simp [(isLower_spec lower).2]
  simp only [parse, read, String.toList_ofList, front, dropEndWhile_append scheme (show isPadding ':' = false by decide),
    schemeFrom?_scheme good]

end SpecServer.Uri
