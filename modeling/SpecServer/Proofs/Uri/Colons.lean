import SpecServer.Proofs.Uri.Yield
import SpecServer.Uri.Normal
set_option autoImplicit false

/-!
Decoding escaped colons. Marks that are no part of an escape stay where they are, so what stands between them is
decoded on its own; and a text in which something was decoded is shorter and holds a colon.
-/

namespace SpecServer.Uri

/-- A text, and what it becomes when some of its escaped colons are decoded one after another. -/
inductive Decoded (text : List Char) : List Char → Prop
  | refl : Decoded text text
  | step {front back : List Char} {letter : Char} (escape : letter = 'A' ∨ letter = 'a')
      (before : Decoded text (front ++ '%' :: '3' :: letter :: back)) : Decoded text (front ++ ':' :: back)

namespace Decoded

variable {text result : List Char}

/-- Nothing was decoded, or the text became shorter and holds a colon. -/
theorem same_or_shorter (decoded : Decoded text result) :
    result = text ∨ result.length < text.length ∧ ':' ∈ result ∧ '%' ∈ text := by
  induction decoded with
  | refl => exact .inl rfl
  | step escape before ih =>
    refine .inr ⟨?_, by simp, ?_⟩
    · rcases ih with rfl | ⟨shorter, -, -⟩
      · simp
      · simp only [List.length_append, List.length_cons] at shorter ⊢
        omega
    · rcases ih with rfl | ⟨-, -, percent⟩
      · simp
      · exact percent

theorem length_le (decoded : Decoded text result) : result.length ≤ text.length := by
  rcases decoded.same_or_shorter with rfl | ⟨shorter, -, -⟩
  · exact Nat.le_refl _
  · exact Nat.le_of_lt shorter

theorem eq_of_length (decoded : Decoded text result) (long : text.length ≤ result.length) : result = text := by
  rcases decoded.same_or_shorter with same | ⟨shorter, -, -⟩
  · exact same
  · omega

theorem eq_of_plain (decoded : Decoded text result) (plain : '%' ∉ text) : result = text := by
  rcases decoded.same_or_shorter with same | ⟨-, -, percent⟩
  · exact same
  · exact absurd percent plain

theorem nil_iff (decoded : Decoded text result) : result = [] ↔ text = [] := by
  rcases decoded.same_or_shorter with rfl | ⟨shorter, colon, -⟩
  · exact Iff.rfl
  · refine ⟨fun empty => ?_, fun empty => ?_⟩
    · rw [empty] at colon
      cases colon
    · rw [empty] at shorter
      exact absurd shorter (Nat.not_lt_zero _)

theorem mem (decoded : Decoded text result) {c : Char} (member : c ∈ result) : c = ':' ∨ c ∈ text := by
  induction decoded with
  | refl => exact .inr member
  | step escape before ih =>
    simp only [List.mem_append, List.mem_cons] at member ih
    rcases member with front | colon | back
    · exact ih (.inl front)
    · exact .inl colon
    · exact ih (.inr (.inr (.inr (.inr back))))

theorem cons (decoded : Decoded text result) (c : Char) : Decoded (c :: text) (c :: result) := by
  induction decoded with
  | refl => exact .refl
  | @step front back letter escape before ih =>
    exact @step _ (c :: front) back letter escape (by simpa using ih)

/-- Marks that no escape holds stay, and what stands before and behind them is decoded on its own. -/
theorem split (front : List Char) (mark : Char) {back : List Char} (decoded : Decoded (front ++ mark :: back) result)
    (free : mark ∉ ['%', '3', 'A', 'a']) :
    ∃ front' back', result = front' ++ mark :: back' ∧ Decoded front front' ∧ Decoded back back' := by
  simp only [List.mem_cons, List.not_mem_nil, or_false, not_or] at free
  obtain ⟨percent, three, upper, lower⟩ := free
  induction decoded with
  | refl => exact ⟨front, back, rfl, .refl, .refl⟩
  | @step lead rest letter escape before ih =>
    have unlike : mark ≠ letter := by
      rcases escape with rfl | rfl
      · exact upper
      · exact lower
    obtain ⟨front', back', cut, first, second⟩ := ih
    rcases List.append_eq_append_iff.mp cut with ⟨middle, rfl, shape⟩ | ⟨middle, rfl, shape⟩
    · -- the mark stands behind the escape
      match middle, shape with
      | [], shape => exact absurd (List.cons.inj shape).1.symm percent
      | [_], shape => exact absurd (List.cons.inj (List.cons.inj shape).2).1.symm three
      | [_, _], shape => exact absurd (List.cons.inj (List.cons.inj (List.cons.inj shape).2).2).1.symm unlike
      | _ :: _ :: _ :: others, shape =>
        simp only [List.cons_append, List.cons.injEq] at shape
        obtain ⟨rfl, rfl, rfl, rfl⟩ := shape
        exact ⟨lead ++ ':' :: others, back', by simp, .step escape (by simpa using first), second⟩
    · match middle, shape with
      | [], shape => exact absurd (List.cons.inj shape).1 percent
      | _ :: others, shape =>
        simp only [List.cons_append, List.cons.injEq] at shape
        obtain ⟨rfl, rfl⟩ := shape
        exact ⟨front', others ++ ':' :: rest, by simp, first, .step escape second⟩

end Decoded

/-! ## What is decoded -/

private theorem replaceFirst_cases (old new text : List Char) :
    Text.replaceFirst old new text = text ∨
      ∃ front back, text = front ++ old ++ back ∧ Text.replaceFirst old new text = front ++ new ++ back := by
  induction text with
  | nil => exact .inl rfl
  | cons c rest ih =>
    simp only [Text.replaceFirst]
    split
    next after found =>
      exact .inr ⟨[], after, (Text.after?_eq_some_iff _ _ _).mp found, rfl⟩
    · rcases ih with same | ⟨front, back, cut, replaced⟩
      · exact .inl (by rw [same])
      · exact .inr ⟨c :: front, back, by rw [cut]; rfl, by rw [replaced]; rfl⟩

theorem decoded_decodeColons (text : List Char) : Decoded text (decodeColons text) := by
  have one : ∀ (letter : Char), letter = 'A' ∨ letter = 'a' → ∀ before, Decoded text before →
      Decoded text (Text.replaceFirst ['%', '3', letter] [':'] before) := by
    intro letter escape before decoded
    rcases replaceFirst_cases ['%', '3', letter] [':'] before with same | ⟨front, back, rfl, replaced⟩
    · rw [same]
      exact decoded
    · rw [replaced, List.append_assoc]
      exact .step escape (by simpa using decoded)
  exact one 'a' (.inr rfl) _ (one 'A' (.inl rfl) _ .refl)

private theorem after?_append_of_not_mem {old : List Char} (text : List Char) {mark : Char} (free : mark ∉ old)
    (more : List Char) :
    Text.after? old (text ++ mark :: more) = (Text.after? old text).map (· ++ mark :: more) := by
  induction old generalizing text with
  | nil => simp [Text.after?]
  | cons o old ih =>
    simp only [List.mem_cons, not_or] at free
    cases text with
    | nil => simp [Text.after?, Ne.symm free.1]
    | cons c rest =>
      simp only [List.cons_append, Text.after?]
      split
      · exact ih rest free.2
      · rfl

private theorem replaceFirst_append {old : List Char} (lead : Char) (new text : List Char) {mark : Char}
    (free : mark ∉ lead :: old) {more : List Char} (plain : lead ∉ more) :
    Text.replaceFirst (lead :: old) new (text ++ mark :: more) =
      Text.replaceFirst (lead :: old) new text ++ mark :: more := by
  have still : ∀ rest : List Char, lead ∉ rest → Text.replaceFirst (lead :: old) new rest = rest := by
    intro rest absent
    induction rest with
    | nil => rfl
    | cons c rest ih =>
      simp only [List.mem_cons, not_or] at absent
      simp [Text.replaceFirst, Text.after?, absent.1, ih absent.2]
  induction text with
  | nil =>
    refine still _ fun member => ?_
    rcases List.mem_cons.mp member with rfl | inside
    · exact free List.mem_cons_self
    · exact plain inside
  | cons c rest ih =>
    have found := after?_append_of_not_mem (c :: rest) free more
    simp only [List.cons_append] at found ⊢
    simp only [Text.replaceFirst, found]
    cases Text.after? (lead :: old) (c :: rest) with
    | none => simp [ih]
    | some after => simp

theorem decodeColons_append (text : List Char) (mark : Char) (free : mark ∉ ['%', '3', 'A', 'a']) {more : List Char}
    (plain : '%' ∉ more) : decodeColons (text ++ mark :: more) = decodeColons text ++ mark :: more := by
  simp only [List.mem_cons, List.not_mem_nil, or_false, not_or] at free
  simp only [decodeColons]
  rw [replaceFirst_append '%' _ text (by simp [free]) plain, replaceFirst_append '%' _ _ (by simp [free]) plain]

/-! ## Segments and their paths -/

private theorem Segment.decoded {kind : Kind} {segment result : List Char} (good : Segment kind segment)
    (decoded : Decoded segment result) : Segment kind result := by
  rcases decoded.same_or_shorter with rfl | ⟨-, colon, -⟩
  · exact good
  · refine ⟨fun c member => ?_, fun c member => ?_, ?_, ?_⟩
    · rcases decoded.mem member with rfl | inside
      · decide
      · exact good.kept c inside
    · rcases decoded.mem member with rfl | inside
      · cases kind <;> decide
      · exact good.inner c inside
    · exact Bool.eq_false_iff.mpr fun dots => colon_not_mem_of_dots (.inl dots) colon
    · exact Bool.eq_false_iff.mpr fun dots => colon_not_mem_of_dots (.inr dots) colon

private theorem Decoded.slashed {kind : Kind} {segment : List Char} {more : List (List Char)} {result : List Char}
    (decoded : Decoded (slashed (segment :: more)) result) (good : ∀ other ∈ segment :: more, Segment kind other) :
    ∃ segment' more', result = Uri.slashed (segment' :: more') ∧ Decoded segment segment' ∧ (more = [] → more' = []) ∧
      ∀ other ∈ segment' :: more', Segment kind other := by
  have first := good segment List.mem_cons_self
  induction more generalizing segment result with
  | nil =>
    rw [slashed_cons, slashed_nil, List.append_nil] at decoded
    obtain ⟨front, back, rfl, lead, rest⟩ := decoded.split [] '/' (by decide)
    obtain rfl := lead.nil_iff.mpr rfl
    refine ⟨back, [], by simp, rest, fun _ => rfl, fun other member => ?_⟩
    obtain rfl := List.mem_singleton.mp member
    exact first.decoded rest
  | cons next more ih =>
    rw [slashed_cons, slashed_cons] at decoded
    obtain ⟨front, back, rfl, lead, rest⟩ := decoded.split [] '/' (by decide)
    obtain rfl := lead.nil_iff.mpr rfl
    obtain ⟨segment', tail, rfl, here, beyond⟩ := rest.split segment '/' (by decide)
    have later := fun other member => good other (List.mem_cons_of_mem _ member)
    obtain ⟨next', more', same, -, -, each⟩ := ih (beyond.cons '/') later (later next List.mem_cons_self)
    refine ⟨segment', next' :: more', ?_, here, fun empty => (nomatch empty), fun other member => ?_⟩
    · rw [List.nil_append, same, slashed_cons, List.cons_append]
      rfl
    · rcases List.mem_cons.mp member with rfl | inside
      · exact first.decoded here
      · exact each other inside

theorem IsWalked.decoded {kind : Kind} {path result : List Char} (walked : IsWalked kind path)
    (decoded : Decoded path result) : IsWalked kind result := by
  obtain ⟨segment, more, rfl, good, single⟩ := walked
  obtain ⟨segment', more', rfl, first, empty, each⟩ := decoded.slashed good
  exact ⟨segment', more', rfl, each, fun file none => empty (single file (first.nil_iff.mp none))⟩

end SpecServer.Uri
