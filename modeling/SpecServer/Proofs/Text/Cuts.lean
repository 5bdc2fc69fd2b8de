import SpecServer.Text.Split
set_option autoImplicit false

/-!
Texts that are cut at separators and joined again: where a piece ends, and what is in the pieces.
-/

namespace SpecServer.Text

theorem splitAt_of_not_mem {separator : Char} {text : List Char} (absent : separator ∉ text) :
    splitAt separator text = [text] := by
  induction text with
  | nil => rfl
  | cons c rest ih =>
    simp only [List.mem_cons, not_or] at absent
    simp only [splitAt, Ne.symm absent.1, ↓reduceIte, ih absent.2]

theorem splitAt_append {separator : Char} {piece : List Char} (absent : separator ∉ piece) (rest : List Char) :
    splitAt separator (piece ++ separator :: rest) = piece :: splitAt separator rest := by
  induction piece with
  | nil => simp [splitAt]
  | cons c piece ih =>
    simp only [List.mem_cons, not_or] at absent
    simp only [List.cons_append, splitAt, Ne.symm absent.1, ↓reduceIte, ih absent.2]

theorem splitAt_joinWith {separator : Char} (piece : List Char) (more : List (List Char))
    (absent : ∀ other ∈ piece :: more, separator ∉ other) :
    splitAt separator (joinWith [separator] (piece :: more)) = piece :: more := by
  induction more generalizing piece with
  | nil => exact splitAt_of_not_mem (absent piece List.mem_cons_self)
  | cons next more ih =>
    obtain ⟨first, later⟩ := List.forall_mem_cons.mp absent
    rw [joinWith, List.append_assoc, List.singleton_append, splitAt_append first, ih next later]

theorem mem_of_mem_splitAt {separator : Char} {text piece : List Char} (member : piece ∈ splitAt separator text)
    {c : Char} (inside : c ∈ piece) : c ∈ text := by
  induction text generalizing piece with
  | nil =>
    obtain rfl := List.mem_singleton.mp member
    cases inside
  | cons d rest ih =>
    simp only [splitAt] at member
    split at member
    · rcases List.mem_cons.mp member with rfl | later
      · cases inside
      · exact List.mem_cons_of_mem _ (ih later inside)
    · cases cut : splitAt separator rest with
      | nil => exact absurd cut (splitAt_ne_nil separator rest)
      | cons first more =>
        rw [cut] at member ih
        rcases List.mem_cons.mp member with rfl | later
        · rcases List.mem_cons.mp inside with rfl | further
          · exact List.mem_cons_self
          · exact List.mem_cons_of_mem _ (ih List.mem_cons_self further)
        · exact List.mem_cons_of_mem _ (ih (List.mem_cons_of_mem _ later) inside)

theorem mem_joinWith {separator : List Char} {pieces : List (List Char)} {c : Char}
    (member : c ∈ joinWith separator pieces) : c ∈ separator ∨ ∃ piece ∈ pieces, c ∈ piece := by
  induction pieces with
  | nil => cases member
  | cons piece rest ih =>
    cases rest with
    | nil => exact .inr ⟨piece, List.mem_cons_self, member⟩
    | cons next more =>
      simp only [joinWith, List.append_assoc, List.mem_append] at member
      rcases member with first | between | later
      · exact .inr ⟨piece, List.mem_cons_self, first⟩
      · exact .inl between
      · obtain between | ⟨other, inside, belongs⟩ := ih later
        · exact .inl between
        · exact .inr ⟨other, List.mem_cons_of_mem _ inside, belongs⟩

theorem splitOnce_of_not_mem {separator : Char} {text : List Char} (absent : separator ∉ text) :
    splitOnce separator text = none := by
  induction text with
  | nil => rfl
  | cons c rest ih =>
    simp only [List.mem_cons, not_or] at absent
    simp only [splitOnce, Ne.symm absent.1, ↓reduceIte, ih absent.2, Option.map_none]

theorem splitOnce_append {separator : Char} {front : List Char} (absent : separator ∉ front) (back : List Char) :
    splitOnce separator (front ++ separator :: back) = some (front, back) := by
  induction front with
  | nil => simp [splitOnce]
  | cons c rest ih =>
    simp only [List.mem_cons, not_or] at absent
    simp only [List.cons_append, splitOnce, Ne.symm absent.1, ↓reduceIte, ih absent.2, Option.map_some]

theorem splitLast_of_not_mem {separator : Char} {text : List Char} (absent : separator ∉ text) :
    splitLast separator text = none := by
  rw [splitLast, splitOnce_of_not_mem fun member => absent (List.mem_reverse.mp member)]
  rfl

theorem splitLast_append {separator : Char} (front : List Char) {back : List Char} (absent : separator ∉ back) :
    splitLast separator (front ++ separator :: back) = some (front, back) := by
  have turned : (front ++ separator :: back).reverse = back.reverse ++ separator :: front.reverse := by simp
  rw [splitLast, turned, splitOnce_append fun member => absent (List.mem_reverse.mp member)]
  simp

end SpecServer.Text
