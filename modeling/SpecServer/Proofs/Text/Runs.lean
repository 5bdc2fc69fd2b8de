import SpecServer.Text.Blank
set_option autoImplicit false

/-!
Runs of characters of one kind, and where they end. A trimmed text is what stands between two runs of blanks.
-/

namespace SpecServer.Text

variable {left right front back : List Char}

/-- Whether the first character of a text, if there is one, is not of a kind. -/
def EndsRun (kind : Char → Bool) (text : List Char) : Prop :=
  ∀ c ∈ text.head?, kind c = false

theorem endsRun_cons {kind : Char → Bool} {c : Char} (other : kind c = false) (text : List Char) :
    EndsRun kind (c :: text) := by
  intro d same
  cases same
  exact other

/-- A run of characters of one kind and what follows it are found again. -/
theorem append_cut {kind : Char → Bool} (all : ∀ c ∈ left, kind c) (every : ∀ c ∈ right, kind c)
    (ends : EndsRun kind front) (stops : EndsRun kind back) (same : left ++ front = right ++ back) :
    left = right ∧ front = back := by
  induction left generalizing right with
  | nil =>
    cases right with
    | nil => exact ⟨rfl, same⟩
    | cons d right =>
      have found : kind d = false := by
        apply ends
        rw [List.nil_append] at same
        rw [same]
        rfl
      rw [every d List.mem_cons_self] at found
      cases found
  | cons c left ih =>
    obtain ⟨first, later⟩ := List.forall_mem_cons.mp all
    cases right with
    | nil =>
      have found : kind c = false := by
        apply stops
        rw [List.nil_append] at same
        rw [← same]
        rfl
      rw [first] at found
      cases found
    | cons d right =>
      obtain ⟨rfl, tails⟩ := List.cons.inj same
      obtain ⟨rfl, rests⟩ := ih later (List.forall_mem_cons.mp every).2 tails
      exact ⟨rfl, rests⟩

theorem takeWhile_run {kind : Char → Bool} (all : ∀ c ∈ front, kind c) (ends : EndsRun kind back) :
    (front ++ back).takeWhile kind = front ∧ (front ++ back).dropWhile kind = back := by
  have stop : back.takeWhile kind = [] ∧ back.dropWhile kind = back := by
    cases back with
    | nil => exact ⟨rfl, rfl⟩
    | cons c back => simp [ends c rfl]
  rw [List.takeWhile_append_of_pos all, List.dropWhile_append_of_pos all, stop.1, stop.2, List.append_nil]
  exact ⟨rfl, rfl⟩

theorem exists_run (kind : Char → Bool) (text : List Char) :
    ∃ front, text = front ++ text.dropWhile kind ∧ ∀ c ∈ front, kind c = true := by
  refine ⟨text.takeWhile kind, List.takeWhile_append_dropWhile.symm, ?_⟩
  exact List.all_eq_true.mp List.all_takeWhile

/-! ## Trimming -/

theorem exists_trim (text : List Char) :
    ∃ front back, text = front ++ trim text ++ back ∧ (∀ c ∈ front, isBlank c = true) ∧
      ∀ c ∈ back, isBlank c = true := by
  obtain ⟨front, start, blank⟩ := exists_run isBlank text
  obtain ⟨turned, ends, blank'⟩ := exists_run isBlank (trimStart text).reverse
  have whole : trimStart text = trim text ++ turned.reverse := by
    rw [trim, dropEndWhile, ← List.reverse_append, ← ends, List.reverse_reverse]
  refine ⟨front, turned.reverse, ?_, blank, fun c member => blank' c (List.mem_reverse.mp member)⟩
  rw [List.append_assoc, ← whole]
  exact start

/-- A text without blanks is what is left when the blanks around it are trimmed. -/
theorem trim_between {text : List Char} (before : ∀ c ∈ front, isBlank c = true) (behind : ∀ c ∈ back, isBlank c = true)
    (solid : ∀ c ∈ text, isBlank c = false) (nonempty : text ≠ []) : trim (front ++ text ++ back) = text := by
  have start : EndsRun isBlank (text ++ back) := by
    obtain ⟨c, rest, rfl⟩ := List.exists_cons_of_ne_nil nonempty
    exact endsRun_cons (solid c List.mem_cons_self) (rest ++ back)
  have ends : EndsRun isBlank text.reverse := fun c first => solid c (List.mem_reverse.mp (List.mem_of_mem_head? first))
  have behind' : ∀ c ∈ back.reverse, isBlank c = true := fun c member => behind c (List.mem_reverse.mp member)
  rw [trim, trimStart, List.append_assoc, (takeWhile_run before start).2, dropEndWhile, List.reverse_append,
    (takeWhile_run behind' ends).2, List.reverse_reverse]

end SpecServer.Text
