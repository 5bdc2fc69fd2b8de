import SpecServer.Proofs.Text.Places
set_option autoImplicit false

/-!
Searching a text for a pattern. Occurrences are tried from left to right without overlap until one of them is accepted. By
byte offsets the search cuts the text again and again; for a pattern that is not empty it cuts between two characters
only, and its rounds are bounded by the number of characters. An empty pattern stands at every offset, so that a search for
it ends where it begins or goes round there for ever.
-/

namespace SpecServer.Text

variable {text passed front back pattern : List Char} {found : Option Nat}

/-! ## Cuts -/

/-- A text cut at a byte offset. There is no cut within a character or behind the end. -/
def cut? : Nat → List Char → Option (List Char × List Char)
  | 0, text => some ([], text)
  | _ + 1, [] => none
  | offset + 1, c :: text =>
    if c.utf8Size ≤ offset + 1 then (cut? (offset + 1 - c.utf8Size) text).map fun (front, back) => (c :: front, back)
    else none

theorem cut?_append (front back : List Char) : cut? (byteLength front) (front ++ back) = some (front, back) := by
  induction front with
  | nil => rw [byteLength_nil, cut?, List.nil_append]
  | cons c front ih =>
    obtain ⟨size, positive⟩ := Nat.exists_eq_succ_of_ne_zero (Nat.ne_of_gt c.utf8Size_pos)
    have rest : c.utf8Size + byteLength front - c.utf8Size = byteLength front := Nat.add_sub_cancel_left _ _
    rw [byteLength_cons, List.cons_append]
    rw [positive] at rest ⊢
    rw [Nat.succ_add, Nat.succ_eq_add_one, cut?, positive, if_pos (by omega),
      show size + byteLength front + 1 - size.succ = byteLength front by omega, ih]
    rfl

private theorem cut?_eq_some_iff {offset : Nat} :
    cut? offset text = some (front, back) ↔ text = front ++ back ∧ byteLength front = offset := by
  constructor
  · fun_induction cut? offset text generalizing front with
    | case1 text =>
      rintro ⟨⟩
      exact ⟨rfl, rfl⟩
    | case2 => rintro ⟨⟩
    | case3 offset c text fits ih =>
      intro cut
      obtain ⟨⟨inner, rest⟩, within, same⟩ := Option.map_eq_some_iff.mp cut
      cases same
      obtain ⟨rfl, length⟩ := ih within
      refine ⟨rfl, ?_⟩
      rw [byteLength_cons, length]
      omega
    | case4 => rintro ⟨⟩
  · rintro ⟨rfl, rfl⟩
    exact cut?_append front back

/-! ## Occurrences -/

/-- What stands before and behind the first occurrence of a pattern. -/
def splitFirst? (pattern : List Char) : List Char → Option (List Char × List Char)
  | [] => if pattern.isEmpty then some ([], []) else none
  | c :: text =>
    match after? pattern (c :: text) with
    | some rest => some ([], rest)
    | none => (splitFirst? pattern text).map fun (front, back) => (c :: front, back)

private theorem splitFirst?_nil (text : List Char) : splitFirst? [] text = some ([], text) := by
  cases text with
  | nil => rfl
  | cons c text => rfl

private theorem eq_of_splitFirst? (first : splitFirst? pattern text = some (front, back)) :
    text = front ++ pattern ++ back := by
  induction text generalizing front with
  | nil =>
    rw [splitFirst?] at first
    split at first
    next empty =>
      cases first
      rw [List.isEmpty_iff.mp empty]
      rfl
    next => cases first
  | cons c text ih =>
    rw [splitFirst?] at first
    split at first
    next rest starts =>
      cases first
      exact (after?_eq_some_iff _ _ _).mp starts
    next =>
      obtain ⟨⟨inner, rest⟩, within, same⟩ := Option.map_eq_some_iff.mp first
      cases same
      rw [ih within]
      rfl

/-- Searches a text behind what was passed; gives the number of characters before the first occurrence of a pattern that is
accepted. `skip` characters belong to an occurrence that was refused. -/
def scan (accepts : List Char → List Char → Bool) (pattern : List Char) (passed : List Char) (skip : Nat) :
    List Char → Option Nat
  | [] => none
  | c :: text =>
    match skip with
    | skip + 1 => (scan accepts pattern (passed ++ [c]) skip text).map (· + 1)
    | 0 =>
      match after? pattern (c :: text) with
      | some rest =>
        if accepts passed rest then some 0
        else (scan accepts pattern (passed ++ [c]) (pattern.length - 1) text).map (· + 1)
      | none => (scan accepts pattern (passed ++ [c]) 0 text).map (· + 1)

variable {accepts : List Char → List Char → Bool}

private theorem scan_skip (passed skipped rest : List Char) :
    scan accepts pattern passed skipped.length (skipped ++ rest) =
      (scan accepts pattern (passed ++ skipped) 0 rest).map (· + skipped.length) := by
  induction skipped generalizing passed with
  | nil => simp
  | cons c skipped ih =>
    rw [List.length_cons, List.cons_append, scan, ih, Option.map_map, List.append_assoc]
    rfl

/-- A scan goes on from the first occurrence: it ends there or starts again behind it. -/
theorem scan_eq (nonempty : pattern ≠ []) (passed text : List Char) :
    scan accepts pattern passed 0 text =
      match splitFirst? pattern text with
      | none => none
      | some (front, back) =>
        if accepts (passed ++ front) back then some front.length
        else (scan accepts pattern (passed ++ front ++ pattern) 0 back).map (· + (front ++ pattern).length) := by
  induction text generalizing passed with
  | nil => rw [splitFirst?, if_neg (by simpa using nonempty), scan]
  | cons c text ih =>
    rw [scan, splitFirst?]
    cases starts : after? pattern (c :: text) with
    | some rest =>
      obtain ⟨d, more, rfl⟩ := List.exists_cons_of_ne_nil nonempty
      obtain ⟨rfl, same⟩ := List.cons.inj ((after?_eq_some_iff _ _ _).mp starts)
      have rest : text = more ++ rest := same
      subst rest
      simp only [List.append_nil, List.length_nil, List.nil_append]
      split
      · rfl
      · rw [List.length_cons, Nat.add_sub_cancel, scan_skip, Option.map_map, List.append_assoc]
        rfl
    | none =>
      simp only [ih (passed ++ [c])]
      cases splitFirst? pattern text with
      | none => rfl
      | some parts =>
        obtain ⟨front, back⟩ := parts
        have moved : passed ++ [c] ++ front = passed ++ c :: front := by simp
        simp only [Option.map_some, moved]
        cases accepts (passed ++ c :: front) back with
        | true => rfl
        | false =>
          simp only [Bool.false_eq_true, ↓reduceIte, Option.map_map]
          rfl

/-- A search from occurrence to occurrence, and how many characters stand before the one that is accepted. -/
inductive Searched (accepts : List Char → List Char → Bool) (pattern : List Char) :
    List Char → List Char → Option Nat → Prop
  | absent (passed text : List Char) (never : splitFirst? pattern text = none) :
      Searched accepts pattern passed text none
  | accepted (passed text front back : List Char) (first : splitFirst? pattern text = some (front, back))
      (accept : accepts (passed ++ front) back = true) : Searched accepts pattern passed text (some front.length)
  | refused (passed text front back : List Char) (found : Option Nat)
      (first : splitFirst? pattern text = some (front, back)) (refuse : accepts (passed ++ front) back = false)
      (later : Searched accepts pattern (passed ++ front ++ pattern) back found) :
      Searched accepts pattern passed text (found.map (· + (front ++ pattern).length))

theorem searched_scan (accepts : List Char → List Char → Bool) (nonempty : pattern ≠ []) (passed text : List Char) :
    Searched accepts pattern passed text (scan accepts pattern passed 0 text) := by
  induction size : text.length using Nat.strongRecOn generalizing passed text with
  | ind size ih =>
    subst size
    rw [scan_eq nonempty]
    cases first : splitFirst? pattern text with
    | none => exact .absent passed text first
    | some parts =>
      obtain ⟨front, back⟩ := parts
      cases answer : accepts (passed ++ front) back with
      | true =>
        simp only [answer, ↓reduceIte]
        exact .accepted passed text front back first answer
      | false =>
        simp only [answer, Bool.false_eq_true, ↓reduceIte]
        refine .refused passed text front back _ first answer (ih back.length ?_ _ back rfl)
        have positive := List.length_pos_of_ne_nil nonempty
        rw [eq_of_splitFirst? first, List.length_append, List.length_append]
        omega

theorem Searched.spelled {count : Nat} (searched : Searched accepts pattern passed text (some count)) :
    ∃ front back, text = front ++ pattern ++ back ∧ front.length = count ∧ accepts (passed ++ front) back = true := by
  generalize result : some count = found at searched
  induction searched generalizing count with
  | absent => cases result
  | accepted passed text front back first accept =>
    cases result
    exact ⟨front, back, eq_of_splitFirst? first, rfl, accept⟩
  | refused passed text front back found first refuse later ih =>
    obtain ⟨inner, rfl, rfl⟩ := Option.map_eq_some_iff.mp result.symm
    obtain ⟨further, rest, rfl, rfl, accept⟩ := ih rfl
    refine ⟨front ++ pattern ++ further, rest, ?_, ?_, ?_⟩
    · rw [eq_of_splitFirst? first]
      simp only [List.append_assoc]
    · rw [List.length_append, Nat.add_comm]
    · simpa only [List.append_assoc] using accept

/-! ## Searching by offsets -/

/-- Searches a text from a byte offset on for an occurrence of a pattern that passes a test. Nothing is known if the text is
cut within a character or if the rounds are used up. -/
def search? (test : List Char → List Char → Option Bool) (text pattern : List Char) : Nat → Nat → Option (Option Nat)
  | 0, _ => none
  | rounds + 1, start => do
    let (_, rest) ← cut? start text
    match splitFirst? pattern rest with
    | none => some none
    | some (skipped, _) => do
      let offset := start + byteLength skipped
      let (before, _) ← cut? offset text
      let (_, behind) ← cut? (offset + byteLength pattern) text
      if ← test before behind then some (some offset) else search? test text pattern rounds (offset + byteLength pattern)

variable {test : List Char → List Char → Option Bool} {rounds : Nat}

private theorem search?_absent (never : splitFirst? pattern text = none) :
    search? test (passed ++ text) pattern (rounds + 1) (byteLength passed) = some none := by
  simp only [search?, cut?_append, Option.bind_eq_bind, Option.bind_some, never]

private theorem search?_first (tests : ∀ before behind, test before behind = some (accepts before behind))
    (first : splitFirst? pattern text = some (front, back)) :
    search? test (passed ++ text) pattern (rounds + 1) (byteLength passed) =
      if accepts (passed ++ front) back then some (some (byteLength (passed ++ front)))
      else search? test (passed ++ text) pattern rounds (byteLength (passed ++ front ++ pattern)) := by
  obtain rfl := eq_of_splitFirst? first
  have before : cut? (byteLength (passed ++ front)) (passed ++ (front ++ pattern ++ back)) =
      some (passed ++ front, pattern ++ back) := cut?_eq_some_iff.mpr (by simp)
  have behind : cut? (byteLength (passed ++ front ++ pattern)) (passed ++ (front ++ pattern ++ back)) =
      some (passed ++ front ++ pattern, back) := cut?_eq_some_iff.mpr (by simp)
  rw [byteLength_append _ pattern] at behind ⊢
  rw [byteLength_append] at before behind ⊢
  simp only [search?, cut?_append, Option.bind_eq_bind, Option.bind_some, first, before, behind, tests]

theorem search?_more {start : Nat} {found : Option Nat} (result : search? test text pattern rounds start = some found)
    (more : Nat) : search? test text pattern (rounds + more) start = some found := by
  induction rounds generalizing start with
  | zero => cases result
  | succ rounds ih =>
    rw [Nat.succ_add]
    simp only [search?, Option.bind_eq_bind, Option.bind_eq_some_iff] at result ⊢
    obtain ⟨⟨_, rest⟩, cut, result⟩ := result
    refine ⟨_, cut, ?_⟩
    cases first : splitFirst? pattern rest with
    | none => simpa only [first] using result
    | some parts =>
      simp only [first, Option.bind_eq_some_iff] at result ⊢
      obtain ⟨before, front, behind, back, answer, tests, result⟩ := result
      refine ⟨before, front, behind, back, answer, tests, ?_⟩
      cases answer with
      | true => exact result
      | false => exact ih result

/-- An empty pattern is accepted where the search for it begins, or the search does not end in any number of rounds. -/
theorem search?_nil (tests : ∀ before behind, test before behind = some (accepts before behind)) (rounds : Nat)
    (passed text : List Char) : search? test (passed ++ text) [] rounds (byteLength passed) =
      if accepts passed text && decide (0 < rounds) then some (some (byteLength passed)) else none := by
  induction rounds with
  | zero => simp [search?]
  | succ rounds ih =>
    rw [search?_first tests (splitFirst?_nil text), List.append_nil, List.append_nil, ih]
    cases accepts passed text <;> simp

/-- By offsets the same occurrence is found, without a cut within a character, if there are more rounds than characters. -/
theorem Searched.search? (searched : Searched accepts pattern passed text found) (nonempty : pattern ≠ [])
    (tests : ∀ before behind, test before behind = some (accepts before behind)) (enough : text.length < rounds) :
    Text.search? test (passed ++ text) pattern rounds (byteLength passed) =
      some (found.map fun count => byteLength (passed ++ text.take count)) := by
  induction searched generalizing rounds with
  | absent passed text never =>
    obtain ⟨rounds, rfl⟩ := Nat.exists_eq_add_of_lt enough
    exact search?_absent never
  | accepted passed text front back first accept =>
    obtain ⟨rounds, rfl⟩ := Nat.exists_eq_add_of_lt enough
    rw [search?_first tests first, if_pos accept, eq_of_splitFirst? first, Option.map_some, List.append_assoc front,
      List.take_left]
  | refused passed text front back found first refuse later ih =>
    obtain ⟨rounds, rfl⟩ := Nat.exists_eq_add_of_lt enough
    have whole : passed ++ text = passed ++ front ++ pattern ++ back := by
      rw [eq_of_splitFirst? first]
      simp only [List.append_assoc]
    have shorter : back.length < text.length + rounds := by
      have positive := List.length_pos_of_ne_nil nonempty
      rw [eq_of_splitFirst? first, List.length_append, List.length_append]
      omega
    rw [search?_first tests first, refuse, if_neg Bool.false_ne_true, whole, ih shorter, Option.map_map]
    congr 2
    funext count
    rw [Function.comp_apply, eq_of_splitFirst? first, Nat.add_comm, List.take_length_add_append]
    simp only [List.append_assoc]

end SpecServer.Text
