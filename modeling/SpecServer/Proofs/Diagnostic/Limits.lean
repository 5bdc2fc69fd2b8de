import Mathlib.Data.List.Basic
import SpecServer.Diagnostic
set_option autoImplicit false

/-!
How many diagnostics a file may get. A place that is refused is not counted, and one that is taken counts for its own file
only. So the answers for a file depend on the places that are left for it, whatever other files are given in between.
-/

namespace SpecServer.Budget

variable {budget : Budget} {uri other : Uri}

/-! ## One place -/

theorem take_of_full (full : budget.limit.any (· ≤ budget.usedBy uri) = true) : budget.take uri = (false, budget) := by
  simp only [take, full, ↓reduceIte]

theorem take_of_room (room : budget.limit.any (· ≤ budget.usedBy uri) = false) :
    ∃ later, budget.take uri = (true, later) ∧ later.limit = budget.limit ∧
      ∀ other, later.usedBy other = if uri = other then budget.usedBy uri + 1 else budget.usedBy other := by
  refine ⟨{ budget with used := (uri, budget.usedBy uri + 1) :: Entries.erase budget.used uri }, ?_, rfl, ?_⟩
  · simp only [take, room, Bool.false_eq_true, ↓reduceIte]
  · intro other
    simp only [usedBy, Entries.get?, Entries.get?_erase]
    split <;> rfl

/-- How many places are left for a file, if they are limited. -/
def placesLeft (budget : Budget) (uri : Uri) : Option Nat :=
  budget.limit.map (· - budget.usedBy uri)

private theorem placesLeft_start (limit : Option Nat) (uri : Uri) : (start limit).placesLeft uri = limit :=
  Option.map_id'

private theorem full_iff : budget.limit.any (· ≤ budget.usedBy uri) = true ↔ budget.placesLeft uri = some 0 := by
  rw [placesLeft]
  cases budget.limit with
  | none => simp
  | some bound => simp [Nat.sub_eq_zero_iff_le]

private theorem take_fst (budget : Budget) (uri : Uri) :
    (budget.take uri).1 = decide (budget.placesLeft uri ≠ some 0) := by
  cases answer : budget.limit.any (· ≤ budget.usedBy uri) with
  | true => rw [take_of_full answer, full_iff.mp answer]; rfl
  | false =>
    obtain ⟨later, taken, -⟩ := take_of_room answer
    have left : budget.placesLeft uri ≠ some 0 := by
      rw [ne_eq, ← full_iff, answer]
      exact Bool.false_ne_true
    rw [taken, decide_eq_true left]

private theorem placesLeft_take (budget : Budget) (uri other : Uri) :
    (budget.take uri).2.placesLeft other =
      if uri = other then (budget.placesLeft uri).map (· - 1) else budget.placesLeft other := by
  cases answer : budget.limit.any (· ≤ budget.usedBy uri) with
  | true =>
    rw [take_of_full answer]
    split
    next same => rw [← same, full_iff.mp answer]; rfl
    next => rfl
  | false =>
    obtain ⟨later, taken, bounded, counts⟩ := take_of_room answer
    rw [taken, placesLeft, bounded, counts]
    split
    · rw [placesLeft, Option.map_map]
      rfl
    · rfl

/-! ## Many places -/

/-- The answers to calls that come one after another. -/
def answers (budget : Budget) : List Uri → List Bool
  | [] => []
  | uri :: calls => (budget.take uri).1 :: (budget.take uri).2.answers calls

/-- The answers to those of the calls that are for one file. -/
def answersFor (budget : Budget) (calls : List Uri) (uri : Uri) : List Bool :=
  ((calls.zip (budget.answers calls)).filter fun answer => answer.1 = uri).map Prod.snd

private theorem answersFor_cons (budget : Budget) (call : Uri) (calls : List Uri) (uri : Uri) :
    budget.answersFor (call :: calls) uri =
      if call = uri then (budget.take call).1 :: (budget.take call).2.answersFor calls uri
      else (budget.take call).2.answersFor calls uri := by
  simp only [answersFor, answers, List.zip_cons_cons, List.filter_cons, decide_eq_true_eq]
  split <;> rfl

/-- The answers to a number of calls for one file, when so many places are left for it. -/
def shares (places : Option Nat) (calls : Nat) : List Bool :=
  match places with
  | none => List.replicate calls true
  | some places => List.replicate (min places calls) true ++ List.replicate (calls - places) false

private theorem shares_succ (places : Option Nat) (calls : Nat) :
    shares places (calls + 1) = decide (places ≠ some 0) :: shares (places.map (· - 1)) calls := by
  match places with
  | none => rfl
  | some 0 => simp [shares, List.replicate_succ]
  | some (places + 1) => simp [shares, Nat.add_min_add_right, List.replicate_succ]

private theorem answers_replicate (budget : Budget) (uri : Uri) (calls : Nat) :
    budget.answers (List.replicate calls uri) = shares (budget.placesLeft uri) calls := by
  induction calls generalizing budget with
  | zero =>
    cases budget.placesLeft uri with
    | none => rfl
    | some places => simp [answers, shares]
  | succ calls ih =>
    rw [List.replicate_succ, answers, ih, shares_succ, take_fst, placesLeft_take, if_pos rfl]

/-- Two budgets with the same places left for a file answer its calls alike, though only one of them gets the calls for
other files, too. -/
theorem answersFor_eq_answers {left right : Budget} (same : left.placesLeft uri = right.placesLeft uri)
    (calls : List Uri) : left.answersFor calls uri = right.answers (calls.filter (· = uri)) := by
  induction calls generalizing left right with
  | nil => rfl
  | cons call calls ih =>
    rw [answersFor_cons, List.filter_cons]
    simp only [decide_eq_true_eq]
    split
    next own =>
      subst own
      have later : (left.take call).2.placesLeft call = (right.take call).2.placesLeft call := by
        rw [placesLeft_take, placesLeft_take, if_pos rfl, if_pos rfl, same]
      rw [ih later, answers, take_fst, take_fst, same]
    next other =>
      apply ih
      rw [placesLeft_take, if_neg other, same]

/-- The calls for one file are answered as if they were the only ones: as many of them as the limit allows get a place, all
of them without a limit, and the rest get none. -/
theorem answers_separate (limit : Option Nat) (calls : List Uri) (uri : Uri) :
    (start limit).answersFor calls uri = (start limit).answers (calls.filter (· = uri)) ∧
      (start limit).answersFor calls uri = shares limit (calls.count uri) := by
  have alone : (start limit).answersFor calls uri = (start limit).answers (calls.filter (· = uri)) :=
    answersFor_eq_answers rfl calls
  have own : calls.filter (· = uri) = List.replicate (calls.count uri) uri := List.filter_eq uri
  constructor
  · exact alone
  · rw [alone, own, answers_replicate, placesLeft_start]

/-- Calls for two files take turns; each of them gets the two places there are. -/
example :
    let file := fun name : String => (⟨"file".toList, none, name.toList, none, none⟩ : Uri)
    (start (some 2)).answers [file "/a", file "/b", file "/a", file "/a", file "/b"] = [true, true, true, false, true] := by
  decide

end SpecServer.Budget
