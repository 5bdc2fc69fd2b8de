set_option autoImplicit false

/-!
Tables as lists of keyed entries in ascending order of their keys. `get?` is the view: after `put` the key
holds the new value and every other key what it held, after `erase` the key holds nothing.
-/

namespace SpecServer

/-- A list of entries. The operations keep the keys in strictly ascending order. -/
abbrev Entries (κ ν : Type) := List (κ × ν)

namespace Entries

variable {κ ν : Type} [LT κ] [DecidableLT κ] [DecidableEq κ]

/-- The keys ascend strictly, so each occurs once. -/
def Ascending (entries : Entries κ ν) : Prop :=
  (entries.map Prod.fst).Pairwise (· < ·)

omit [LT κ] [DecidableLT κ] in
def get? (entries : Entries κ ν) (key : κ) : Option ν :=
  match entries with
  | [] => none
  | (found, value) :: rest => if found = key then some value else get? rest key

omit [LT κ] [DecidableLT κ] in
def has (entries : Entries κ ν) (key : κ) : Bool :=
  (entries.get? key).isSome

def put (entries : Entries κ ν) (key : κ) (value : ν) : Entries κ ν :=
  match entries with
  | [] => [(key, value)]
  | (found, old) :: rest =>
    if found = key then (key, value) :: rest
    else if key < found then (key, value) :: (found, old) :: rest
    else (found, old) :: put rest key value

omit [LT κ] [DecidableLT κ] in
def erase (entries : Entries κ ν) (key : κ) : Entries κ ν :=
  entries.filter fun entry => entry.1 ≠ key

omit [LT κ] [DecidableLT κ] [DecidableEq κ] in
def keys (entries : Entries κ ν) : List κ :=
  entries.map Prod.fst

/-- The table of some entries; of several values for one key the last one stays. -/
def ofList (entries : List (κ × ν)) : Entries κ ν :=
  entries.foldl (fun table entry => table.put entry.1 entry.2) []

theorem get?_put (entries : Entries κ ν) (key other : κ) (value : ν) :
    (entries.put key value).get? other = if key = other then some value else entries.get? other := by
  induction entries with
  | nil => simp [put, get?]
  | cons entry rest ih =>
    obtain ⟨found, old⟩ := entry
    simp only [put]
    split
    next same => subst same; simp only [get?]; split <;> rfl
    next differs =>
      split
      · simp [get?]
      · simp only [get?, ih]
        split
        next same => subst same; simp [Ne.symm differs]
        next => rfl

omit [LT κ] [DecidableLT κ] in
theorem get?_erase (entries : Entries κ ν) (key other : κ) :
    (entries.erase key).get? other = if key = other then none else entries.get? other := by
  induction entries with
  | nil => simp [erase, get?]
  | cons entry rest ih =>
    obtain ⟨found, old⟩ := entry
    simp only [erase, List.filter_cons] at ih ⊢
    by_cases same : found = key
    · subst same
      simp only [ne_eq, not_true_eq_false, decide_false, Bool.false_eq_true, ↓reduceIte, get?, ih]
      split <;> rfl
    · simp only [ne_eq, same, not_false_eq_true, decide_true, ↓reduceIte, get?, ih]
      by_cases hit : found = other
      · subst hit; simp [Ne.symm same]
      · simp [hit]

end Entries

end SpecServer
