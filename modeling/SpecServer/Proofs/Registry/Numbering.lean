import SpecServer.Proofs.Registry.Pruning
set_option autoImplicit false

/-!
Numbers of contexts over any uses of a registry. No number is given twice, a key leads to the number that it was last
set to as long as that context lives, and a context that was pruned is never found again.
-/

namespace SpecServer.Registry

/-- The numbers that the insertions among some uses return, in order. -/
def returned (registry : Registry) : List Operation → List Nat
  | [] => []
  | .insert context :: rest => (registry.insert context).1 :: returned (registry.perform (.insert context)) rest
  | operation :: rest => returned (registry.perform operation) rest

/-- What a key was last set to, after one more use; pruning does not count. -/
def setBy (key : ContextKey) (held : Option Nat) : Operation → Option Nat
  | .index other id => if other = key then some id else held
  | .removeKey other => if other = key then none else held
  | _ => held

/-- The number that a key was last set to and not removed since. -/
def lastIndexed (operations : List Operation) (key : ContextKey) : Option Nat :=
  operations.foldl (setBy key) none

/-- Whether a number was given to a context that is gone. -/
def Retired (registry : Registry) (id : Nat) : Prop :=
  id < registry.nextId ∧ ¬registry.Lives id

variable {registry : Registry}

/-! ## Numbers that are given -/

private theorem returned_eq_range (operations : List Operation) :
    registry.returned operations = List.range' registry.nextId (registry.returned operations).length := by
  induction operations generalizing registry with
  | nil => rfl
  | cons operation rest ih =>
    cases operation with
    | insert context =>
      rw [returned, List.length_cons, List.range'_succ]
      exact congrArg (List.cons registry.nextId) ih
    | index | removeKey | track | untrack | prune => exact ih

/-! ## Numbers that are gone -/

private theorem mem_ids {id : Nat} : id ∈ registry.ids ↔ registry.Lives id := by
  constructor
  · intro member
    cases found : registry.get? id with
    | none => exact absurd member (Entries.get?_eq_none_iff.mp found)
    | some context => exact ⟨context, found⟩
  · rintro ⟨context, found⟩
    exact List.mem_map.mpr ⟨(id, context), Entries.mem_of_get? found, rfl⟩

private theorem Lives.below (formed : registry.WellFormed) {id : Nat} (lives : registry.Lives id) :
    id < registry.nextId :=
  formed.below id (mem_ids.mpr lives)

/-- A number that is gone stays so, since new contexts get higher ones. -/
theorem Retired.perform (formed : registry.WellFormed) {id : Nat} (retired : registry.Retired id)
    (operation : Operation) : (registry.perform operation).Retired id := by
  obtain ⟨given, gone⟩ := retired
  cases operation with
  | insert context =>
    refine ⟨Nat.lt_succ_of_lt given, ?_⟩
    rintro ⟨other, found⟩
    rw [Registry.perform, get?_insert, if_neg (Nat.ne_of_lt given), Option.or_none] at found
    exact gone ⟨other, found⟩
  | index key other => exact ⟨given, gone⟩
  | removeKey key => exact ⟨given, gone⟩
  | track other document => exact ⟨given, mt (lives_modify other id _).mp gone⟩
  | untrack other document => exact ⟨given, mt (lives_modify other id _).mp gone⟩
  | prune active =>
    refine ⟨given, ?_⟩
    rintro ⟨context, found⟩
    rw [Registry.perform, get?_prune formed, Option.filter_eq_some_iff] at found
    exact gone ⟨context, found.1⟩

private theorem Retired.run (formed : registry.WellFormed) {id : Nat} (retired : registry.Retired id)
    (operations : List Operation) : (registry.run operations).Retired id := by
  induction operations generalizing registry with
  | nil => exact retired
  | cons operation rest ih => exact ih (formed.perform operation) (retired.perform formed operation)

private theorem Retired.not_lookup {id : Nat} (retired : registry.Retired id) (key : ContextKey) :
    registry.lookup key ≠ some id := by
  intro found
  exact retired.2 (lookup_eq_some_iff.mp found).2

private theorem Retired.not_ownerOf (formed : registry.WellFormed) {id : Nat} (retired : registry.Retired id)
    (document : Uri) :
    registry.ownerOf document ≠ some id := by
  intro owned
  obtain ⟨context, found, -⟩ := ownerOf_cases formed owned
  exact retired.2 ⟨context, found⟩

/-! ## Keys and what they were set to -/

/-- Whether the keys lead where they were last set to, those to contexts that are gone apart: such a key may be gone
too. -/
structure Follows (registry : Registry) (held : ContextKey → Option Nat) : Prop where
  sound : ∀ key id, registry.target? key = some id → held key = some id
  complete : ∀ key id, held key = some id → registry.target? key = some id ∨ registry.Retired id

/-- A use that sets a key, or leaves all of them, keeps them where they were last set to. -/
theorem Follows.set {after : Registry} {held last : ContextKey → Option Nat} (follows : registry.Follows held)
    (set : ContextKey → Option (Option Nat)) (target : ∀ key, after.target? key = (set key).getD (registry.target? key))
    (recorded : ∀ key, last key = (set key).getD (held key)) (retires : ∀ id, registry.Retired id → after.Retired id) :
    after.Follows last := by
  refine ⟨fun key id leads => ?_, fun key id led => ?_⟩
  · rw [target] at leads
    rw [recorded]
    cases found : set key with
    | none =>
      rw [found] at leads
      exact follows.sound key id leads
    | some value =>
      rw [found] at leads
      exact leads
  · rw [recorded] at led
    rw [target]
    cases found : set key with
    | none =>
      rw [found] at led
      exact (follows.complete key id led).imp_right (retires id)
    | some value =>
      rw [found] at led
      exact .inl led

private theorem Follows.perform {held : ContextKey → Option Nat} (formed : registry.WellFormed)
    (follows : registry.Follows held)
    (operation : Operation) : (registry.perform operation).Follows fun key => setBy key (held key) operation := by
  have retires := fun id (retired : registry.Retired id) => retired.perform formed operation
  cases operation with
  | insert context => exact follows.set (fun _ => none) (fun _ => rfl) (fun _ => rfl) retires
  | track id document => exact follows.set (fun _ => none) (fun _ => rfl) (fun _ => rfl) retires
  | untrack id document => exact follows.set (fun _ => none) (fun _ => rfl) (fun _ => rfl) retires
  | index key id =>
    refine follows.set (fun other => if key = other then some (some id) else none) ?_ ?_ retires
    · intro other
      rw [Registry.perform, target?_index]
      split <;> rfl
    · intro other
      simp only [setBy]
      split <;> rfl
  | removeKey key =>
    refine follows.set (fun other => if key = other then some none else none) ?_ ?_ retires
    · intro other
      rw [Registry.perform, target?_removeKey]
      split <;> rfl
    · intro other
      simp only [setBy]
      split <;> rfl
  | prune active =>
    refine ⟨fun key id target => ?_, fun key id last => ?_⟩
    · rw [Registry.perform, target?_prune_idle formed, Option.filter_eq_some_iff] at target
      exact follows.sound key id target.1
    · rcases follows.complete key id last with target | retired
      · by_cases member : id ∈ registry.idle active
        · -- the key goes together with the context that it leads to
          refine .inr ⟨?_, ?_⟩
          · obtain ⟨context, found, -⟩ := (mem_idle formed active).mp member
            exact Lives.below formed ⟨context, found⟩
          · rintro ⟨context, found⟩
            rw [Registry.perform, get?_prune_idle formed, if_pos member] at found
            cases found
        · refine .inl ?_
          rw [Registry.perform, target?_prune_idle formed, target, Option.filter_some, if_pos (decide_eq_true member)]
      · exact .inr (retires id retired)

private theorem Follows.run {held : ContextKey → Option Nat} (formed : registry.WellFormed)
    (follows : registry.Follows held)
    (operations : List Operation) : (registry.run operations).Follows fun key => operations.foldl (setBy key) (held key) := by
  induction operations generalizing registry held with
  | nil => exact follows
  | cons operation rest ih => exact ih (formed.perform operation) (follows.perform formed operation)

private theorem follows_empty : empty.Follows fun _ => none := by
  refine ⟨fun key id target => ?_, fun key id held => ?_⟩
  · cases target
  · cases held

private theorem follows_used (operations : List Operation) : (used operations).Follows (lastIndexed operations) :=
  follows_empty.run wellFormed_empty operations

private theorem Follows.lookup_iff {held : ContextKey → Option Nat} (follows : registry.Follows held)
    (key : ContextKey) (id : Nat) :
    registry.lookup key = some id ↔ held key = some id ∧ id ∈ registry.ids := by
  rw [lookup_eq_some_iff, mem_ids]
  constructor
  · rintro ⟨target, lives⟩
    exact ⟨follows.sound key id target, lives⟩
  · rintro ⟨last, lives⟩
    refine ⟨(follows.complete key id last).resolve_right ?_, lives⟩
    exact fun retired => retired.2 lives

/-- The numbers given are those from zero up, each once. A key leads to the number that it was last set to and not removed
since, if that context lives, and nowhere otherwise. A context that a pruning takes away is never found again under its
number, by a key or for a document, whatever keys are set to it later. -/
theorem numbers_retire (operations : List Operation) :
    (empty.returned operations).Nodup ∧
      empty.returned operations = List.range (empty.returned operations).length ∧
      (∀ key id, (used operations).lookup key = some id ↔
        lastIndexed operations key = some id ∧ id ∈ (used operations).ids) ∧
      ∀ before active after id, operations = before ++ .prune active :: after → id ∈ (used before).ids →
        id ∉ ((used before).prune active).2.ids →
          id ∉ (used operations).ids ∧ (used operations).get? id = none ∧
            (∀ key, (used operations).lookup key ≠ some id) ∧ ∀ document, (used operations).ownerOf document ≠ some id := by
  have numbered : empty.returned operations = List.range (empty.returned operations).length := by
    rw [List.range_eq_range']
    exact returned_eq_range operations
  refine ⟨?_, numbered, (follows_used operations).lookup_iff, ?_⟩
  · rw [numbered]
    exact List.nodup_range
  · rintro before active after id rfl lived gone
    have split : used (before ++ .prune active :: after) = ((used before).prune active).2.run after :=
      List.foldl_append
    have formed := (orderly_used before).1
    have formed' := (orderly_used (before ++ .prune active :: after)).1
    have retired : ((used before).prune active).2.Retired id :=
      ⟨Lives.below formed (mem_ids.mp lived), mt mem_ids.mpr gone⟩
    have later := retired.run (formed.prune active) after
    rw [split] at formed' ⊢
    refine ⟨mt mem_ids.mp later.2, ?_, later.not_lookup, later.not_ownerOf formed'⟩
    cases found : (((used before).prune active).2.run after).get? id with
    | none => rfl
    | some context => exact absurd ⟨context, found⟩ later.2

end SpecServer.Registry
