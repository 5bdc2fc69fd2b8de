import SpecServer.Proofs.Registry.Survival
set_option autoImplicit false

/-!
What a pruning takes away. After any uses of a registry, it gives exactly the contexts that nothing keeps alive, in the
order of their numbers. All others stay as they are and keep their keys, and pruning again finds nothing.
-/

namespace SpecServer.Registry

/-- One use of a registry. A key may be set to any number, also to that of a context that is gone. A pruning comes with
the documents that are open at the time. -/
inductive Operation where
  | insert (context : Context)
  | index (key : ContextKey) (id : Nat)
  | removeKey (key : ContextKey)
  | track (id : Nat) (document : Uri)
  | untrack (id : Nat) (document : Uri)
  | prune (active : Uri → Bool)

/-- Uses a registry. -/
def perform (registry : Registry) : Operation → Registry
  | .insert context => (registry.insert context).2
  | .index key id => registry.index key id
  | .removeKey key => registry.removeKey key
  | .track id document => registry.modify id fun context => context.track document
  | .untrack id document => registry.modify id fun context => context.untrack document
  | .prune active => (registry.prune active).2

/-- A registry after some uses. -/
def run (registry : Registry) (operations : List Operation) : Registry :=
  operations.foldl perform registry

/-- An empty registry after some uses. -/
def used (operations : List Operation) : Registry :=
  empty.run operations

/-- Whether nothing keeps a context alive: no key leads to it, or it is real and none of its documents is open. -/
def Abandoned (registry : Registry) (active : Uri → Bool) (id : Nat) : Prop :=
  ∃ context, registry.get? id = some context ∧
    ((∀ key, registry.target? key ≠ some id) ∨
      context.kind = .real ∧ ∀ document ∈ context.tracked, active document = false)

variable {registry : Registry}

/-! ## Tables in order -/

theorem WellFormed.perform (formed : registry.WellFormed) (operation : Operation) :
    (registry.perform operation).WellFormed := by
  cases operation with
  | insert context => exact formed.insert context
  | index key id => exact formed.index key id
  | removeKey key => exact formed.removeKey key
  | track id document => exact formed.modify id fun context => context.track document
  | untrack id document => exact formed.modify id fun context => context.untrack document
  | prune active => exact formed.prune active

private theorem ascends_perform (formed : registry.WellFormed) (ascends : registry.ids.Pairwise (· < ·))
    (operation : Operation) : (registry.perform operation).ids.Pairwise (· < ·) := by
  cases operation with
  | insert context =>
    have added : (registry.perform (.insert context)).ids = registry.ids ++ [registry.nextId] :=
      List.map_append
    rw [added, List.pairwise_append]
    refine ⟨ascends, List.pairwise_singleton _ _, ?_⟩
    intro id member last singleton
    rw [List.mem_singleton.mp singleton]
    exact formed.below id member
  | index key id => exact ascends
  | removeKey key => exact ascends
  | track id document =>
    rw [perform, ids_modify]
    exact ascends
  | untrack id document =>
    rw [perform, ids_modify]
    exact ascends
  | prune active => exact ascends.sublist (List.filter_sublist.map _)

private theorem orderly_run (operations : List Operation) (formed : registry.WellFormed)
    (ascends : registry.ids.Pairwise (· < ·)) :
    (registry.run operations).WellFormed ∧ (registry.run operations).ids.Pairwise (· < ·) := by
  induction operations generalizing registry with
  | nil => exact ⟨formed, ascends⟩
  | cons operation rest ih => exact ih (formed.perform operation) (ascends_perform formed ascends operation)

theorem orderly_used (operations : List Operation) :
    (used operations).WellFormed ∧ (used operations).ids.Pairwise (· < ·) :=
  orderly_run operations wellFormed_empty List.Pairwise.nil

/-! ## What is idle -/

private theorem isIdle_iff (formed : registry.WellFormed) (active : Uri → Bool) {id : Nat} {context : Context} :
    registry.isIdle active (id, context) = true ↔ (∀ key, registry.target? key ≠ some id) ∨
      context.kind = .real ∧ ∀ document ∈ context.tracked, active document = false := by
  have keyless : (!registry.keys.any (·.2 == id)) = true ↔ ∀ key, registry.target? key ≠ some id := by
    simp only [Bool.not_eq_true', List.any_eq_false, beq_iff_eq, ne_eq, target?_eq_some_iff formed, Prod.forall]
    constructor
    · intro other key member
      exact other key id member rfl
    · rintro other key _ member rfl
      exact other key member
  have real : (!context.isSynthesized) = true ↔ context.kind = .real := by
    cases kind : context.kind <;> simp [Context.isSynthesized, kind]
  rw [isIdle, Bool.or_eq_true, Bool.and_eq_true, keyless, real]
  simp only [Context.hasActive, Bool.not_eq_true', List.any_eq_false, Bool.not_eq_true]

def idle (registry : Registry) (active : Uri → Bool) : List Nat :=
  (registry.contexts.filter (registry.isIdle active)).map Prod.fst

theorem mem_idle (formed : registry.WellFormed) (active : Uri → Bool) {id : Nat} :
    id ∈ registry.idle active ↔ registry.Abandoned active id := by
  simp only [idle, Abandoned, ← isIdle_iff formed active, get?, Entries.get?_eq_some_iff formed.ids, List.mem_map,
    List.mem_filter]
  constructor
  · rintro ⟨⟨_, context⟩, held, rfl⟩
    exact ⟨context, held⟩
  · rintro ⟨context, held⟩
    exact ⟨(id, context), held, rfl⟩

private theorem get?_idle (formed : registry.WellFormed) (active : Uri → Bool) :
    (registry.idle active).map registry.get? = (registry.prune active).1.map some := by
  simp only [idle, prune, List.map_map]
  apply List.map_congr_left
  rintro ⟨id, context⟩ member
  exact (Entries.get?_eq_some_iff formed.ids).mpr (List.mem_filter.mp member).1

private theorem mem_idle_of_get? (formed : registry.WellFormed) (active : Uri → Bool) {id : Nat} {context : Context}
    (found : registry.get? id = some context) :
    id ∈ registry.idle active ↔ registry.isIdle active (id, context) = true := by
  rw [mem_idle formed, isIdle_iff formed, Abandoned]
  constructor
  · rintro ⟨other, met, reason⟩
    rw [Option.some.inj (found.symm.trans met)]
    exact reason
  · intro reason
    exact ⟨context, found, reason⟩

/-! ## What stays -/

theorem get?_prune_idle (formed : registry.WellFormed) (active : Uri → Bool) (id : Nat) :
    (registry.prune active).2.get? id = if id ∈ registry.idle active then none else registry.get? id := by
  rw [get?_prune formed]
  cases found : registry.get? id with
  | none => simp
  | some context =>
    have among := mem_idle_of_get? formed active found
    rw [Option.filter_some]
    cases idle : registry.isIdle active (id, context) with
    | true => exact (if_pos (among.mpr idle)).symm
    | false =>
      have kept : id ∉ registry.idle active := by
        rw [among, idle]
        exact Bool.false_ne_true
      exact (if_neg kept).symm

theorem target?_prune_idle (formed : registry.WellFormed) (active : Uri → Bool) (key : ContextKey) :
    (registry.prune active).2.target? key = (registry.target? key).filter fun id => id ∉ registry.idle active := by
  rw [target?_prune formed]
  congr 1
  funext id
  rw [Bool.eq_iff_iff, decide_eq_true_iff, Bool.not_eq_true', ← Bool.not_eq_true, Option.any_eq_true]
  apply not_congr
  constructor
  · rintro ⟨context, found, idle⟩
    exact (mem_idle_of_get? formed active found).mpr idle
  · intro member
    obtain ⟨context, found, -⟩ := (mem_idle formed active).mp member
    exact ⟨context, found, (mem_idle_of_get? formed active found).mp member⟩

/-- What outlives a pruning is not idle after it, since its keys and its documents stay. -/
theorem prune_prune (formed : registry.WellFormed) (active : Uri → Bool) :
    (registry.prune active).2.prune active = ([], (registry.prune active).2) := by
  have formed' := formed.prune active
  apply prune_eq
  rintro ⟨id, context⟩ member
  have found : (registry.prune active).2.get? id = some context := (Entries.get?_eq_some_iff formed'.ids).mpr member
  rw [get?_prune_idle formed] at found
  split at found
  · cases found
  next kept =>
    -- the reason for which it outlived the first pruning still holds
    rw [← Bool.not_eq_true, isIdle_iff formed']
    intro reason
    apply kept
    rw [mem_idle_of_get? formed active found, isIdle_iff formed]
    refine reason.imp_left fun keyless key target => keyless key ?_
    rw [target?_prune_idle formed, target, Option.filter_some, if_pos (decide_eq_true kept)]

/-- After any uses of a registry, a pruning gives exactly the contexts that nothing keeps alive, in the order of their
numbers. The contexts that stay do not change, exactly the keys that lead to the others go, whether the rest lead
anywhere or not, and pruning again gives nothing and changes nothing. -/
theorem prune_exact (operations : List Operation) (active : Uri → Bool) :
    ∃ removed : List Nat, removed.Pairwise (· < ·) ∧
      (∀ id, id ∈ removed ↔ (used operations).Abandoned active id) ∧
      removed.map (used operations).get? = ((used operations).prune active).1.map some ∧
      (∀ id, ((used operations).prune active).2.get? id =
        if id ∈ removed then none else (used operations).get? id) ∧
      (∀ key, ((used operations).prune active).2.target? key =
        ((used operations).target? key).filter fun id => id ∉ removed) ∧
      ((used operations).prune active).2.prune active = ([], ((used operations).prune active).2) := by
  obtain ⟨formed, ascends⟩ := orderly_used operations
  refine ⟨(used operations).idle active, ascends.sublist (List.filter_sublist.map _), ?_, ?_, ?_, ?_, ?_⟩
  · intro id
    exact mem_idle formed active
  · exact get?_idle formed active
  · exact get?_prune_idle formed active
  · exact target?_prune_idle formed active
  · exact prune_prune formed active

end SpecServer.Registry
