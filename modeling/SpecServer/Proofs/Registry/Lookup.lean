import SpecServer.Registry
set_option autoImplicit false

/-!
What the operations on a registry do to its two views: the context behind a number and the number behind a
key. Both tables hold each of their keys once, which every operation keeps.
-/

namespace SpecServer

namespace Entries

variable {κ ν : Type} [DecidableEq κ]

theorem mem_of_get? {entries : Entries κ ν} {key : κ} {value : ν} (found : entries.get? key = some value) :
    (key, value) ∈ entries := by
  induction entries with
  | nil => simp [get?] at found
  | cons entry rest ih =>
    obtain ⟨first, held⟩ := entry
    simp only [get?] at found
    split at found
    next same =>
      subst same
      cases found
      exact List.mem_cons_self
    next => exact List.mem_cons_of_mem _ (ih found)

theorem get?_eq_some_iff {entries : Entries κ ν} (unique : (entries.map Prod.fst).Nodup) {key : κ} {value : ν} :
    entries.get? key = some value ↔ (key, value) ∈ entries := by
  refine ⟨mem_of_get?, fun member => ?_⟩
  induction entries with
  | nil => simp at member
  | cons entry rest ih =>
    obtain ⟨first, held⟩ := entry
    simp only [List.map_cons, List.nodup_cons] at unique
    rcases List.mem_cons.mp member with same | later
    · cases same
      simp [get?]
    · have differs : first ≠ key := by
        rintro rfl
        exact unique.1 (List.mem_map.mpr ⟨_, later, rfl⟩)
      simpa [get?, differs] using ih unique.2 later

theorem get?_eq_none_iff {entries : Entries κ ν} {key : κ} :
    entries.get? key = none ↔ key ∉ entries.map Prod.fst := by
  induction entries with
  | nil => simp [get?]
  | cons entry rest ih =>
    obtain ⟨first, held⟩ := entry
    by_cases same : first = key
    · simp [get?, same]
    · simp only [get?, same, ↓reduceIte, ih, List.map_cons, List.mem_cons, not_or]
      exact ⟨fun absent => ⟨fun equal => same equal.symm, absent⟩, And.right⟩

theorem get?_append (front back : Entries κ ν) (key : κ) :
    Entries.get? (front ++ back) key = (front.get? key).or (back.get? key) := by
  induction front with
  | nil => rfl
  | cons entry rest ih =>
    obtain ⟨first, held⟩ := entry
    simp only [List.cons_append, get?]
    split
    · rfl
    · exact ih

theorem get?_mapValue (entries : Entries κ ν) (change : κ → ν → ν) (key : κ) :
    Entries.get? (entries.map fun entry => (entry.1, change entry.1 entry.2)) key =
      (entries.get? key).map (change key) := by
  induction entries with
  | nil => rfl
  | cons entry rest ih =>
    obtain ⟨first, held⟩ := entry
    by_cases same : first = key
    · simp [get?, same]
    · simpa [get?, same] using ih

private theorem get?_filter {entries : Entries κ ν} (unique : (entries.map Prod.fst).Nodup) (keep : κ × ν → Bool)
    (key : κ) :
    Entries.get? (entries.filter keep) key = (entries.get? key).filter fun value => keep (key, value) := by
  have fewer : ((entries.filter keep).map Prod.fst).Nodup := unique.sublist (List.filter_sublist.map _)
  ext value
  rw [get?_eq_some_iff fewer, Option.filter_eq_some_iff, get?_eq_some_iff unique, List.mem_filter]

end Entries

namespace Registry

variable {registry : Registry}

/-- The numbers and the keys each stand once, and the next number is above all others. -/
structure WellFormed (registry : Registry) : Prop where
  ids : (registry.contexts.map Prod.fst).Nodup
  below : ∀ id ∈ registry.contexts.map Prod.fst, id < registry.nextId
  keys : (registry.keys.map Prod.fst).Nodup

/-! ## The context behind a number -/

theorem get?_modify (registry : Registry) (id other : Nat) (change : Context → Context) :
    (registry.modify id change).get? other =
      if other = id then (registry.get? other).map change else registry.get? other := by
  have shaped : (registry.modify id change).contexts =
      registry.contexts.map fun entry => (entry.1, if entry.1 = id then change entry.2 else entry.2) := by
    apply List.map_congr_left
    rintro ⟨number, context⟩ -
    by_cases same : number = id <;> simp [same]
  have mapped := Entries.get?_mapValue registry.contexts
    (fun number context => if number = id then change context else context) other
  simp only [get?, shaped, mapped]
  split
  · rfl
  · exact Option.map_id' ▸ rfl

theorem get?_insert (registry : Registry) (context : Context) (id : Nat) :
    (registry.insert context).2.get? id =
      (registry.get? id).or (if id = registry.nextId then some context else none) := by
  simp only [insert, get?, Entries.get?_append]
  congr 1
  simp only [Entries.get?, eq_comm (a := registry.nextId)]

@[simp] theorem get?_index (registry : Registry) (key : ContextKey) (id other : Nat) :
    (registry.index key id).get? other = registry.get? other := rfl

@[simp] theorem get?_removeKey (registry : Registry) (key : ContextKey) (id : Nat) :
    (registry.removeKey key).get? id = registry.get? id := rfl

theorem get?_nextId (formed : registry.WellFormed) : registry.get? registry.nextId = none :=
  Entries.get?_eq_none_iff.mpr fun member => Nat.lt_irrefl _ (formed.below _ member)

/-! ## The number behind a key -/

theorem target?_index (registry : Registry) (key other : ContextKey) (id : Nat) :
    (registry.index key id).target? other = if key = other then some id else registry.target? other := by
  simp only [index, target?, Entries.get?]
  split
  · rfl
  · next differs => rw [Entries.get?_erase, if_neg differs]

theorem target?_removeKey (registry : Registry) (key other : ContextKey) :
    (registry.removeKey key).target? other = if key = other then none else registry.target? other :=
  Entries.get?_erase _ _ _

@[simp] theorem target?_modify (registry : Registry) (id : Nat) (change : Context → Context) (key : ContextKey) :
    (registry.modify id change).target? key = registry.target? key := rfl

@[simp] theorem target?_insert (registry : Registry) (context : Context) (key : ContextKey) :
    (registry.insert context).2.target? key = registry.target? key := rfl

theorem target?_eq_some_iff (formed : registry.WellFormed) {key : ContextKey} {id : Nat} :
    registry.target? key = some id ↔ (key, id) ∈ registry.keys :=
  Entries.get?_eq_some_iff formed.keys

theorem lookup_eq_some_iff {key : ContextKey} {id : Nat} :
    registry.lookup key = some id ↔ registry.target? key = some id ∧ ∃ context, registry.get? id = some context := by
  simp only [lookup, Option.filter_eq_some_iff, Entries.has, Option.isSome_iff_exists, get?]

/-! ## The owner of a document -/

theorem not_tracking_of_ownerOf_eq_none {document : Uri} (unowned : registry.ownerOf document = none) {id : Nat}
    {context : Context} (found : registry.get? id = some context) : document ∉ context.tracked := by
  simp only [ownerOf] at unowned
  split at unowned
  · cases unowned
  · split at unowned
    · cases unowned
    · rw [Option.map_eq_none_iff, List.find?_eq_none] at unowned
      simpa [Context.isTracking] using unowned _ (Entries.mem_of_get? found)

theorem ownerOf_cases (formed : registry.WellFormed) {document : Uri} {id : Nat}
    (owned : registry.ownerOf document = some id) :
    ∃ context, registry.get? id = some context ∧
      (registry.target? (.input document) = some id ∨ registry.target? (.configuration document) = some id ∨
        document ∈ context.tracked) := by
  simp only [ownerOf] at owned
  split at owned
  next byInput =>
    cases owned
    obtain ⟨target, context, found⟩ := lookup_eq_some_iff.mp byInput
    exact ⟨context, found, .inl target⟩
  next =>
    split at owned
    next byConfiguration =>
      cases owned
      obtain ⟨target, context, found⟩ := lookup_eq_some_iff.mp byConfiguration
      exact ⟨context, found, .inr (.inl target)⟩
    next =>
      obtain ⟨⟨number, context⟩, first, rfl⟩ := Option.map_eq_some_iff.mp owned
      have tracking : document ∈ context.tracked := by simpa [Context.isTracking] using List.find?_some first
      exact ⟨context, (Entries.get?_eq_some_iff formed.ids).mpr (List.mem_of_find?_eq_some first),
        .inr (.inr tracking)⟩

/-! ## Well-formedness -/

theorem wellFormed_empty : WellFormed empty :=
  ⟨List.nodup_nil, by simp [empty], List.nodup_nil⟩

theorem ids_modify (registry : Registry) (id : Nat) (change : Context → Context) :
    (registry.modify id change).ids = registry.ids := by
  simp only [ids, Entries.keys, modify, List.map_map]
  apply List.map_congr_left
  rintro ⟨number, context⟩ -
  simp only [Function.comp_apply]
  split <;> rfl

theorem WellFormed.modify (formed : registry.WellFormed) (id : Nat) (change : Context → Context) :
    (registry.modify id change).WellFormed := by
  have same : (registry.modify id change).contexts.map Prod.fst = registry.contexts.map Prod.fst :=
    ids_modify registry id change
  refine ⟨by simpa only [same] using formed.ids, ?_, formed.keys⟩
  rw [same]
  exact formed.below

theorem WellFormed.insert (formed : registry.WellFormed) (context : Context) :
    (registry.insert context).2.WellFormed := by
  refine ⟨?_, ?_, formed.keys⟩
  · simp only [Registry.insert, List.map_append, List.map_cons, List.map_nil, List.nodup_append]
    refine ⟨formed.ids, by simp, ?_⟩
    intro id member other singleton same
    have equal : id = registry.nextId := same.trans (List.mem_singleton.mp singleton)
    exact Nat.lt_irrefl _ (equal ▸ formed.below id member)
  · intro id member
    simp only [Registry.insert, List.map_append, List.map_cons, List.map_nil, List.mem_append,
      List.mem_singleton] at member ⊢
    rcases member with before | rfl
    · exact Nat.lt_succ_of_lt (formed.below id before)
    · exact Nat.lt_succ_self _

theorem WellFormed.removeKey (formed : registry.WellFormed) (key : ContextKey) :
    (registry.removeKey key).WellFormed :=
  ⟨formed.ids, formed.below, formed.keys.sublist (List.filter_sublist.map _)⟩

theorem WellFormed.index (formed : registry.WellFormed) (key : ContextKey) (id : Nat) :
    (registry.index key id).WellFormed := by
  refine ⟨formed.ids, formed.below, ?_⟩
  simp only [Registry.index, List.map_cons, List.nodup_cons]
  refine ⟨?_, (formed.removeKey key).keys⟩
  simp [Entries.erase]

/-! ## Pruning -/

private theorem filter_congr {α : Type} {value? : Option α} {keep hold : α → Bool}
    (agree : ∀ value, value? = some value → keep value = hold value) : value?.filter keep = value?.filter hold := by
  cases value? with
  | none => rfl
  | some value => simp only [Option.filter_some, agree value rfl]

/-- Pruning takes away the idle contexts and leaves all others as they are. -/
theorem get?_prune (formed : registry.WellFormed) (active : Uri → Bool) (id : Nat) :
    (registry.prune active).2.get? id =
      (registry.get? id).filter fun context => !registry.isIdle active (id, context) := by
  simp only [prune, get?, Entries.get?_filter formed.ids]
  apply filter_congr
  intro context found
  have removed : ((registry.contexts.filter (registry.isIdle active)).map Prod.fst).contains id =
      registry.isIdle active (id, context) := by
    rw [Bool.eq_iff_iff, List.contains_iff_mem, List.mem_map]
    constructor
    · rintro ⟨⟨number, other⟩, member, rfl⟩
      obtain ⟨stored, idle⟩ := List.mem_filter.mp member
      have same : other = context :=
        Option.some.inj (((Entries.get?_eq_some_iff formed.ids).mpr stored).symm.trans found)
      exact same ▸ idle
    · intro idle
      exact ⟨(id, context), List.mem_filter.mpr ⟨Entries.mem_of_get? found, idle⟩, rfl⟩
  rw [removed]

theorem target?_prune (formed : registry.WellFormed) (active : Uri → Bool) (key : ContextKey) :
    (registry.prune active).2.target? key =
      (registry.target? key).filter fun id =>
        !((registry.get? id).any fun context => registry.isIdle active (id, context)) := by
  simp only [prune, target?, Entries.get?_filter formed.keys]
  apply filter_congr
  intro id _
  have removed : ((registry.contexts.filter (registry.isIdle active)).map Prod.fst).contains id =
      (registry.get? id).any fun context => registry.isIdle active (id, context) := by
    rw [Bool.eq_iff_iff, List.contains_iff_mem, List.mem_map, Option.any_eq_true]
    constructor
    · rintro ⟨⟨number, context⟩, member, rfl⟩
      obtain ⟨stored, idle⟩ := List.mem_filter.mp member
      exact ⟨context, (Entries.get?_eq_some_iff formed.ids).mpr stored, idle⟩
    · rintro ⟨context, found, idle⟩
      exact ⟨(id, context), List.mem_filter.mpr ⟨Entries.mem_of_get? found, idle⟩, rfl⟩
  rw [removed]

theorem WellFormed.prune (formed : registry.WellFormed) (active : Uri → Bool) :
    (registry.prune active).2.WellFormed := by
  refine ⟨formed.ids.sublist (List.filter_sublist.map _), ?_, formed.keys.sublist (List.filter_sublist.map _)⟩
  intro id member
  exact formed.below id ((List.filter_sublist.map _).subset member)

end Registry

end SpecServer
