import SpecServer.Proofs.Registry.Lookup
set_option autoImplicit false

/-!
The outline of a registry: all of it but what its engine sessions hold and which passes ran. Loading a
configuration and running a pass leave the outline as it is, and every other operation acts on the outline as
it acts on the registry.
-/

namespace SpecServer

/-- A context as far as it decides on ownership: its configuration, its kind and what it tracks. -/
def Context.outline (context : Context) : Context :=
  { context with session := .start context.configuration, activated := false, processed := none }

def Registry.outline (registry : Registry) : Registry :=
  { registry with contexts := registry.contexts.map fun entry => (entry.1, entry.2.outline) }

namespace Context

@[simp] theorem outline_configuration (context : Context) :
    context.outline.configuration = context.configuration := rfl

@[simp] theorem outline_kind (context : Context) : context.outline.kind = context.kind := rfl

@[simp] theorem outline_tracked (context : Context) : context.outline.tracked = context.tracked := rfl

@[simp] theorem outline_isSynthesized (context : Context) :
    context.outline.isSynthesized = context.isSynthesized := rfl

theorem outline_track (context : Context) (key : Uri) : (context.track key).outline = context.outline.track key := by
  by_cases tracking : context.isTracking key = true
  · have same : context.outline.isTracking key = true := tracking
    simp [track, tracking, same]
  · have same : ¬ context.outline.isTracking key = true := tracking
    simp only [track, tracking, same, Bool.false_eq_true, ↓reduceIte]
    rfl

theorem outline_untrack (context : Context) (key : Uri) :
    (context.untrack key).outline = context.outline.untrack key := rfl

theorem outline_loadView (context : Context) (store : Store) :
    (context.loadView store).2.1.outline = context.outline := rfl

theorem outline_process (context : Context) (store : Store) :
    (context.process store).2.1.outline = context.outline := rfl

end Context

namespace Registry

@[simp] theorem outline_nextId (registry : Registry) : registry.outline.nextId = registry.nextId := rfl

@[simp] theorem outline_keys (registry : Registry) : registry.outline.keys = registry.keys := rfl

private theorem outline_ids (registry : Registry) :
    registry.outline.contexts.map Prod.fst = registry.contexts.map Prod.fst := by
  simp [outline, Function.comp_def]

theorem get?_outline (registry : Registry) (id : Nat) :
    registry.outline.get? id = (registry.get? id).map Context.outline :=
  Entries.get?_mapValue registry.contexts (fun _ context => context.outline) id

@[simp] theorem target?_outline (registry : Registry) (key : ContextKey) :
    registry.outline.target? key = registry.target? key := rfl

theorem lookup_outline (registry : Registry) (key : ContextKey) :
    registry.outline.lookup key = registry.lookup key := by
  have same : registry.outline.contexts.has = registry.contexts.has := by
    funext id
    have found := registry.get?_outline id
    simp only [get?] at found
    simp only [Entries.has, found, Option.isSome_map]
  simp only [lookup, target?_outline, same]

theorem ownerOf_outline (registry : Registry) (document : Uri) :
    registry.outline.ownerOf document = registry.ownerOf document := by
  have first : (registry.outline.contexts.find? fun entry => entry.2.isTracking document).map Prod.fst =
      (registry.contexts.find? fun entry => entry.2.isTracking document).map Prod.fst := by
    simp only [outline, List.find?_map, Option.map_map]
    rfl
  simp only [ownerOf, lookup_outline, first]

theorem wellFormed_outline {registry : Registry} : registry.outline.WellFormed ↔ registry.WellFormed := by
  constructor
  · rintro ⟨ids, below, keys⟩
    rw [outline_ids] at ids below
    exact ⟨ids, below, keys⟩
  · rintro ⟨ids, below, keys⟩
    refine ⟨?_, ?_, keys⟩ <;> rw [outline_ids]
    · exact ids
    · exact below

/-! ## Operations on outlines -/

theorem outline_modify (registry : Registry) (id : Nat) {change shape : Context → Context}
    (same : ∀ context, (change context).outline = shape context.outline) :
    (registry.modify id change).outline = registry.outline.modify id shape := by
  simp only [outline, modify, List.map_map]
  congr 1
  apply List.map_congr_left
  rintro ⟨number, context⟩ -
  simp only [Function.comp_apply]
  split
  · simp only [same]
  · rfl

theorem outline_modify_eq (registry : Registry) (id : Nat) {change : Context → Context}
    (same : ∀ context, (change context).outline = context.outline) :
    (registry.modify id change).outline = registry.outline := by
  simp only [outline, modify, List.map_map]
  congr 1
  apply List.map_congr_left
  rintro ⟨number, context⟩ -
  simp only [Function.comp_apply]
  split
  · simp only [same]
  · rfl

theorem outline_set {registry : Registry} (formed : registry.WellFormed) {id : Nat} {context changed : Context}
    (found : registry.get? id = some context) (same : changed.outline = context.outline) :
    (registry.set id changed).outline = registry.outline := by
  simp only [outline, set, modify, List.map_map]
  congr 1
  apply List.map_congr_left
  rintro ⟨number, other⟩ member
  simp only [Function.comp_apply]
  split
  next equal =>
    have stored : registry.get? id = some other := equal ▸ (Entries.get?_eq_some_iff formed.ids).mpr member
    have only : other = context := Option.some.inj (stored.symm.trans found)
    simp only [same, only]
  next => rfl

theorem outline_insert (registry : Registry) (context : Context) :
    (registry.insert context).2.outline = (registry.outline.insert context.outline).2 := by
  simp [outline, insert]

theorem outline_index (registry : Registry) (key : ContextKey) (id : Nat) :
    (registry.index key id).outline = registry.outline.index key id := rfl

theorem outline_removeKey (registry : Registry) (key : ContextKey) :
    (registry.removeKey key).outline = registry.outline.removeKey key := rfl

theorem outline_prune (registry : Registry) (active : Uri → Bool) :
    (registry.prune active).2.outline = (registry.outline.prune active).2 := by
  have idle : registry.outline.contexts.filter (registry.outline.isIdle active) =
      (registry.contexts.filter (registry.isIdle active)).map fun entry => (entry.1, entry.2.outline) := by
    simp only [outline, List.filter_map]
    rfl
  have removed : (registry.outline.contexts.filter (registry.outline.isIdle active)).map Prod.fst =
      (registry.contexts.filter (registry.isIdle active)).map Prod.fst := by
    rw [idle, List.map_map]
    rfl
  simp only [prune, removed]
  simp only [outline, List.filter_map]
  rfl

end Registry

end SpecServer
