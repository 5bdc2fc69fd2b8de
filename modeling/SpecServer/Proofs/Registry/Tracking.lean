import SpecServer.Proofs.Registry.Coherence
set_option autoImplicit false

/-!
Which context tracks which document, and how each move changes that. Only settling and holding make a context
track more; everything else takes documents or whole contexts away.
-/

namespace SpecServer.Registry

variable {registry : Registry}

/-- Whether a living context tracks a document. -/
def Tracks (registry : Registry) (id : Nat) (document : Uri) : Prop :=
  ∃ context, registry.get? id = some context ∧ document ∈ context.tracked

/-- Whether a number stands for a living context. -/
def Lives (registry : Registry) (id : Nat) : Prop :=
  ∃ context, registry.get? id = some context

instance (registry : Registry) (id : Nat) (document : Uri) : Decidable (registry.Tracks id document) :=
  decidable_of_iff ((registry.get? id).any fun context => context.isTracking document) (by
    simp [Tracks, Option.any_eq_true, Context.isTracking])

theorem Tracks.lives {id : Nat} {document : Uri} (tracks : registry.Tracks id document) : registry.Lives id := by
  obtain ⟨context, found, -⟩ := tracks
  exact ⟨context, found⟩

theorem lives_outline {id : Nat} : registry.outline.Lives id ↔ registry.Lives id := by
  simp only [Lives, get?_outline, Option.map_eq_some_iff]
  constructor
  · rintro ⟨-, context, found, -⟩
    exact ⟨context, found⟩
  · rintro ⟨context, found⟩
    exact ⟨_, context, found, rfl⟩

theorem tracks_outline {id : Nat} {document : Uri} : registry.outline.Tracks id document ↔ registry.Tracks id document := by
  simp only [Tracks, get?_outline, Option.map_eq_some_iff]
  constructor
  · rintro ⟨-, ⟨context, found, rfl⟩, member⟩
    exact ⟨context, found, member⟩
  · rintro ⟨context, found, member⟩
    exact ⟨_, ⟨context, found, rfl⟩, member⟩

@[simp] theorem tracks_removeKey (key : ContextKey) (id : Nat) (document : Uri) :
    (registry.removeKey key).Tracks id document ↔ registry.Tracks id document := .rfl

theorem lives_modify (id other : Nat) (change : Context → Context) :
    (registry.modify id change).Lives other ↔ registry.Lives other := by
  simp only [Lives, get?_modify]
  split
  · cases registry.get? other <;> simp
  · rfl

theorem lookup_modify (registry : Registry) (id : Nat) (change : Context → Context) (key : ContextKey) :
    (registry.modify id change).lookup key = registry.lookup key := by
  apply Option.ext
  intro other
  rw [lookup_eq_some_iff, lookup_eq_some_iff, target?_modify]
  exact and_congr_right fun _ => lives_modify id other change

theorem tracks_hold {id other : Nat} {key document : Uri} :
    (registry.hold id key).Tracks other document ↔
      registry.Tracks other document ∨ (other = id ∧ document = key ∧ registry.Lives id) := by
  simp only [Tracks, Lives, get?_hold]
  split
  next same =>
    subst same
    cases registry.get? other with
    | none => simp
    | some context => simp [Context.mem_track]
  next apart => simp [apart]

theorem tracks_untrack (coherent : registry.Coherent) {id other : Nat} {key document : Uri} :
    (registry.modify id fun context => context.untrack key).Tracks other document ↔
      registry.Tracks other document ∧ ¬(other = id ∧ document = key) := by
  simp only [Tracks, get?_modify]
  split
  next same =>
    subst same
    cases found : registry.get? other with
    | none => simp
    | some context =>
      have single := coherent.single other context found
      simp [Context.untrack, single.mem_erase_iff, and_comm]
  next apart => simp [apart]

private theorem tracks_of_untrack {id other : Nat} {key document : Uri}
    (tracks : (registry.modify id fun context => context.untrack key).Tracks other document) :
    registry.Tracks other document := by
  obtain ⟨context, found, member⟩ := tracks
  rw [get?_modify] at found
  split at found
  · obtain ⟨before, held, rfl⟩ := Option.map_eq_some_iff.mp found
    exact ⟨before, held, List.mem_of_mem_erase member⟩
  · exact ⟨context, found, member⟩

theorem tracks_prune (formed : registry.WellFormed) (active : Uri → Bool) {id : Nat} {document : Uri} :
    (registry.prune active).2.Tracks id document ↔
      registry.Tracks id document ∧ (registry.prune active).2.Lives id := by
  simp only [Tracks, Lives, get?_prune formed, Option.filter_eq_some_iff]
  constructor
  · rintro ⟨context, ⟨found, stays⟩, member⟩
    exact ⟨⟨context, found, member⟩, context, found, stays⟩
  · rintro ⟨⟨context, found, member⟩, other, met, stays⟩
    have same : context = other := Option.some.inj (found.symm.trans met)
    exact ⟨context, ⟨found, same ▸ stays⟩, member⟩

theorem Settled.tracks {before after : Registry} {document : Uri} {choice : Choice} {id : Nat}
    (settled : Settled before document choice id after) {other : Nat} {key : Uri} :
    after.Tracks other key ↔ before.Tracks other key ∨ (other = id ∧ key ∈ choice.taken) := by
  simp only [Tracks, settled.context]
  split
  next same =>
    subst same
    simp only [Option.some.injEq, exists_eq_left', Context.mem_foldl_track, true_and]
    cases before.get? other with
    | none => simp [Choice.founder, Context.start]
    | some context => simp
  next apart => simp [apart]

theorem Settled.lives {before after : Registry} {document : Uri} {choice : Choice} {id : Nat}
    (settled : Settled before document choice id after) : after.Lives id :=
  ⟨_, (settled.context id).trans (if_pos rfl)⟩

theorem tracks_release (coherent : registry.Coherent) {previous id : Nat} {document key : Uri} :
    (registry.release previous document).Tracks id key ↔
      registry.Tracks id key ∧ ¬(id = previous ∧ key = document) := by
  have vacated : (registry.vacate previous document).Tracks id key ↔
      registry.Tracks id key ∧ ¬(id = previous ∧ key = document) := by
    simp only [vacate]
    split
    next absent =>
      refine ⟨fun tracks => ⟨tracks, ?_⟩, And.left⟩
      rintro ⟨rfl, -⟩
      obtain ⟨context, found, -⟩ := tracks
      cases absent.symm.trans found
    next =>
      split
      · rw [tracks_removeKey]
        exact tracks_untrack coherent
      · exact tracks_untrack coherent
  simp only [release, disclaim]
  split
  · exact vacated
  · exact vacated

theorem tracks_of_foldl_drop {id other : Nat} {closed : Uri → Bool} {inputs : List Uri} {document : Uri}
    (tracks : (inputs.foldl (drop id closed) registry).Tracks other document) : registry.Tracks other document := by
  induction inputs generalizing registry with
  | nil => exact tracks
  | cons input rest ih =>
    have first := ih tracks
    simp only [drop] at first
    split at first
    · exact tracks_of_untrack first
    · exact first

theorem tracks_of_leave {id other : Nat} {context : Context} {document key held : Uri}
    (tracks : (registry.leave id context document key).Tracks other held) : registry.Tracks other held := by
  have freed := tracks_of_untrack tracks
  rw [tracks_removeKey] at freed
  split at freed
  · exact freed
  · split at freed
    · exact freed
    · exact freed

end SpecServer.Registry
