import SpecServer.Proofs.Registry.Survival
set_option autoImplicit false

/-!
Properties that every move of a coherent registry keeps. One of them is that a configuration is at home in its
folder: where its key leads, the key of its folder leads as well.
-/

namespace SpecServer.Registry

variable {registry : Registry}

/-- Whether every move of a coherent registry keeps a property. -/
structure Kept (holds : Registry → Prop) : Prop where
  settled : ∀ {before after : Registry} {document : Uri} {choice : Choice} {id : Nat}, before.Coherent → holds before →
    Settled before document choice id after → holds after
  hold : ∀ {registry : Registry} (id : Nat) (key : Uri), registry.Coherent → holds registry → holds (registry.hold id key)
  release : ∀ {registry : Registry} (previous : Nat) (document : Uri), registry.Coherent → holds registry →
    holds (registry.release previous document)
  prune : ∀ {registry : Registry} (active : Uri → Bool), registry.Coherent → holds registry →
    holds (registry.prune active).2
  dropped : ∀ {registry : Registry} (id : Nat) (closed : Uri → Bool) (inputs : List Uri), registry.Coherent →
    holds registry → holds (inputs.foldl (drop id closed) registry)
  leave : ∀ {registry : Registry} (id : Nat) (context : Context) (document key : Uri), registry.Coherent →
    holds registry → holds (registry.leave id context document key)

/-- Whether each configuration that leads to a context is one that its folder leads to the same context. -/
def Homed (registry : Registry) : Prop :=
  ∀ configuration id, registry.target? (.configuration configuration) = some id →
    registry.target? (.folder configuration.folder) = some id

theorem homed_empty : empty.Homed := by
  intro configuration id target
  cases target

/-- A registry with fewer keys of configurations is as homed as before if it keeps the keys of folders. -/
theorem Homed.fewer {before after : Registry} (homed : before.Homed)
    (target : ∀ configuration id, after.target? (.configuration configuration) = some id →
      before.target? (.configuration configuration) = some id)
    (kept : ∀ folder id, before.target? (.folder folder) = some id → after.target? (.folder folder) = some id) :
    after.Homed :=
  fun configuration id leads => kept _ id (homed configuration id (target configuration id leads))

/-- A folder that comes to lead to a context led there before, or nowhere. -/
theorem Settled.folder_kept {before after : Registry} {document : Uri} {choice : Choice} {id : Nat}
    (coherent : before.Coherent) (settled : Settled before document choice id after) {folder : Uri} {other : Nat}
    (target : before.target? (.folder folder) = some other) : after.target? (.folder folder) = some other := by
  rw [settled.target]
  split
  next claimed =>
    have seat := settled.seat
    rw [(folder_claimed_iff before document folder choice).mp claimed, coherent.lookup.mpr target] at seat
    exact congrArg some seat
  next => exact target

private theorem Homed.settled {before after : Registry} {document : Uri} {choice : Choice} {id : Nat}
    (coherent : before.Coherent)
    (homed : before.Homed) (settled : Settled before document choice id after) : after.Homed := by
  intro configuration other target
  rw [settled.target] at target
  split at target
  next claimed =>
    cases target
    rw [settled.target, if_pos]
    cases choice with
    | own inputs =>
      obtain rfl : configuration = document := by simpa [Choice.claims] using claimed
      simp [Choice.claims]
    | declared other => simp [Choice.claims] at claimed
    | generated other =>
      simp only [Choice.claims] at claimed
      split at claimed <;> simp at claimed
  next => exact settled.folder_kept coherent (homed configuration other target)

theorem kept_homed : Kept Homed where
  settled coherent homed settling := homed.settled coherent settling
  hold id key _ homed := homed
  release previous document coherent homed := by
    refine homed.fewer (fun configuration id target => ?_) fun folder id target => ?_
    · exact ((target?_release coherent previous document).mp target).1
    · exact (target?_release coherent previous document).mpr ⟨target, by simp, by simp⟩
  prune active coherent homed := by
    intro configuration id target
    obtain ⟨leads, lives⟩ := (target?_prune_iff coherent active).mp target
    exact (target?_prune_iff coherent active).mpr ⟨homed configuration id leads, lives⟩
  dropped id closed inputs _ homed := by
    refine homed.fewer (fun configuration other target => ?_) fun folder other target => ?_
    · exact ((target?_foldl_drop _ id closed inputs).mp target).1
    · exact (target?_foldl_drop _ id closed inputs).mpr ⟨target, by simp⟩
  leave id context document key _ homed := by
    refine homed.fewer (fun configuration other target => ?_) fun folder other target => ?_
    · exact ((target?_leave _ id context document key).mp target).1
    · exact (target?_leave _ id context document key).mpr ⟨target, by simp, by simp, by simp⟩

/-- In a homed registry the key of a configuration leads to the real context of its folder. -/
theorem Homed.eq_of_configuration (homed : registry.Homed) (coherent : registry.Coherent) {id other : Nat}
    {configuration : Uri} (sits : registry.Sits id .real configuration)
    (leads : registry.target? (.configuration configuration) = some other) : other = id := by
  obtain ⟨context, found, real, rfl⟩ := sits
  exact Option.some.inj ((homed _ other leads).symm.trans (coherent.anchored id context found real))

end SpecServer.Registry
