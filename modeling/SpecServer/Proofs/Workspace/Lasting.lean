import SpecServer.Proofs.Registry.Homing
import SpecServer.Proofs.Workspace.Coherence
set_option autoImplicit false

/-!
What all moves of a registry keep, each event of the editor keeps, and so it holds in every state reached.
-/

namespace SpecServer

namespace Registry.Kept

variable {holds : Registry → Prop} {before after : Workspace} {document : Uri}

private theorem settle {registry settled : Registry} {choice : Choice} {id : Nat} (kept : Kept holds)
    (coherent : registry.Coherent)
    (start : holds registry) (settles : registry.settle document choice = (id, settled)) : holds settled := by
  have settling := settled_of_settle coherent.formed settles
  exact kept.settled coherent start settling

private theorem edited (kept : Kept holds) {analysed : Bool} {choice? : Option Choice}
    {result : Except WorkspaceError Unit}
    (edited : before.Edited document analysed choice? result after) (coherent : before.registry.outline.Coherent)
    (start : holds before.registry.outline) : holds after.registry.outline := by
  cases edited with
  | ignored _ _ alike => exact alike.outline ▸ start
  | failed _ _ outline _ => exact outline ▸ start
  | stayed choice id settled _ _ _ settles _ outline _ _ =>
    rw [outline]
    exact kept.hold _ _ (Workspace.coherent_settled coherent settles) (kept.settle coherent start settles)
  | left choice id settled old _ _ _ settles _ _ outline _ active =>
    have settled' := Workspace.coherent_settled coherent settles
    have released := settled'.release old document
    rw [outline]
    refine kept.hold _ _ ((released.hold _ _).prune _) (kept.prune _ (released.hold _ _) (kept.hold _ _ released ?_))
    exact kept.release _ _ settled' (kept.settle coherent start settles)

theorem resolved (kept : Kept holds) {result : Except WorkspaceError Nat} (resolved : before.Resolved document result after)
    (coherent : before.registry.outline.Coherent) (start : holds before.registry.outline) : holds after.registry.outline := by
  cases resolved with
  | failed _ _ outline _ => exact outline ▸ start
  | stayed choice id _ _ moved _ _ => exact kept.settle coherent start moved
  | left choice id settled old _ _ moved _ _ outline _ =>
    have settled' := Workspace.coherent_settled coherent moved
    have released := settled'.release old document
    have freed := kept.release old document settled' (kept.settle coherent start moved)
    rw [outline]
    split
    · exact kept.prune _ (released.hold _ _) (kept.hold _ _ released freed)
    · exact kept.prune _ released freed

private theorem closed (kept : Kept holds) (closed : before.Closed document after)
    (coherent : before.registry.outline.Coherent)
    (start : holds before.registry.outline) : holds after.registry.outline := by
  cases closed with
  | unknown _ same => exact same ▸ start
  | unowned _ outline _ => exact outline ▸ start
  | owned id context inputs _ _ outline _ =>
    rw [outline]
    split
    · have dropped := coherent.foldl_drop id (Workspace.isShut before.store) inputs
      exact kept.prune _ (dropped.leave _ _ _ _) (kept.leave _ _ _ _ dropped (kept.dropped _ _ _ coherent start))
    · exact kept.prune _ (coherent.leave _ _ _ _) (kept.leave _ _ _ _ coherent start)

private theorem stepped (kept : Kept holds) {event : Event} (stepped : before.Stepped event after)
    (coherent : before.registry.outline.Coherent) (start : holds before.registry.outline) : holds after.registry.outline := by
  cases stepped with
  | quiet _ _ _ alike => exact alike.outline ▸ start
  | edited _ _ _ _ _ _ edited => exact kept.edited edited coherent start
  | closed _ _ closed => exact kept.closed closed coherent start
  | saved _ _ _ saved =>
    cases saved with
    | ignored alike => exact alike.outline ▸ start
    | resolved _ _ resolved alike => exact alike.outline ▸ kept.resolved resolved coherent start

/-- In every state that the server reaches, what all moves keep holds. -/
theorem reached (kept : Kept holds) (start : holds empty) (disk : Disk) (events : List Event) :
    holds (Workspace.reached disk events).registry.outline := by
  have lasting : ∀ workspace event after, workspace.Sound → True → Workspace.Stepped workspace event after →
      workspace.registry.outline.Coherent ∧ holds workspace.registry.outline →
      after.registry.outline.Coherent ∧ holds after.registry.outline :=
    fun _ _ _ _ _ stepped both => ⟨Workspace.coherent_stepped stepped both.1, kept.stepped stepped both.1 both.2⟩
  exact (Workspace.run_keeps lasting (fun _ _ => trivial) (Workspace.sound_start disk) ⟨coherent_empty, start⟩).2.2

end Registry.Kept

namespace Workspace

theorem homed_reached (disk : Disk) (events : List Event) : (reached disk events).registry.outline.Homed :=
  Registry.kept_homed.reached Registry.homed_empty disk events

end Workspace

end SpecServer
