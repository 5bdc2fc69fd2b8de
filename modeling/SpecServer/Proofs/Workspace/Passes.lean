import SpecServer.Proofs.Registry.Tracking
import SpecServer.Proofs.Workspace.Events
set_option autoImplicit false

/-!
What passes make of the registry: they change the session of the context that they run over and what it has seen,
and nothing else. So the contexts that are at work stay at work, whatever a pass finds and whether it fails.
-/

namespace SpecServer

/-- Whether a number stands for a living context that was activated. -/
def Registry.AtWork (registry : Registry) (id : Nat) : Prop :=
  ∃ context, registry.get? id = some context ∧ context.activated = true

private theorem Registry.atWork_set {registry : Registry} {id other : Nat} {context changed : Context}
    (found : registry.get? id = some context) (same : changed.activated = context.activated) :
    (registry.set id changed).AtWork other ↔ registry.AtWork other := by
  simp only [AtWork, set, get?_modify]
  split
  next equal => simp [equal, found, same]
  next => rfl

namespace Workspace

variable {workspace : Workspace}

/-! ## A pass -/

/-- A pass changes the session of its context, and what that has seen. -/
theorem registry_runPass (workspace : Workspace) (id : Nat) (context : Context) :
    ∃ session processed, (workspace.runPass id context).2.registry =
      workspace.registry.set id { context with session := session, processed := processed } := by
  obtain ⟨cleared, last, keys, processed, -, annotates, ended⟩ := runPass_course workspace id context
  refine ⟨(context.process cleared.store).2.1.session, processed, ?_⟩
  rw [ended]
  exact annotates.registry

private theorem atWork_revalidateAll (ids : List Nat) {other : Nat} :
    (workspace.revalidateAll ids).registry.AtWork other ↔ workspace.registry.AtWork other := by
  refine revalidateAll_keeps (fun later => later.registry.AtWork other ↔ workspace.registry.AtWork other)
    (fun before id context found kept => ?_) (fun _ _ _ => id) .rfl ids
  obtain ⟨session, processed, shown⟩ := registry_runPass before id context
  have same : (before.registry.set id { context with session := session, processed := processed }).AtWork other ↔
      before.registry.AtWork other := Registry.atWork_set found rfl
  rw [shown]
  exact same.trans kept

/-! ## The end of an edit -/

/-- The context in which a document settled is at work when its edit is done. -/
theorem atWork_engage {id : Nat} (lives : workspace.registry.Lives id) (key document : Uri) :
    (workspace.engage id key document).registry.AtWork id := by
  have held : (workspace.modifyContext id fun context => context.track key).registry.Lives id :=
    (Registry.lives_modify id id _).mpr lives
  rw [engage_eq, atWork_revalidateAll]
  simp only [enlisted]
  generalize (workspace.modifyContext id fun context => context.track key) = held' at held
  obtain ⟨context, found⟩ := held
  simp only [found]
  split
  next working => exact ⟨context, found, working⟩
  next =>
    refine ⟨context.activate, ?_, rfl⟩
    simp only [log, modifyContext]
    rw [Registry.get?_modify, if_pos rfl, found, Option.map_some]

end Workspace

end SpecServer
