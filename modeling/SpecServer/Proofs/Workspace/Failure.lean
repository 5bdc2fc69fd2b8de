import SpecServer.Proofs.Engine.Source
import SpecServer.Proofs.Registry.Tracking
import SpecServer.Proofs.Workspace.Coherence
set_option autoImplicit false

/-!
The search for the context of a document, where it fails. It may have read documents and loaded the configuration
of one real context anew; all contexts, all keys and the settings are as before.
-/

namespace SpecServer

/-- The context with another view of its configuration. -/
def Context.withView (context : Context) (view : Option View) : Context :=
  { context with session := { context.session with view := view } }

namespace Registry

variable {registry : Registry}

private theorem set_self (formed : registry.WellFormed) {id : Nat} {context : Context}
    (found : registry.get? id = some context) :
    registry.set id context = registry := by
  have kept : registry.contexts.map (fun entry => if entry.1 = id then (entry.1, context) else entry) = registry.contexts := by
    refine (List.map_congr_left ?_).trans (List.map_id _)
    intro entry member
    split
    next same =>
      have stored : registry.get? entry.1 = some entry.2 := (Entries.get?_eq_some_iff formed.ids).mpr member
      rw [same] at stored
      exact Prod.ext rfl (Option.some.inj (found.symm.trans stored))
    next => rfl
  simp only [set, modify, kept]

/-- What a search that fails may make of a registry: a real context has the view of its configuration anew. -/
inductive Reloaded (before : Registry) : Registry → Prop
  | same : Reloaded before before
  | anew (id : Nat) (context : Context) (text : String) (view : View) (found : before.get? id = some context)
      (real : context.kind = .real) (loaded : context.session.viewOf text = .ok view) :
    Reloaded before (before.set id (context.withView (some view)))

end Registry

namespace Workspace

-- the model's parser must not be unfolded to compare two keys
attribute [local irreducible] Uri.normalize

variable {workspace : Workspace}

/-- Only the context that lives in the folder is loaded anew; a new one is not kept yet. -/
theorem candidate_reloads (coherent : workspace.registry.outline.Coherent) (configuration : Uri) :
    workspace.registry.Reloaded (workspace.candidate configuration).2.registry := by
  simp only [candidate]
  cases living : workspace.registry.lookup (.folder configuration.folder) with
  | none => exact .same
  | some id =>
    obtain ⟨target, context, found⟩ := Registry.lookup_eq_some_iff.mp living
    obtain ⟨shape, shown, real, -⟩ := coherent.fits (.folder configuration.folder) id target
    rw [Registry.get?_outline, found, Option.map_some] at shown
    cases shown
    simp only [Option.bind_some, found, Option.map_some, Context.loadView]
    rcases Session.loadView_cases Store.source context.session workspace.store with ⟨error, failed⟩ | ⟨text, view, loaded, done⟩
    · rw [failed, Registry.set_self (Registry.wellFormed_outline.mp coherent.formed) found]
      exact .same
    · rw [done]
      exact .anew id context text view found real loaded

private theorem resolveReal_unsettled {document configuration : Uri} {result : Except EngineError (Option Nat)}
    {after : Workspace}
    (done : workspace.resolveReal document configuration = (result, after)) (unsettled : ∀ id, result ≠ .ok (some id)) :
    after = (workspace.candidate configuration).2 := by
  simp only [resolveReal] at done
  generalize workspace.candidate configuration = outcome at done ⊢
  obtain ⟨loaded, loading⟩ := outcome
  cases loaded with
  | error error =>
    cases done
    rfl
  | ok found =>
    obtain ⟨candidate, inputs⟩ := found
    simp only at done
    split at done
    next =>
      cases done
      exact absurd rfl (unsettled _)
    next =>
      split at done
      next =>
        cases done
        exact absurd rfl (unsettled _)
      next =>
        cases done
        rfl

private theorem resolveSynthesized_failed {document : Uri} {error : WorkspaceError} {after : Workspace}
    (failed : workspace.resolveSynthesized document = (.error error, after)) :
    after.registry = workspace.registry := by
  simp only [resolveSynthesized] at failed
  cases generated : document.generated with
  | error problem =>
    rw [generated] at failed
    cases failed
    rfl
  | ok configuration =>
    simp only [generated] at failed
    cases living : workspace.registry.lookup (.synthesized configuration) with
    | some id => simp [living] at failed
    | none =>
      simp only [living] at failed
      have kept := (acquire_spec workspace configuration (some (placeholder document))).2.1
      generalize workspace.acquire configuration (some (placeholder document)) = tracked at failed kept
      split at failed
      next =>
        cases failed
        exact kept
      next => cases failed

private theorem choose_failed (coherent : workspace.registry.outline.Coherent) {document : Uri} {error : WorkspaceError}
    {after : Workspace} (failed : workspace.choose document = (.error error, after)) :
    workspace.registry.Reloaded after.registry := by
  have searched := choose_cases (Registry.wellFormed_outline.mp coherent.formed) document
  rw [failed] at searched
  generalize outcome : ((.error error, after) : Except WorkspaceError Nat × Workspace) = found at searched
  cases searched with
  | undetected problem noted note =>
    cases outcome
    exact note.registry ▸ .same
  | alone noted note _ =>
    have kept := resolveSynthesized_failed outcome.symm
    exact (kept.trans note.registry).symm ▸ .same
  | unloaded configuration problem noted loading note unloaded =>
    cases outcome
    have reloaded := candidate_reloads (note.registry.symm ▸ coherent) configuration
    rwa [note.registry, ← resolveReal_unsettled unloaded (by simp)] at reloaded
  | governed _ _ _ _ _ _ => cases outcome
  | foreign configuration noted loading note apart _ =>
    have reloaded := candidate_reloads (note.registry.symm ▸ coherent) configuration
    rw [note.registry, ← resolveReal_unsettled apart (by simp)] at reloaded
    exact resolveSynthesized_failed outcome.symm ▸ reloaded

private theorem resolve_failed (coherent : workspace.registry.outline.Coherent) {uri : Uri} {error : WorkspaceError}
    (failed : (workspace.resolve uri).1 = .error error) :
    workspace.registry.Reloaded (workspace.resolve uri).2.registry ∧ Beside workspace (workspace.resolve uri).2 := by
  have tacit := tacit_choose workspace uri.normalize
  have resolves := resolve_cases workspace uri
  generalize workspace.resolve uri = outcome at failed resolves ⊢
  cases resolves with
  | failed error after done =>
    rw [done] at tacit
    exact ⟨choose_failed coherent done, tacit.beside⟩
  | stayed id after _ _ => cases failed
  | left id settled old _ _ _ => cases failed

/-- Whether contexts, keys and all that is set are as they were, but for the view of one real context, which its
session then has from some text of its configuration. -/
structure Unmoved (before after : Workspace) : Prop where
  living : after.registry.ids = before.registry.ids
  nextId : after.registry.nextId = before.registry.nextId
  keys : after.registry.keys = before.registry.keys
  leads : ∀ key, after.registry.lookup key = before.registry.lookup key
  contexts : ∀ id context, before.registry.get? id = some context →
    after.registry.get? id = some context ∨ context.kind = .real ∧ ∃ text view,
      context.session.viewOf text = .ok view ∧ after.registry.get? id = some (context.withView (some view))
  single : ∀ id other, after.registry.get? id ≠ before.registry.get? id →
    after.registry.get? other ≠ before.registry.get? other → id = other
  beside : Beside before after

private theorem unmoved_of_reloaded {before after : Workspace} (reloaded : before.registry.Reloaded after.registry)
    (beside : Beside before after) : Unmoved before after := by
  generalize same : after.registry = registry at reloaded
  cases reloaded with
  | same =>
    refine ⟨by rw [same], by rw [same], by rw [same], fun _ => by rw [same], ?_, ?_, beside⟩
    · intro id context found
      rw [same]
      exact .inl found
    · intro id other changed
      rw [same] at changed
      exact absurd rfl changed
  | anew id context text view found real loaded =>
    have others : ∀ other, after.registry.get? other ≠ before.registry.get? other → other = id := by
      intro other changed
      rw [same, Registry.set, Registry.get?_modify] at changed
      exact Decidable.byContradiction fun apart => changed (if_neg apart)
    refine ⟨?_, ?_, ?_, ?_, ?_, ?_, beside⟩
    · rw [same]
      exact Registry.ids_modify before.registry id _
    · rw [same]
      rfl
    · rw [same]
      rfl
    · intro key
      rw [same]
      exact Registry.lookup_modify before.registry id _ key
    · intro other rival met
      rw [same, Registry.set, Registry.get?_modify, met]
      split
      next equal =>
        subst equal
        cases found.symm.trans met
        exact .inr ⟨real, text, view, loaded, rfl⟩
      next => exact .inl rfl
    · intro first second changed changed'
      rw [others first changed, others second changed']

/-- A search that fails moves nothing, in whatever state the server is. -/
theorem unmoved_resolve_failed (disk : Disk) (events : List Event) (uri : Uri) (error : WorkspaceError)
    (failed : ((reached disk events).resolve uri).1 = .error error) :
    Unmoved (reached disk events) ((reached disk events).resolve uri).2 := by
  obtain ⟨reloaded, beside⟩ := resolve_failed (coherent_reached disk events) failed
  exact unmoved_of_reloaded reloaded beside

/-- A configuration is opened, and then it is no mapping any more. -/
def brokenRun : List Event :=
  [.edit topConfiguration "markdown" "#see https://aka.ms/autorest\ninput-file: x",
    .edit topConfiguration "markdown" "#see https://aka.ms/autorest\n- x"]

theorem unmoved_resolve_failed_sample :
    ∃ error, ((reached Disk.empty brokenRun).resolve topDocument).1 = .error error ∧
      Unmoved (reached Disk.empty brokenRun) ((reached Disk.empty brokenRun).resolve topDocument).2 := by
  obtain ⟨error, failed⟩ : ∃ error, ((reached Disk.empty brokenRun).resolve topDocument).1 = .error error :=
    error_of_toOption (by decide +kernel)
  exact ⟨error, failed, unmoved_resolve_failed Disk.empty brokenRun topDocument error failed⟩

end Workspace

end SpecServer
