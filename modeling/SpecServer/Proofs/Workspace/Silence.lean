import SpecServer.Proofs.Store.Screen
import SpecServer.Workspace.Ownership
set_option autoImplicit false

/-!
Steps that the editor sees nothing of. The search for the context of a document takes only such steps, and it leaves
alone what is set for the whole server.
-/

namespace SpecServer

-- neither the model's parser nor the disk must be unfolded
attribute [local irreducible] Uri.normalize Store.load

/-- The publication that is told, if it is one. -/
def WorkspaceEvent.publication? : WorkspaceEvent → Option Publication
  | .publish publication => some publication
  | .report _ => none
  | .record _ => none

/-- The publications among what was told. -/
def publications (told : List WorkspaceEvent) : List Publication :=
  told.filterMap WorkspaceEvent.publication?

@[simp] theorem publications_append (front back : List WorkspaceEvent) :
    publications (front ++ back) = publications front ++ publications back :=
  List.filterMap_append

@[simp] theorem publications_publish (pending : List Publication) :
    publications (pending.map .publish) = pending := by
  induction pending with
  | nil => rfl
  | cons first rest ih =>
    exact congrArg (first :: ·) ih

namespace Workspace

variable {workspace before after : Workspace}

/-! ## Steps -/

/-- Whether nothing is published, and nothing changed that the editor shows. -/
structure Silent (before after : Workspace) : Prop where
  told : publications after.events = publications before.events
  store : before.store.Quiet after.store

private theorem Silent.rfl : Silent workspace workspace := ⟨.refl _, .rfl⟩

private theorem Silent.trans {first second third : Workspace} (left : Silent first second)
    (right : Silent second third) :
    Silent first third :=
  ⟨right.told.trans left.told, left.store.trans right.store⟩

/-- Whether two workspaces agree on everything besides documents, contexts, keys, what the editor is told, and whether a
search does not end. -/
structure Beside (before after : Workspace) : Prop where
  settings : after.settings = before.settings
  engine : after.engine = before.engine
  acquisition : after.acquisition = before.acquisition
  root : after.root = before.root

theorem Beside.rfl : Beside workspace workspace := ⟨.refl _, .refl _, .refl _, .refl _⟩

theorem Beside.trans {first second third : Workspace} (left : Beside first second) (right : Beside second third) :
    Beside first third :=
  ⟨right.settings.trans left.settings, right.engine.trans left.engine, right.acquisition.trans left.acquisition,
    right.root.trans left.root⟩

/-- Whether a step is silent and sets nothing: whatever becomes of contexts and contents, it is not told. -/
structure Tacit (before after : Workspace) : Prop extends Silent before after where
  beside : Beside before after

theorem Tacit.rfl : Tacit workspace workspace := ⟨.rfl, .rfl⟩

theorem Tacit.trans {first second third : Workspace} (left : Tacit first second) (right : Tacit second third) :
    Tacit first third :=
  ⟨left.toSilent.trans right.toSilent, left.beside.trans right.beside⟩

theorem tacit_log (workspace : Workspace) (level : LogLevel) (text : String) :
    Tacit workspace (workspace.log level text) := by
  refine ⟨⟨?_, .rfl⟩, ⟨rfl, rfl, rfl, rfl⟩⟩
  simp only [log]
  split <;> simp [publications, WorkspaceEvent.publication?]

theorem tacit_of_quiet {store : Store} (quiet : workspace.store.Quiet store) (registry : Registry) :
    Tacit workspace { workspace with store := store, registry := registry } :=
  ⟨⟨rfl, quiet⟩, ⟨rfl, rfl, rfl, rfl⟩⟩

theorem tacit_modifyFile (workspace : Workspace) (key : Uri) (change : Document → Document)
    (same : ∀ document, (change document).uri = document.uri ∧ (change document).diagnostics = document.diagnostics) :
    Tacit workspace (workspace.modifyFile key change) :=
  tacit_of_quiet (Store.quiet_modify workspace.store key same) workspace.registry

theorem tacit_acquire (workspace : Workspace) (uri : Uri) (content : Option String) :
    Tacit workspace (workspace.acquire uri content).2 := by
  have acquired : ∀ noted : Workspace, Tacit noted { noted with store := noted.store.acquire uri.normalize content } :=
    fun noted => tacit_of_quiet (Store.quiet_acquire noted.store _ _) noted.registry
  simp only [acquire]
  split
  · exact acquired workspace
  · exact (tacit_log workspace _ _).trans (acquired _)

/-! ## The search for a context -/

private theorem tacit_candidate (workspace : Workspace) (configuration : Uri) :
    Tacit workspace (workspace.candidate configuration).2 := by
  have loads : ∀ context : Context, workspace.store.Quiet (context.loadView workspace.store).2.2 := fun context =>
    Session.loadView_keeps (Store.source_keeps_quiet workspace.store) context.session .rfl
  simp only [candidate]
  split
  · exact tacit_of_quiet (loads _) _
  · exact tacit_of_quiet (loads _) workspace.registry

private theorem tacit_retain (workspace : Workspace) (candidate : Candidate) :
    Tacit workspace (workspace.retain candidate).2 := by
  cases candidate with
  | living id => exact .rfl
  | fresh context => exact tacit_of_quiet .rfl _

private theorem tacit_foldl_adoptInput (id : Nat) (workspace : Workspace) (inputs : List Uri) :
    Tacit workspace (inputs.foldl (adoptInput id) workspace) := by
  induction inputs generalizing workspace with
  | nil => exact .rfl
  | cons input rest ih =>
    have adopted : Tacit workspace (adoptInput id workspace input) :=
      (tacit_acquire workspace input none).trans (tacit_of_quiet .rfl _)
    exact adopted.trans (ih _)

private theorem tacit_resolveReal (workspace : Workspace) (document configuration : Uri) :
    Tacit workspace (workspace.resolveReal document configuration).2 := by
  have loaded := tacit_candidate workspace configuration
  simp only [resolveReal]
  generalize workspace.candidate configuration = outcome at loaded ⊢
  obtain ⟨result, loading⟩ := outcome
  cases result with
  | error error => exact loaded
  | ok found =>
    have kept := loaded.trans (tacit_retain loading found.1)
    simp only
    split
    · exact (kept.trans (tacit_foldl_adoptInput _ _ found.2)).trans (tacit_of_quiet .rfl _)
    · split
      · have indexed : Tacit (loading.retain found.1).2
            (((loading.retain found.1).2.index (.folder configuration.folder) (loading.retain found.1).1).index
              (.input document) (loading.retain found.1).1) := tacit_of_quiet .rfl _
        exact ((kept.trans indexed).trans (tacit_acquire _ configuration none)).trans (tacit_of_quiet .rfl _)
      · exact loaded

private theorem tacit_resolveSynthesized (workspace : Workspace) (document : Uri) :
    Tacit workspace (workspace.resolveSynthesized document).2 := by
  simp only [resolveSynthesized]
  split
  · exact .rfl
  next configuration _ =>
    split
    · exact (tacit_acquire workspace configuration none).trans (tacit_of_quiet .rfl _)
    · have acquired := tacit_acquire workspace configuration (some (placeholder document))
      generalize workspace.acquire configuration (some (placeholder document)) = found at acquired ⊢
      obtain ⟨key, tracked⟩ := found
      have opened : Tacit tracked (tracked.modifyFile key fun file => file.setActive true) :=
        tacit_modifyFile tracked key _ fun _ => ⟨rfl, rfl⟩
      generalize tracked.modifyFile key (fun file => file.setActive true) = shown at opened ⊢
      have loads : ∀ (context : Context) (registry : Registry), Tacit workspace
          { shown with store := (context.loadView shown.store).2.2, registry := registry } := fun context registry =>
        (acquired.trans opened).trans (tacit_of_quiet
          (Session.loadView_keeps (Store.source_keeps_quiet shown.store) context.session .rfl) registry)
      have loaded := loads (Context.start .synthesized
        ((Session.start configuration).addConfiguration (generatedEntries document)))
      simp only
      split
      · exact loaded shown.registry
      · exact (loaded _).trans (tacit_log _ _ _)

theorem tacit_choose (workspace : Workspace) (document : Uri) : Tacit workspace (workspace.choose document).2 := by
  have searched := Discovery.find_keeps (Store.source_keeps_quiet workspace.store) document.folder .rfl
  simp only [choose]
  generalize Discovery.find Store.source document.folder workspace.store = found at searched ⊢
  obtain ⟨detected, store⟩ := found
  have reading : Tacit workspace { workspace with store := store } := tacit_of_quiet searched workspace.registry
  cases detected with
  | error error => exact reading
  | ok configuration? =>
    cases configuration? with
    | none => exact reading.trans (tacit_resolveSynthesized _ document)
    | some configuration =>
      have noted := reading.trans (tacit_log _ .debug ("Configuration File Selected: " ++ configuration.render))
      have resolved := noted.trans (tacit_resolveReal _ document configuration)
      simp only
      generalize Workspace.resolveReal _ document configuration = outcome at resolved ⊢
      obtain ⟨result, settled⟩ := outcome
      cases result with
      | error error => exact resolved
      | ok id? =>
        cases id? with
        | some id => exact resolved
        | none => exact resolved.trans (tacit_resolveSynthesized settled document)

end Workspace

end SpecServer
