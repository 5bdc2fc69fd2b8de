import SpecServer.Proofs.Engine.Isolation
import SpecServer.Proofs.Store.Content
import SpecServer.Proofs.Workspace.Passes
import SpecServer.Proofs.Workspace.Run
set_option autoImplicit false

/-!
What a pass makes of what the documents hold. It fails with the configuration, or else gives the findings in its
inputs and their merge; these are the declared inputs and all documents that the session was ever told of.
-/

namespace SpecServer

def Context.passed (context : Context) (texts : Texts) (view : View) : Context :=
  { context with
    session :=
      { context.session with
        view := some view
        definition := some (.ofMerge (Session.merged texts (context.session.inputsOf view))) } }

private theorem Context.generations_retains {before after : Store} (retains : before.Retains after)
    (context : Context) :
    context.generations after = context.generations before := by
  have same : ∀ key, (after.file? key).map Document.generation = (before.file? key).map Document.generation := by
    intro key
    have shown := congrArg (Option.map Document.generation) (retains.documents key)
    simpa only [Option.map_map, Function.comp_def, Document.clear] using shown
  simp only [generations, same]
  congr 1
  funext found input
  have here := same input.normalize
  simp only [Store.get?]
  cases stored : before.file? input.normalize with
  | none =>
    rw [stored, Option.map_none, Option.map_eq_none_iff] at here
    rw [here]
  | some document =>
    rw [stored, Option.map_some] at here
    obtain ⟨later, stored', same'⟩ := Option.map_eq_some_iff.mp here
    simp only [stored', same']

namespace Workspace

-- neither the model's parser nor the disk must be unfolded
attribute [local irreducible] Uri.normalize Store.load

variable {workspace : Workspace}

/-! ## What is shown -/

theorem retains_published (workspace : Workspace) (keys : List Uri) :
    workspace.store.Retains (workspace.publishAll keys).forward.store := by
  have flushed := Store.retains_foldl_flush workspace.store keys
  exact ⟨flushed.disk, flushed.documents⟩

/-! ## Passes -/

/-- What a pass over a context would tell. -/
def verdict (workspace : Workspace) (context : Context) : Except EngineError (List Message) :=
  (context.process (touchAll ⟨Budget.start workspace.settings.problemLimit, []⟩ workspace context.tracked).2.store).1

/-- What a pass makes of a context is a matter of the texts that the documents hold, and what it read is kept. -/
theorem process_replay {store : Store} (keyed : store.Keyed) (context : Context) :
    ∃ after, store.Reads after ∧ context.process store =
      (match context.session.viewIn store.reading with
      | .error error => (.error error, context, after)
      | .ok view =>
        (.ok (context.session.messagesOver store.reading view (context.session.inputsOf view)),
          context.passed store.reading view, after)) ∧
      ∀ view, context.session.viewIn store.reading = .ok view →
        ∀ uri ∈ context.session.configuration :: context.session.inputsOf view, after.Cached uri := by
  have keeps : ∀ uri, Store.source.Keeps fun now => store.Reads now ∧ now.Cached uri := fun uri other now both =>
    ⟨both.1.read other, both.2.fetched (Store.fetched_read both.1.keyed other)⟩
  have reads : ∀ uri now, store.Reads now →
      store.Reads (Store.source.read uri now).2 ∧ (Store.source.read uri now).2.Cached uri :=
    fun uri _ read => ⟨read.read uri, Store.cached_read read.keyed uri⟩
  have cached := @Session.process_reads _ _ _ _ keeps reads context.session store (.rfl keyed)
  obtain ⟨after, read, processed⟩ := Session.process_replay store.source_repeats context.session (.rfl keyed)
  simp only [Context.process, processed] at cached ⊢
  refine ⟨after, read, ?_, ?_⟩
  · cases context.session.viewIn store.reading <;> rfl
  · intro view loads
    simp only [loads] at cached
    exact cached rfl rfl

theorem verdict_eq (keyed : workspace.store.Keyed) (context : Context) :
    workspace.verdict context = (context.session.viewIn workspace.store.reading).map fun view =>
      context.session.messagesOver workspace.store.reading view (context.session.inputsOf view) := by
  have cleared :=
    (annotated_touchAll ⟨Budget.start workspace.settings.problemLimit, []⟩ workspace context.tracked).store
  obtain ⟨after, -, processed, -⟩ := process_replay (cleared.keyed keyed) context
  rw [verdict, processed, cleared.reading]
  cases context.session.viewIn workspace.store.reading <;> rfl

/-- How a pass ends. -/
inductive Passed (before : Workspace) (id : Nat) (context : Context) : Except EngineError Unit → Workspace → Prop
  | failed (error : EngineError) (after : Workspace) (loads : context.session.viewIn before.store.reading = .error error)
      (registry : after.registry = before.registry.set id context) (reads : before.store.Reads after.store) :
    Passed before id context (.error error) after
  | done (view : View) (after : Workspace) (loads : context.session.viewIn before.store.reading = .ok view)
      (registry : after.registry = before.registry.set id
        { context.passed before.store.reading view with
          processed := some ((context.passed before.store.reading view).generations after.store) })
      (reads : before.store.Reads after.store)
      (cached : ∀ uri ∈ context.session.configuration :: context.session.inputsOf view, after.store.Cached uri) :
    Passed before id context (.ok ()) after

theorem runPass_spec (keyed : workspace.store.Keyed) (id : Nat) (context : Context) :
    Passed workspace id context (workspace.runPass id context).1 (workspace.runPass id context).2 := by
  have cleared := annotated_touchAll ⟨Budget.start workspace.settings.problemLimit, []⟩ workspace context.tracked
  obtain ⟨seen, reads, processed, cached⟩ := process_replay (cleared.store.keyed keyed) context
  have reads := (cleared.store.reads keyed).trans reads
  simp only [runPass]
  generalize touchAll ⟨Budget.start workspace.settings.problemLimit, []⟩ workspace context.tracked = touched
    at cleared processed cached ⊢
  obtain ⟨round, touched⟩ := touched
  simp only at cleared processed ⊢
  simp only [cleared.store.reading] at processed cached
  rw [processed]
  cases loads : context.session.viewIn workspace.store.reading with
  | error error =>
    simp only
    refine .failed error _ loads (congrArg (Registry.set · id context) cleared.registry) (reads.retained ?_)
    exact retains_published { touched with store := seen, registry := touched.registry.set id context } round.touched
  | ok view =>
    simp only
    generalize (touched.endless || _) = endless
    have dispatched := annotated_dispatch round
      { touched with
        store := seen
        endless := endless
        registry := touched.registry.set id
          { context.passed workspace.store.reading view with
            processed := some ((context.passed workspace.store.reading view).generations seen) } }
      (context.session.messagesOver workspace.store.reading view (context.session.inputsOf view))
    generalize dispatch round _ _ = told at dispatched ⊢
    obtain ⟨round, told⟩ := told
    have shown := dispatched.store.trans (retains_published told round.touched)
    refine .done view _ loads ?_ (reads.retained shown) fun uri member => shown.cached (cached view loads uri member)
    rw [Context.generations_retains shown, ← cleared.registry]
    exact dispatched.registry

/-- A pass is endless exactly if the search for a node that it has to find does not end. -/
theorem isEndless_verdict_iff (keyed : workspace.store.Keyed) (context : Context) :
    isEndless (workspace.verdict context) = true ↔ ∃ text path,
      context.session.Locates workspace.store.reading text path ∧ ∀ rounds, Locate.located? text path rounds = none := by
  rw [verdict_eq keyed]
  simp only [← Locate.place?_eq_none_iff]
  cases loads : context.session.viewIn workspace.store.reading with
  | error error =>
    refine iff_of_false Bool.false_ne_true ?_
    rintro ⟨text, path, ⟨view, loaded, -⟩, -⟩
    cases loads.symm.trans loaded
  | ok view => exact Option.isNone_iff_eq_none.trans (Session.settled?_messagesOver loads)

/-! ## The inputs of a pass -/

/-- Whether a pass over a context tells of some inputs and keeps their merge, and has nothing from other documents. -/
structure Processes (before : Workspace) (context : Context) (view : View) (inputs : List Uri)
    (after : Context) : Prop where
  loaded : after.session.view = some view
  told : before.verdict context = .ok (context.session.messagesOver before.store.reading view inputs)
  kept : after.session.definition = some (.ofMerge (Session.merged before.store.reading inputs))

theorem revalidate_of_stale {id : Nat} {context : Context} (found : workspace.registry.get? id = some context)
    (working : context.activated = true) (stale : context.isUpToDate (context.generations workspace.store) = false) :
    workspace.revalidate id = workspace.runPass id context := by
  simp only [revalidate, found, working, stale, Bool.not_true, Bool.or_self, Bool.false_eq_true, ↓reduceIte]

private theorem processes_runPass (keyed : workspace.store.Keyed) {id : Nat} {context : Context}
    (found : workspace.registry.get? id = some context) (passed : (workspace.runPass id context).1 = .ok ()) :
    ∃ view after, (workspace.runPass id context).2.registry.get? id = some after ∧
      Processes workspace context view (context.session.inputsOf view) after := by
  have ended := runPass_spec keyed id context
  generalize workspace.runPass id context = outcome at ended passed ⊢
  obtain ⟨result, after⟩ := outcome
  simp only at ended passed ⊢
  subst passed
  cases ended with
  | done view _ loads registry _ _ =>
    have kept : after.registry.get? id = some { context.passed workspace.store.reading view with
        processed := some ((context.passed workspace.store.reading view).generations after.store) } := by
      rw [registry, Registry.set, Registry.get?_modify, if_pos rfl, found, Option.map_some]
    have told : workspace.verdict context = .ok (context.session.messagesOver workspace.store.reading view
        (context.session.inputsOf view)) := by
      rw [verdict_eq keyed, loads]
      rfl
    exact ⟨view, _, kept, rfl, told, rfl⟩

/-- A pass without failure processes the declared inputs and those that the session knows besides; so it processes the
declared inputs and nothing else exactly if these are all that the session knows. -/
theorem processes_declared_iff (disk : Disk) (events : List Event) {id : Nat} {context : Context}
    (found : (reached disk events).registry.get? id = some context) (working : context.activated = true)
    (stale : context.isUpToDate (context.generations (reached disk events).store) = false)
    (passed : ((reached disk events).revalidate id).1 = .ok ()) :
    ∃ view after, ((reached disk events).revalidate id).2.registry.get? id = some after ∧
      Processes (reached disk events) context view (context.session.inputsOf view) after ∧
      (Processes (reached disk events) context view view.inputs after ↔
        ∀ uri ∈ context.session.known, uri ∈ view.inputs) := by
  rw [revalidate_of_stale found working stale] at passed ⊢
  obtain ⟨view, after, kept, processes⟩ := processes_runPass (sound_reached disk events).keyed found passed
  refine ⟨view, after, kept, processes, fun declared => ?_, fun known => ?_⟩
  · have same : context.session.messagesOver (reached disk events).store.reading view (context.session.inputsOf view) =
        context.session.messagesOver (reached disk events).store.reading view view.inputs :=
      Except.ok.inj (processes.told.symm.trans declared.told)
    exact Session.length_inputsOf_iff.mp (Session.length_of_messagesOver same)
  · rw [Session.inputsOf_eq_inputs known] at processes
    exact processes

/-- A configuration declares one document, is told of its text, and then declares another one. -/
def redeclaredRun : List Event :=
  [.edit topConfiguration "markdown" "#see https://aka.ms/autorest\ninput-file: x",
    .edit topDocument "yaml" "a: 1",
    .edit topConfiguration "plaintext" "input-file: y"]

def secondDocument : Uri := ⟨"file".toList, some ⟨[], [], none⟩, "/y".toList, none, none⟩

private theorem revalidate_redeclaredRun :
    ((reached Disk.empty redeclaredRun).registry.get? 0).map (fun context =>
        (context.kind, context.activated,
          context.isUpToDate (context.generations (reached Disk.empty redeclaredRun).store))) =
        some (.real, true, false) ∧
      ((reached Disk.empty redeclaredRun).revalidate 0).1.toOption = some () ∧
      (((reached Disk.empty redeclaredRun).revalidate 0).2.registry.get? 0).map
          (fun after => after.session.view.map View.inputs) =
        some (some [secondDocument]) ∧
      (((reached Disk.empty redeclaredRun).revalidate 0).2.registry.get? 0).map
          (fun after => after.session.definition.map Definition.document) =
        some (some (.object [("a", .number (.integer 1))])) ∧
      (Session.mapping? (reached Disk.empty redeclaredRun).store.reading secondDocument).isNone := by
  decide +kernel

theorem processes_declared_iff_sample :
    ∃ context, (reached Disk.empty redeclaredRun).registry.get? 0 = some context ∧ context.activated = true ∧
      context.isUpToDate (context.generations (reached Disk.empty redeclaredRun).store) = false ∧
      ((reached Disk.empty redeclaredRun).revalidate 0).1 = .ok () ∧
      ∃ view after, ((reached Disk.empty redeclaredRun).revalidate 0).2.registry.get? 0 = some after ∧
        Processes (reached Disk.empty redeclaredRun) context view (context.session.inputsOf view) after ∧
        (Processes (reached Disk.empty redeclaredRun) context view view.inputs after ↔
          ∀ uri ∈ context.session.known, uri ∈ view.inputs) := by
  obtain ⟨found, passed, -⟩ := revalidate_redeclaredRun
  obtain ⟨context, held, site⟩ := Option.map_eq_some_iff.mp found
  simp only [Prod.mk.injEq] at site
  exact ⟨context, held, site.2.1, site.2.2, ok_of_toOption passed,
    processes_declared_iff Disk.empty redeclaredRun held site.2.1 site.2.2 (ok_of_toOption passed)⟩

/-- What a configuration declared once stays in the merged definition of its context, also when it declares that no
longer. -/
theorem not_always_declared :
    ¬ ∀ (disk : Disk) (events : List Event) (id : Nat) (context : Context),
      (reached disk events).registry.get? id = some context → context.kind = .real → context.activated = true →
      context.isUpToDate (context.generations (reached disk events).store) = false →
      ((reached disk events).revalidate id).1 = .ok () →
      ∃ view after, ((reached disk events).revalidate id).2.registry.get? id = some after ∧
        Processes (reached disk events) context view view.inputs after := by
  intro always
  obtain ⟨found, passed, declared, merged, absent⟩ := revalidate_redeclaredRun
  obtain ⟨context, held, site⟩ := Option.map_eq_some_iff.mp found
  simp only [Prod.mk.injEq] at site
  obtain ⟨view, after, kept, processes⟩ := always Disk.empty redeclaredRun 0 context held site.1 site.2.1 site.2.2
    (ok_of_toOption passed)
  rw [kept, Option.map_some, processes.loaded, Option.map_some, Option.some.injEq, Option.some.injEq] at declared
  rw [kept, Option.map_some, processes.kept, Option.map_some, declared, Session.merged, List.filterMap_cons,
    Option.isNone_iff_eq_none.mp absent] at merged
  revert merged
  decide

end Workspace

end SpecServer
