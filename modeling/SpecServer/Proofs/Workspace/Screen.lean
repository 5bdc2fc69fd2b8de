import SpecServer.Proofs.Workspace.Handling
set_option autoImplicit false

/-!
The editor shows what the store holds. Most of what an event does is silent; closings, prunings and passes change
diagnostics, and each of them publishes what it changed and sends it before it ends.
-/

namespace SpecServer

-- neither the model's parser nor the disk must be unfolded
attribute [local irreducible] Uri.normalize Store.load

namespace Workspace

variable {workspace before after : Workspace} {earlier : List Publication} {stale : Uri → Prop}

/-! ## Silent steps -/

theorem tacit_freed (workspace : Workspace) (previous : Nat) (document : Uri) (successor : Nat) :
    Tacit workspace (((workspace.vacate previous document).disclaim previous document).endorse document successor) := by
  have vacated : Tacit workspace (workspace.vacate previous document) := by
    simp only [vacate]
    split
    · exact .rfl
    · split <;> exact tacit_of_quiet .rfl _
  have disclaimed : ∀ freed : Workspace, Tacit freed (freed.disclaim previous document) := by
    intro freed
    simp only [disclaim]
    split
    · exact tacit_of_quiet .rfl _
    · exact .rfl
  have endorsed : ∀ freed : Workspace, Tacit freed (freed.endorse document successor) := by
    intro freed
    simp only [endorse]
    split
    · exact .rfl
    · exact tacit_of_quiet .rfl _
  exact (vacated.trans (disclaimed _)).trans (endorsed _)

theorem tacit_opened (workspace : Workspace) (uri : Uri) (text : String) : Tacit workspace (workspace.opened uri text) :=
  (tacit_acquire workspace uri.normalize none).trans (tacit_modifyFile _ _ _ fun _ => ⟨rfl, rfl⟩)

theorem tacit_enlisted (workspace : Workspace) (id : Nat) (key : Uri) : Tacit workspace (workspace.enlisted id key) := by
  have tracks : Tacit workspace (workspace.modifyContext id fun context => context.track key) := tacit_of_quiet .rfl _
  simp only [enlisted]
  split
  · exact tracks
  · split
    · exact tracks
    · have activates : Tacit (workspace.modifyContext id fun context => context.track key)
          (Workspace.modifyContext _ id Context.activate) := tacit_of_quiet .rfl _
      exact (tracks.trans activates).trans (tacit_log _ _ _)

private theorem tacit_withDisk (workspace : Workspace) (disk : Disk) :
    Tacit workspace { workspace with store := { workspace.store with disk := disk } } := by
  have quiet : workspace.store.Quiet { workspace.store with disk := disk } :=
    ⟨rfl, fun _ document found => ⟨document, found, rfl, rfl⟩, fun _ _ found absent => by
      cases found.symm.trans absent⟩
  exact tacit_of_quiet quiet workspace.registry

theorem tacit_writeShadow (workspace : Workspace) (path : List UInt8) (content : String) :
    Tacit workspace (workspace.writeShadow path content).2 := by
  simp only [writeShadow]
  split
  · exact .rfl
  next disk _ => exact (tacit_withDisk workspace disk).trans (tacit_log _ _ _)

/-! ## What the editor shows -/

/-- Whether the editor, once it got all that is to be sent, shows each document as it is that is not stale. -/
def Faithful (earlier : List Publication) (stale : Uri → Prop) (workspace : Workspace) : Prop :=
  workspace.store.Faithful (earlier ++ publications workspace.events) stale

/-- Whether the editor shows each document as it is. -/
structure Shown (earlier : List Publication) (workspace : Workspace) : Prop where
  faithful : workspace.Faithful earlier fun _ => False
  sent : workspace.store.pending = []

private theorem Faithful.silent (faithful : before.Faithful earlier stale) (silent : Silent before after) :
    after.Faithful earlier stale := by
  rw [Faithful, silent.told]
  exact Store.Faithful.quiet faithful silent.store

theorem Shown.silent (shown : before.Shown earlier) (silent : Silent before after) : after.Shown earlier :=
  ⟨shown.faithful.silent silent, silent.store.pending.trans shown.sent⟩

private theorem Shown.log (shown : workspace.Shown earlier) (level : LogLevel) (text : String) :
    (workspace.log level text).Shown earlier :=
  shown.silent (tacit_log workspace level text).toSilent

private theorem Faithful.mono {more : Uri → Prop} (faithful : workspace.Faithful earlier stale)
    (less : ∀ key, stale key → more key) : workspace.Faithful earlier more :=
  Store.Faithful.mono faithful less

private theorem Faithful.forward (faithful : workspace.Faithful earlier stale) (fresh : ∀ key, ¬stale key) :
    workspace.forward.Shown earlier := by
  refine ⟨⟨fun key document found _ alone => ?_, fun uri free => ?_⟩, rfl⟩
  · have shows := faithful.shows key document found (fresh key) alone
    simpa [Workspace.forward] using shows
  · have blank := faithful.blank uri free
    simpa [Workspace.forward] using blank

private theorem Faithful.modifyFile (faithful : workspace.Faithful earlier stale) (key : Uri)
    {change : Document → Document}
    (named : ∀ document, (change document).uri = document.uri) :
    (workspace.modifyFile key change).Faithful earlier fun other => stale other ∨ other = key :=
  Store.Faithful.modify faithful key named

private theorem Faithful.hide (faithful : workspace.Faithful earlier stale) (key : Uri) :
    (workspace.hide key).Faithful earlier stale :=
  Store.Faithful.hide faithful key

private theorem Faithful.untrackAndHide (faithful : workspace.Faithful earlier stale) (id : Nat) (key : Uri) :
    (workspace.untrackAndHide id key).Faithful earlier stale := by
  have freed : (workspace.modifyContext id fun context => context.untrack key).Faithful earlier stale := faithful
  exact freed.hide key

private theorem Faithful.foldl_dispose (faithful : workspace.Faithful earlier stale) (removed : List Context) :
    (removed.foldl dispose workspace).Faithful earlier stale := by
  induction removed generalizing workspace with
  | nil => exact faithful
  | cons context rest ih =>
    have noted := faithful.silent (tacit_log workspace .debug ("Disposing context for " ++ context.configuration.render)).toSilent
    exact ih (Store.Faithful.foldl_hide noted context.tracked)

private theorem Faithful.prune (faithful : workspace.Faithful earlier fun _ => False) :
    workspace.prune.Shown earlier := by
  have pruned : ({ workspace with registry := (workspace.registry.prune workspace.store.isActive).2 } : Workspace).Faithful
      earlier fun _ => False := faithful
  exact (pruned.foldl_dispose _).forward fun _ => id

/-! ## Moving a document -/

private theorem Shown.release (shown : workspace.Shown earlier) (previous : Nat) (document : Uri) (successor : Nat) :
    (workspace.release previous document successor).Shown earlier := by
  have freed := (tacit_freed workspace previous document successor).trans
    (tacit_log _ .debug ("Moved " ++ document.render ++ " to another context"))
  rw [release_eq]
  exact (shown.silent freed.toSilent).faithful.prune

theorem Shown.resolve (shown : workspace.Shown earlier) (uri : Uri) : (workspace.resolve uri).2.Shown earlier := by
  have chosen := shown.silent (tacit_choose workspace uri.normalize).toSilent
  have resolves := resolve_cases workspace uri
  generalize workspace.resolve uri = outcome at resolves ⊢
  cases resolves with
  | failed error after done => simpa only [done] using chosen
  | stayed id after done _ => simpa only [done] using chosen
  | left id settled old done _ _ =>
    rw [done] at chosen
    exact chosen.release old _ id

/-! ## Passes -/

/-- Whether the editor shows each document as it is but for those that a pass touched. -/
def InRound (earlier : List Publication) (outcome : Round × Workspace) : Prop :=
  outcome.2.Faithful earlier fun key => key ∈ outcome.1.touched

private theorem InRound.touch {round : Round} (faithful : InRound earlier (round, workspace)) (key : Uri) :
    InRound earlier (touch round workspace key) ∧ key ∈ (Workspace.touch round workspace key).1.touched := by
  simp only [Workspace.touch]
  split
  next known => exact ⟨faithful, List.contains_iff_mem.mp known⟩
  next =>
    have cleared : (workspace.modifyFile key Document.clear).Faithful earlier fun other => other ∈ round.touched ∨ other = key :=
      Faithful.modifyFile faithful key fun _ => rfl
    exact ⟨cleared.mono fun other changed => by simpa using changed, by simp⟩

private theorem InRound.touchAll {round : Round} (faithful : InRound earlier (round, workspace)) (keys : List Uri) :
    InRound earlier (touchAll round workspace keys) := by
  induction keys generalizing round workspace with
  | nil => exact faithful
  | cons key rest ih => exact ih (faithful.touch key).1

private theorem InRound.deliver {round : Round} (faithful : InRound earlier (round, workspace))
    (found : Uri × Diagnostic) :
    InRound earlier (deliver round workspace found) := by
  simp only [Workspace.deliver]
  split
  · exact faithful
  next document _ =>
    obtain ⟨touched, member⟩ := faithful.touch document.uri
    generalize Workspace.touch round workspace document.uri = outcome at touched member ⊢
    split
    · have pushed : (outcome.2.modifyFile document.uri fun document => document.push found.2).Faithful earlier
          fun other => other ∈ outcome.1.touched ∨ other = document.uri := Faithful.modifyFile touched document.uri fun _ => rfl
      exact pushed.mono fun other changed => changed.elim id fun same => same ▸ member
    · exact touched

private theorem InRound.deliverAll {round : Round} (faithful : InRound earlier (round, workspace))
    (found : List (Uri × Diagnostic)) : InRound earlier (deliverAll round workspace found) := by
  induction found generalizing round workspace with
  | nil => exact faithful
  | cons first rest ih => exact ih (faithful.deliver first)

private theorem InRound.dispatch {round : Round} (faithful : InRound earlier (round, workspace))
    (messages : List Message) :
    InRound earlier (dispatch round workspace messages) := by
  induction messages generalizing round workspace with
  | nil => exact faithful
  | cons message rest ih =>
    simp only [Workspace.dispatch]
    split
    · exact ih (Faithful.silent faithful (tacit_log _ _ _).toSilent)
    · exact ih (faithful.deliverAll _)

private theorem InRound.publish {round : Round} (faithful : InRound earlier (round, workspace)) :
    (workspace.publishAll round.touched).forward.Shown earlier :=
  Faithful.forward (Store.Faithful.foldl_flush faithful round.touched) fun _ left => left.2 left.1

private theorem Shown.runPass (shown : workspace.Shown earlier) (id : Nat) (context : Context) :
    (workspace.runPass id context).2.Shown earlier := by
  have started : InRound earlier (⟨Budget.start workspace.settings.problemLimit, []⟩, workspace) :=
    shown.faithful.mono fun _ never => never.elim
  have cleared := started.touchAll context.tracked
  simp only [Workspace.runPass]
  generalize Workspace.touchAll _ workspace context.tracked = outcome at cleared ⊢
  obtain ⟨round, touched⟩ := outcome
  have processed : touched.store.Quiet (context.process touched.store).2.2 :=
    Session.process_keeps (Store.source_keeps_quiet touched.store) context.session .rfl
  have ready : ∀ (registry : Registry) (endless : Bool), InRound earlier (round,
      { touched with store := (context.process touched.store).2.2, registry := registry, endless := endless }) :=
    fun registry _ => Faithful.silent cleared ⟨rfl, processed⟩
  simp only
  generalize context.process touched.store = processing at ready ⊢
  obtain ⟨result, later, store⟩ := processing
  cases result with
  | error error => exact InRound.publish (ready _ _)
  | ok messages => exact InRound.publish ((ready _ _).dispatch messages)

theorem Shown.revalidateAll (shown : workspace.Shown earlier) (ids : List Nat) :
    (workspace.revalidateAll ids).Shown earlier :=
  revalidateAll_keeps (Shown earlier) (fun _ id context _ shown => shown.runPass id context)
    (fun _ level text shown => shown.log level text) shown ids

/-! ## Events -/

private theorem Shown.hide (shown : workspace.Shown earlier) (key : Uri) : (workspace.hide key).forward.Shown earlier :=
  (shown.faithful.hide key).forward fun _ => id

private theorem Shown.edit (shown : workspace.Shown earlier) (uri : Uri) (language text : String) :
    (workspace.edit uri language text).2.Shown earlier := by
  have searched := (shown.silent (tacit_opened workspace uri text).toSilent).resolve uri.normalize
  have edits := edit_cases workspace uri language text
  generalize workspace.edit uri language text = outcome at edits ⊢
  cases edits with
  | unknown _ _ => exact shown
  | replaced file _ _ =>
    have replaced := shown.silent (tacit_modifyFile workspace file.uri (fun file => file.setContent (some text))
      fun _ => ⟨rfl, rfl⟩).toSilent
    exact replaced.hide file.uri
  | failed error after _ done => simpa only [done] using searched
  | engaged id settled _ done =>
    rw [done] at searched
    rw [engage_eq]
    exact (searched.silent (tacit_enlisted settled id _).toSilent).revalidateAll _

private theorem Faithful.foldl_dropInput (faithful : workspace.Faithful earlier stale) (id : Nat) (inputs : List Uri) :
    (inputs.foldl (dropInput id) workspace).Faithful earlier stale :=
  foldl_dropInput_keeps (Faithful earlier stale) (fun _ _ kept => kept) (fun _ id key kept => kept.untrackAndHide id key)
    faithful id inputs

private theorem Faithful.depart (faithful : workspace.Faithful earlier stale) (id : Nat) (owner : Context)
    (document key : Uri) :
    (workspace.depart id owner document key).Faithful earlier stale :=
  depart_keeps (Faithful earlier stale) (fun _ _ kept => kept) (fun _ id key kept => kept.untrackAndHide id key)
    faithful id owner document key

private theorem Shown.close (shown : workspace.Shown earlier) (uri : Uri) : (workspace.close uri).Shown earlier := by
  have shut : ∀ {freed : Workspace} (key : Uri), freed.Faithful earlier (fun _ => False) →
      (freed.modifyFile key fun file => file.setActive false).Faithful earlier fun _ => False := fun key faithful =>
    faithful.silent (tacit_modifyFile _ key (fun file => file.setActive false) fun _ => ⟨rfl, rfl⟩).toSilent
  have closes := close_cases workspace uri
  generalize workspace.close uri = after at closes ⊢
  cases closes with
  | unknown _ => exact shown
  | gone _ _ _ _ _ => exact shown
  | unowned file _ _ => exact ((shut file.uri shown.faithful).hide file.uri).forward fun _ => id
  | owned file id owner _ _ _ =>
    refine ((shut file.uri ?_).depart id owner _ file.uri).prune
    split
    · exact shown.faithful.foldl_dropInput id owner.inputs
    · exact shown.faithful

private theorem Shown.save (shown : workspace.Shown earlier) (uri : Uri) (text : String) :
    (workspace.save uri text).2.Shown earlier := by
  have searched := shown.resolve uri.normalize
  have saves := save_cases workspace uri text
  generalize workspace.save uri text = outcome at saves ⊢
  cases saves with
  | ignored => exact shown
  | failed error after done => simpa only [done] using searched
  | kept id settled done => simpa only [done] using searched
  | written id settled path content done =>
    rw [done] at searched
    exact searched.silent (tacit_writeShadow settled path content).toSilent

def published (workspace : Workspace) (earlier : List Publication) : Event → List Publication
  | .take => earlier ++ publications workspace.events
  | _ => earlier

private theorem Shown.step (shown : workspace.Shown earlier) (event : Event) :
    (workspace.step event).Shown (workspace.published earlier event) := by
  cases event with
  | edit uri language text => exact shown.edit uri language text
  | close uri => exact shown.close uri
  | changedOnDisk uris => exact (shown.silent (asked_noteChanges [] workspace uris).silent).revalidateAll _
  | save uri text => exact shown.save uri text
  | configure payload => exact shown.silent (passive_configure workspace payload).silent
  | setRoot text => exact shown.silent (passive_setRoot workspace text).silent
  | hover uri position => exact shown.silent (asked_hover workspace uri position).silent
  | definitions uri position => exact shown.silent (asked_definitions workspace uri position).silent
  | definition uri => exact shown.silent (asked_definition? workspace uri).silent
  | take =>
    obtain ⟨⟨shows, blank⟩, sent⟩ := shown
    refine ⟨⟨fun key document found fresh alone => ?_, fun uri free => ?_⟩, sent⟩
    · simpa [Workspace.step, takeEvents, published, publications] using shows key document found fresh alone
    · simpa [Workspace.step, takeEvents, published, publications] using blank uri free
  | replaceDisk disk => exact shown.silent (tacit_withDisk workspace disk).toSilent

/-! ## Runs -/

/-- All that is told in a run, also what is taken on the way. -/
def told (workspace : Workspace) : List Event → List WorkspaceEvent
  | [] => workspace.events
  | .take :: rest => workspace.events ++ told (workspace.step .take) rest
  | event :: rest => told (workspace.step event) rest

/-- What was told in a run is what the last state still has to tell, behind what was taken before. -/
theorem shown_run (events : List Event) (shown : workspace.Shown earlier) :
    ∃ taken, earlier ++ publications (workspace.told events) =
        taken ++ publications (workspace.run events).events ∧
      (workspace.run events).Shown taken := by
  induction events generalizing workspace earlier with
  | nil => exact ⟨earlier, rfl, shown⟩
  | cons event rest ih =>
    obtain ⟨taken, same, last⟩ := ih (shown.step event)
    refine ⟨taken, ?_, last⟩
    rw [run, List.foldl_cons, ← run, ← same]
    cases event <;> simp [told, published]

theorem shown_start (disk : Disk) : (start disk).Shown [] :=
  ⟨Store.faithful_start disk, rfl⟩

/-- After every run, the diagnostics that were published last for a document are the ones that it has, and a document
for which nothing was published has none, unless another document goes by the same URI in the editor. -/
theorem lastPublished_reached (disk : Disk) (events : List Event) {key : Uri} {document : Document}
    (found : (reached disk events).store.file? key = some document)
    (alone : (reached disk events).store.Alone key document) :
    (lastPublished (publications ((start disk).told events)) document.uri.editorForm).getD [] = document.diagnostics := by
  obtain ⟨taken, same, shown⟩ := shown_run events (shown_start disk)
  have shows := shown.faithful.shows key document found id alone
  rwa [shown.sent, List.append_nil, ← same, List.nil_append] at shows

/-- A document that cannot be parsed is opened, and what was published is taken. -/
def faultyRun : List Event :=
  [.edit topDocument "json" "\x7b: [", .take]

private theorem shows_faultyRun :
    ((reached Disk.empty faultyRun).store.file? topDocument).map (fun document =>
      (document.diagnostics.isEmpty, decide (∀ entry ∈ (reached Disk.empty faultyRun).store.files,
        entry.2.uri.editorForm = document.uri.editorForm → entry.1 = topDocument))) = some (false, true) := by
  decide +kernel

theorem lastPublished_reached_sample :
    ∃ document, (reached Disk.empty faultyRun).store.file? topDocument = some document ∧ document.diagnostics ≠ [] ∧
      (reached Disk.empty faultyRun).store.Alone topDocument document ∧
      (lastPublished (publications ((start Disk.empty).told faultyRun)) document.uri.editorForm).getD [] =
        document.diagnostics := by
  obtain ⟨document, found, site⟩ := Option.map_eq_some_iff.mp shows_faultyRun
  simp only [Prod.mk.injEq, decide_eq_true_eq, List.isEmpty_eq_false_iff] at site
  have alone := Store.alone_of_files site.2
  exact ⟨document, found, site.1, alone, lastPublished_reached Disk.empty faultyRun found alone⟩

end Workspace

end SpecServer
