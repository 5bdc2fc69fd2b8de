import SpecServer.Proofs.Store.Still
import SpecServer.Proofs.Workspace.Driving
import SpecServer.Proofs.Workspace.Enduring
set_option autoImplicit false

/-!
What the search for a context reads, loads and tracks. The search can be made again once its documents are read; the
context of the configuration that it found has loaded that one then; and only what the document takes with it is
tracked anew.
-/

namespace SpecServer

-- neither the model's parser nor the disk must be unfolded
attribute [local irreducible] Uri.normalize Store.load

theorem Session.viewIn_eq {session other : Session} (configuration : other.configuration = session.configuration)
    (additions : other.additions = session.additions) (texts : Texts) : other.viewIn texts = session.viewIn texts := by
  simp only [viewIn, viewOf, configuration, additions]

theorem Session.viewIn_congr {session : Session} {texts other : Texts}
    (same : other session.configuration = texts session.configuration) : session.viewIn other = session.viewIn texts := by
  simp only [viewIn, same]

private theorem Context.Plain.viewIn {context : Context} (plain : context.Plain) (real : context.kind = .real)
    (texts : Texts) :
    context.session.viewIn texts = (Session.start context.configuration).viewIn texts :=
  Session.viewIn_eq plain.configuration (plain.additions real) texts

/-- Whether a context stands for a configuration if it drives the folder of that one, and has loaded what it says. -/
structure Context.Tuned (texts : Texts) (configuration : Uri) (context : Context) : Prop where
  plain : context.Plain
  own : context.kind = .real → context.configuration.folder = configuration.folder → context.configuration = configuration
  viewed : context.kind = .real → context.configuration = configuration →
    ∀ view, (Session.start configuration).viewIn texts = .ok view → context.session.view = some view

theorem Context.Tuned.viewIn {context : Context} {texts read : Texts} {configuration : Uri}
    (tuned : context.Tuned texts configuration) (real : context.kind = .real)
    (own : context.configuration = configuration) (same : read configuration = texts configuration) :
    context.session.viewIn read = (Session.start configuration).viewIn texts := by
  rw [tuned.plain.viewIn real, own]
  exact Session.viewIn_congr same

theorem Context.endures_tuned (texts : Texts) (configuration : Uri) :
    Context.Endures (fun read => read configuration = texts configuration) (Context.Tuned texts configuration) where
  track := by
    intro context key tuned
    have plain := (endures_plain fun _ => True).track key tuned.plain
    simp only [track] at plain ⊢
    split at plain <;> split <;> first | contradiction | exact ⟨plain, tuned.own, tuned.viewed⟩
  untrack _ tuned := ⟨⟨tuned.plain.configuration, tuned.plain.additions⟩, tuned.own, tuned.viewed⟩
  activate tuned := ⟨⟨tuned.plain.configuration, tuned.plain.additions⟩, tuned.own, tuned.viewed⟩
  addInput := by
    intro context uri tuned
    have plain := (endures_plain fun _ => True).addInput uri tuned.plain
    refine ⟨plain, tuned.own, fun real same view loads => ?_⟩
    simp only [addInput, Session.addInput]
    split <;> exact tuned.viewed real same view loads
  loaded := by
    intro context read view same loads tuned
    refine ⟨⟨tuned.plain.configuration, tuned.plain.additions⟩, tuned.own, fun real own other loads' => ?_⟩
    rw [Except.ok.inj (loads'.symm.trans ((tuned.viewIn real own same).symm.trans loads))]
    rfl
  passed := by
    intro context read view seen same loads tuned
    refine ⟨⟨tuned.plain.configuration, tuned.plain.additions⟩, tuned.own, fun real own other loads' => ?_⟩
    rw [Except.ok.inj (loads'.symm.trans ((tuned.viewIn real own same).symm.trans loads))]
    rfl

/-- Whether the context of a configuration was told of all these inputs. -/
def Context.Told (configuration : Uri) (inputs : List Uri) (context : Context) : Prop :=
  context.kind = .real → context.configuration = configuration →
    ∀ input ∈ inputs, input.normalize ∈ context.session.known

private theorem Session.subset_addInput (session : Session) (uri : Uri) :
    session.known ⊆ (session.addInput uri).known ∧ uri.normalize ∈ (session.addInput uri).known := by
  simp only [addInput]
  split
  next known => exact ⟨fun _ => id, List.contains_iff_mem.mp known⟩
  next => exact ⟨List.subset_append_left _ _, List.mem_append_right _ (List.mem_singleton_self _)⟩

private theorem Session.known_foldl_addInput (session : Session) (inputs : List Uri) :
    session.known ⊆ (inputs.foldl addInput session).known ∧
      ∀ input ∈ inputs, input.normalize ∈ (inputs.foldl addInput session).known := by
  induction inputs generalizing session with
  | nil => exact ⟨fun _ => id, fun _ => (nomatch ·)⟩
  | cons input rest ih =>
    obtain ⟨kept, told⟩ := session.subset_addInput input
    obtain ⟨kept', told'⟩ := ih (session.addInput input)
    exact ⟨fun _ member => kept' (kept member), List.forall_mem_cons.mpr ⟨kept' told, told'⟩⟩

theorem Context.endures_told (configuration : Uri) (inputs : List Uri) :
    Context.Endures (fun _ => True) (Context.Told configuration inputs) where
  track := by
    intro context key told
    simp only [Told, track] at told ⊢
    split <;> exact told
  untrack _ told := told
  activate told := told
  addInput := fun uri told real own input member => (Session.subset_addInput _ uri).1 (told real own input member)
  loaded _ _ told := told
  passed _ _ _ told := told

namespace Workspace

variable {workspace : Workspace} {document configuration : Uri}

/-! ## The search for a configuration -/

def searched (workspace : Workspace) (document : Uri) : Workspace :=
  { workspace with store := (Discovery.find Store.source document.folder workspace.store).2 }

theorem reads_searched (keyed : workspace.store.Keyed) (document : Uri) :
    workspace.store.Reads (workspace.searched document).store :=
  Discovery.find_keeps workspace.store.source_repeats.keeps document.folder (.rfl keyed)

theorem status?_searched (workspace : Workspace) (document : Uri) :
    (workspace.searched document).store.status? = workspace.store.status? :=
  Discovery.find_keeps (Store.source_keeps workspace.store.status?) document.folder (.refl _)

theorem find_searched (keyed : workspace.store.Keyed) (document : Uri) :
    Discovery.find Store.source document.folder (workspace.searched document).store =
      ((Discovery.find Store.source document.folder workspace.store).1, (workspace.searched document).store) := by
  have reads := reads_searched keyed document
  exact Store.find_again keyed reads.keyed (fun uri _ => congrFun reads.reading uri) fun _ _ cached => cached

theorem choose_searched (keyed : workspace.store.Keyed) (document : Uri) :
    (workspace.searched document).choose document = workspace.choose document := by
  have again := find_searched keyed document
  unfold choose
  rw [again]
  rfl

theorem choice?_searched (keyed : workspace.store.Keyed) (document : Uri) :
    (workspace.searched document).choice? document = workspace.choice? document := by
  have again := find_searched keyed document
  unfold choice? governing?
  rw [again]
  have split' : Discovery.find Store.source document.folder workspace.store =
      ((Discovery.find Store.source document.folder workspace.store).1, (workspace.searched document).store) := rfl
  rw [split']
  rfl

def selected (workspace : Workspace) (configuration : Uri) : Workspace :=
  workspace.log .debug ("Configuration File Selected: " ++ configuration.render)

theorem choose_of_found
    (found : Discovery.find Store.source document.folder workspace.store = (.ok (some configuration), workspace.store)) :
    workspace.choose document =
      match (workspace.selected configuration).resolveReal document configuration with
      | (.error error, workspace) => (.error (.engine error), workspace)
      | (.ok (some id), workspace) => (.ok id, workspace)
      | (.ok none, workspace) => workspace.resolveSynthesized document := by
  unfold choose
  rw [found]
  rfl

theorem choose_of_none
    (found : Discovery.find Store.source document.folder workspace.store = (.ok none, workspace.store)) :
    workspace.choose document = workspace.resolveSynthesized document := by
  unfold choose
  rw [found]

theorem choose_of_undetected {error : EngineError}
    (found : Discovery.find Store.source document.folder workspace.store = (.error error, workspace.store)) :
    workspace.choose document = (.error (.engine error), workspace) := by
  unfold choose
  rw [found]

/-! ## The context of the configuration -/

private theorem everywhere_of_get? {holds : Context → Prop} (formed : workspace.registry.WellFormed)
    (each : ∀ id context, workspace.registry.get? id = some context → holds context) : Everywhere holds workspace :=
  fun entry member => each entry.1 entry.2 ((Entries.get?_eq_some_iff formed.ids).mpr member)

theorem real_of_lookup (coherent : workspace.registry.outline.Coherent) {folder : Uri} {id : Nat} {context : Context}
    (living : workspace.registry.lookup (.folder folder) = some id) (found : workspace.registry.get? id = some context) :
    context.kind = .real ∧ context.configuration.folder = folder := by
  rw [← Registry.lookup_outline, coherent.lookup] at living
  obtain ⟨shown, met, fits⟩ := coherent.fits _ id living
  rw [Registry.get?_outline, found, Option.map_some] at met
  obtain rfl := Option.some.inj met
  exact fits

/-- Where no other context drives its folder, the inputs of a configuration are those that it declares. -/
theorem candidate_loads (keyed : workspace.store.Keyed) (coherent : workspace.registry.outline.Coherent)
    (plain : Everywhere Context.Plain workspace) (unrivalled : workspace.Unrivalled configuration) :
    (workspace.candidate configuration).1.map Prod.snd =
      ((Session.start configuration).viewIn workspace.store.reading).map View.inputs := by
  simp only [candidate]
  cases living : workspace.registry.lookup (.folder configuration.folder) with
  | none =>
    obtain ⟨store, -, loaded⟩ := loadView_replay keyed (.start .real (.start configuration))
    simp only [Option.bind_none, loaded]
    rw [show (Context.start .real (Session.start configuration)).session = .start configuration from rfl]
    cases (Session.start configuration).viewIn workspace.store.reading <;> rfl
  | some id =>
    obtain ⟨-, context, found⟩ := Registry.lookup_eq_some_iff.mp living
    obtain ⟨store, -, loaded⟩ := loadView_replay keyed context
    simp only [Option.bind_some, found, Option.map_some, loaded]
    rw [(plain.find found).viewIn (real_of_lookup coherent living found).1, unrivalled id context living found]
    cases (Session.start configuration).viewIn workspace.store.reading <;> rfl

/-- Once a configuration is loaded, its context has loaded it, and no other one drives its folder if none did. -/
theorem tuned_candidate (sound : workspace.Sound) (coherent : workspace.registry.outline.Coherent)
    (plain : Everywhere Context.Plain workspace) (unrivalled : workspace.Unrivalled configuration) :
    Everywhere (Context.Tuned workspace.store.reading configuration) (workspace.candidate configuration).2 ∧
      ∀ context inputs, (workspace.candidate configuration).1 = .ok (.fresh context, inputs) →
        context.Tuned workspace.store.reading configuration := by
  -- a real context is the one that its folder leads to
  have anchored : ∀ {id context}, workspace.registry.get? id = some context → context.kind = .real →
      workspace.registry.lookup (.folder context.configuration.folder) = some id := by
    intro id context found real
    rw [← Registry.lookup_outline, coherent.lookup]
    refine coherent.anchored id context.outline ?_ real
    rw [Registry.get?_outline, found, Option.map_some]
  have own : ∀ {id context}, workspace.registry.get? id = some context → context.kind = .real →
      context.configuration.folder = configuration.folder → context.configuration = configuration :=
    fun found real same => unrivalled _ _ (same ▸ anchored found real) found
  simp only [candidate]
  cases living : workspace.registry.lookup (.folder configuration.folder) with
  | none =>
    have tuned : Everywhere (Context.Tuned workspace.store.reading configuration) workspace := by
      refine everywhere_of_get? sound.formed fun id context found => ⟨plain.find found, own found, fun real same => ?_⟩
      have leads := anchored found real
      rw [same, living] at leads
      cases leads
    obtain ⟨store, -, loaded⟩ := loadView_replay sound.keyed (.start .real (.start configuration))
    simp only [Option.bind_none, loaded]
    rw [show (Context.start .real (Session.start configuration)).session = .start configuration from rfl]
    cases loads : (Session.start configuration).viewIn workspace.store.reading with
    | error error => exact ⟨tuned.congr rfl, fun _ _ returned => by cases returned⟩
    | ok view =>
      refine ⟨tuned.congr rfl, fun context inputs returned => ?_⟩
      cases returned
      refine ⟨⟨rfl, fun _ => rfl⟩, fun _ _ => rfl, fun _ _ other loads' => ?_⟩
      rw [Except.ok.inj (loads.symm.trans loads')]
      rfl
  | some id =>
    obtain ⟨-, context, found⟩ := Registry.lookup_eq_some_iff.mp living
    have real := (real_of_lookup coherent living found).1
    obtain ⟨store, -, loaded⟩ := loadView_replay sound.keyed context
    simp only [Option.bind_some, found, Option.map_some, loaded]
    rw [(plain.find found).viewIn real, unrivalled id context living found]
    -- the context of the folder is loaded now, and there is no other one
    have tuned : ∀ {changed : Context} {store : Store}, changed.Tuned workspace.store.reading configuration →
        Everywhere (Context.Tuned workspace.store.reading configuration)
          { workspace with store := store, registry := workspace.registry.set id changed } := by
      intro changed store held
      have formed : (workspace.registry.set id changed).WellFormed := sound.formed.modify id fun _ => changed
      refine everywhere_of_get? formed fun other rival met => ?_
      simp only [Registry.set, Registry.get?_modify] at met
      split at met
      next same =>
        rw [same, found, Option.map_some] at met
        exact Option.some.inj met ▸ held
      next apart =>
        refine ⟨plain.find met, own met, fun real' same => absurd ?_ apart⟩
        have leads := anchored met real'
        rw [same, living] at leads
        exact (Option.some.inj leads).symm
    cases loads : (Session.start configuration).viewIn workspace.store.reading with
    | error error =>
      refine ⟨tuned ⟨plain.find found, own found, fun _ _ view loads' => ?_⟩, fun _ _ returned => by cases returned⟩
      cases loads.symm.trans loads'
    | ok view =>
      have kept := plain.find found
      have held : (context.withView (some view)).Tuned workspace.store.reading configuration := by
        refine ⟨⟨kept.configuration, kept.additions⟩, @own id context found, fun _ _ other loads' => ?_⟩
        rw [Except.ok.inj (loads.symm.trans loads')]
        rfl
      exact ⟨tuned held, fun _ _ returned => by cases returned⟩

/-! ## What the search gives -/

section Searched

variable (keyed : workspace.store.Keyed) (coherent : workspace.registry.outline.Coherent)
  (plain : Everywhere Context.Plain workspace) (unrivalled : workspace.Unrivalled configuration)
  (found : Discovery.find Store.source document.folder workspace.store = (.ok (some configuration), workspace.store))

include keyed coherent plain unrivalled in
private theorem candidate_of_error {error : EngineError}
    (failed : (Session.start configuration).viewIn workspace.store.reading = .error error) :
    (workspace.candidate configuration).1 = .error error := by
  have loads := candidate_loads keyed coherent plain unrivalled
  rw [failed] at loads
  generalize (workspace.candidate configuration).1 = outcome at loads ⊢
  cases outcome with
  | error other => exact congrArg _ (Except.error.inj loads)
  | ok found => cases loads

include keyed coherent plain unrivalled in
private theorem candidate_of_ok {view : View}
    (loaded : (Session.start configuration).viewIn workspace.store.reading = .ok view) :
    ∃ candidate, (workspace.candidate configuration).1 = .ok (candidate, view.inputs) := by
  have loads := candidate_loads keyed coherent plain unrivalled
  rw [loaded] at loads
  generalize (workspace.candidate configuration).1 = outcome at loads ⊢
  cases outcome with
  | error other => cases loads
  | ok found => exact ⟨found.1, congrArg (fun inputs => Except.ok (found.1, inputs)) (Except.ok.inj loads)⟩

private theorem governing?_eq
    (found : Discovery.find Store.source document.folder workspace.store = (.ok (some configuration), workspace.store)) :
    workspace.governing? document =
      match (workspace.candidate configuration).1 with
      | .ok (_, inputs) =>
        if configuration = document ∨ document ∈ inputs then some (configuration, inputs) else none
      | .error _ => none := by
  unfold governing?
  generalize Discovery.find Store.source document.folder workspace.store = searched at found
  subst found
  rfl

include keyed coherent plain unrivalled found in
theorem choose_of_unloaded {error : EngineError}
    (failed : (Session.start configuration).viewIn workspace.store.reading = .error error) :
    workspace.choose document =
        (.error (.engine error), ((workspace.selected configuration).candidate configuration).2) ∧
      workspace.governing? document = none := by
  have loads := @candidate_of_error (workspace.selected configuration) configuration keyed coherent (plain.congr rfl)
    unrivalled _ failed
  have loads' := candidate_of_error keyed coherent plain unrivalled failed
  refine ⟨?_, ?_⟩
  · rw [choose_of_found found, resolveReal]
    generalize (workspace.selected configuration).candidate configuration = outcome at loads ⊢
    obtain ⟨result, after⟩ := outcome
    obtain rfl : result = .error error := loads
    rfl
  · rw [governing?_eq found, loads']

include keyed coherent plain unrivalled found in
/-- A configuration that neither is the document nor declares it leaves the document to a generated one. -/
theorem choose_of_foreign {view : View}
    (loaded : (Session.start configuration).viewIn workspace.store.reading = .ok view) (apart : configuration ≠ document)
    (foreign : document ∉ view.inputs) :
    workspace.choose document =
        ((workspace.selected configuration).candidate configuration).2.resolveSynthesized document ∧
      workspace.governing? document = none := by
  obtain ⟨candidate, loads⟩ := @candidate_of_ok (workspace.selected configuration) configuration keyed coherent
    (plain.congr rfl) unrivalled _ loaded
  obtain ⟨candidate', loads'⟩ := candidate_of_ok keyed coherent plain unrivalled loaded
  refine ⟨?_, ?_⟩
  · rw [choose_of_found found, resolveReal]
    generalize (workspace.selected configuration).candidate configuration = outcome at loads ⊢
    obtain ⟨result, after⟩ := outcome
    obtain rfl : result = .ok (candidate, view.inputs) := loads
    simp only [apart, List.contains_iff_mem, foreign, ↓reduceIte]
  · rw [governing?_eq found, loads']
    simp only [apart, foreign, or_self, ↓reduceIte]

include keyed coherent plain unrivalled found in
/-- A configuration that is the document or declares it decides on the context of the document. -/
theorem choose_of_governed {view : View}
    (loaded : (Session.start configuration).viewIn workspace.store.reading = .ok view)
    (governs : configuration = document ∨ document ∈ view.inputs) :
    (∃ id, (workspace.choose document).1 = .ok id) ∧ workspace.choice? document =
      some (if configuration = document then .own view.inputs else .declared configuration) := by
  obtain ⟨candidate, loads⟩ := @candidate_of_ok (workspace.selected configuration) configuration keyed coherent
    (plain.congr rfl) unrivalled _ loaded
  obtain ⟨candidate', loads'⟩ := candidate_of_ok keyed coherent plain unrivalled loaded
  refine ⟨?_, ?_⟩
  · rw [choose_of_found found, resolveReal]
    generalize (workspace.selected configuration).candidate configuration = outcome at loads ⊢
    obtain ⟨result, after⟩ := outcome
    obtain rfl : result = .ok (candidate, view.inputs) := loads
    by_cases own : configuration = document
    · simp only [own, ↓reduceIte]
      exact ⟨_, rfl⟩
    · simp only [own, List.contains_iff_mem, governs.resolve_left own, ↓reduceIte]
      exact ⟨_, rfl⟩
  · rw [choice?, governing?_eq found, loads']
    simp only [governs, ↓reduceIte]

end Searched

theorem choice?_of_ungoverned {choice : Choice} (nothing : workspace.governing? document = none)
    (chosen : workspace.choice? document = some choice) :
    ∃ configuration, choice = .generated configuration ∧ document.generated = .ok configuration := by
  rw [choice?, nothing] at chosen
  obtain ⟨configuration, generated, rfl⟩ := Option.map_eq_some_iff.mp chosen
  exact ⟨configuration, rfl, ok_of_toOption generated⟩

/-- A configuration that was found for itself was told of all that it declares. -/
theorem told_choose (sound : workspace.Sound) (coherent : workspace.registry.outline.Coherent)
    (plain : Everywhere Context.Plain workspace) (unrivalled : workspace.Unrivalled document)
    (found : Discovery.find Store.source document.folder workspace.store = (.ok (some document), workspace.store))
    {view : View} (loaded : (Session.start document).viewIn workspace.store.reading = .ok view) :
    Everywhere (Context.Told document view.inputs) (workspace.choose document).2 := by
  obtain ⟨candidate, loads⟩ := @candidate_of_ok (workspace.selected document) document sound.keyed coherent
    (plain.congr rfl) unrivalled _ loaded
  have outcome := choose_spec sound.formed document
  rw [choose_of_found found, resolveReal] at outcome ⊢
  generalize (workspace.selected document).candidate document = loading at loads outcome ⊢
  obtain ⟨result, middle⟩ := loading
  obtain rfl : result = .ok (candidate, view.inputs) := loads
  simp only [↓reduceIte] at outcome ⊢
  generalize middle.retain candidate = seating at outcome ⊢
  obtain ⟨id, seated⟩ := seating
  simp only at outcome ⊢
  cases outcome with
  | settled choice _ _ chosen moved grows =>
    have coherent' := coherent_settled coherent moved
    refine everywhere_of_get? (formed_of_outline rfl coherent'.formed) fun other context held real own => ?_
    have leads := coherent'.anchored other context.outline (by rw [Registry.get?_outline, held, Option.map_some]) real
    rw [Registry.target?_outline] at leads
    simp only [index, Registry.target?_index, Context.outline_configuration, own] at leads
    obtain rfl : id = other := by simpa using leads
    simp only [index, Registry.get?_index, get?_foldl_adoptInput, ↓reduceIte] at held
    obtain ⟨former, -, rfl⟩ := Option.map_eq_some_iff.mp held
    rw [Context.session_foldl_adopt]
    exact (Session.known_foldl_addInput former.session view.inputs).2

/-! ## What is tracked anew -/

variable {taken opened : Uri → Prop}

private theorem takes_loadView {store : Store} (keyed : store.Keyed) (context : Context) :
    store.Takes taken opened (context.loadView store).2.2 := by
  obtain ⟨after, reads, loaded⟩ := loadView_replay keyed context
  have status := status?_loadView context store
  have same : (context.loadView store).2.2 = after := by
    rw [loaded]
    cases context.session.viewIn store.reading <;> rfl
  rw [same] at status ⊢
  exact reads.takes status

theorem cached_loadView {store : Store} (keyed : store.Keyed) (context : Context) :
    (context.loadView store).2.2.Cached context.session.configuration := by
  have read : (context.loadView store).2.2 = (store.read context.session.configuration).2 := by
    simp only [Context.loadView, Session.loadView]
    split <;> rfl
  rw [read]
  exact Store.cached_read keyed _

private theorem takes_candidate (keyed : workspace.store.Keyed) (configuration : Uri) :
    workspace.store.Takes taken opened (workspace.candidate configuration).2.store := by
  simp only [candidate]
  split <;> exact takes_loadView keyed _

private theorem takes_foldl_adoptInput (id : Nat) (workspace : Workspace) (inputs : List Uri)
    (takes : ∀ input ∈ inputs, taken input.normalize.normalize) :
    workspace.store.Takes taken opened (inputs.foldl (adoptInput id) workspace).store := by
  induction inputs generalizing workspace with
  | nil => exact .rfl
  | cons input rest ih =>
    obtain ⟨first, later⟩ := List.forall_mem_cons.mp takes
    have adopted : workspace.store.Takes taken opened (adoptInput id workspace input).store := by
      rw [store_adoptInput]
      exact Store.takes_acquire workspace.store first
    exact adopted.trans (ih _ later)

private theorem takes_acquired (workspace : Workspace) {uri : Uri} (takes : taken uri.normalize.normalize) :
    workspace.store.Takes taken opened (workspace.acquire uri none).2.store := by
  rw [(acquire_spec workspace uri none).2.2]
  exact Store.takes_acquire workspace.store takes

private theorem takes_resolveReal (keyed : workspace.store.Keyed)
    (takes : ∀ candidate inputs, (workspace.candidate configuration).1 = .ok (candidate, inputs) →
      (configuration = document ∨ document ∈ inputs) →
      ∀ key ∈ (if configuration = document then Choice.own inputs else .declared configuration).taken, taken key) :
    workspace.store.Takes taken opened (workspace.resolveReal document configuration).2.store := by
  have loaded : workspace.store.Takes taken opened _ := takes_candidate keyed configuration
  simp only [resolveReal]
  generalize workspace.candidate configuration = outcome at takes loaded ⊢
  obtain ⟨result, middle⟩ := outcome
  cases result with
  | error error => exact loaded
  | ok found =>
    obtain ⟨candidate, inputs⟩ := found
    replace takes := takes candidate inputs rfl
    have stored : (middle.retain candidate).2.store = middle.store := by cases candidate <;> rfl
    simp only at loaded ⊢
    generalize middle.retain candidate = seated at stored ⊢
    obtain ⟨id, seated⟩ := seated
    simp only at stored ⊢
    rw [← stored] at loaded
    split
    next own =>
      rw [if_pos own] at takes
      refine loaded.trans (takes_foldl_adoptInput id seated inputs fun input member => takes (.inl own) _ ?_)
      exact List.mem_map.mpr ⟨input, member, rfl⟩
    next apart =>
      rw [if_neg apart] at takes
      split
      next declares =>
        have member := takes (.inr (List.contains_iff_mem.mp declares)) _ (List.mem_singleton_self _)
        exact loaded.trans
          (takes_acquired ((seated.index (.folder configuration.folder) id).index (.input document) id) member)
      next =>
        rw [← stored]
        exact loaded

private theorem takes_resolveSynthesized (keyed : workspace.store.Keyed)
    (takes : ∀ key, IsPlaceholder document key → taken key)
    (opens : ∀ key, IsPlaceholder document key → opened key) :
    workspace.store.Takes taken opened (workspace.resolveSynthesized document).2.store := by
  simp only [resolveSynthesized]
  cases generated : document.generated with
  | error error => exact .rfl
  | ok configuration =>
    have placed : IsPlaceholder document configuration.normalize.normalize := ⟨configuration, generated, rfl⟩
    simp only
    cases living : workspace.registry.lookup (.synthesized configuration) with
    | some id => exact takes_acquired workspace (takes _ placed)
    | none =>
      obtain ⟨key, -, stored⟩ := acquire_spec workspace configuration (some (placeholder document))
      have shown : workspace.store.Takes taken opened
          ((workspace.acquire configuration (some (placeholder document))).2.modifyFile
            (workspace.acquire configuration (some (placeholder document))).1 fun file => file.setActive true).store := by
        rw [modifyFile, key, stored]
        exact Store.takes_open workspace.store _ (takes _ placed) (opens _ placed)
      have keyed' := (@turned_acquire_open (fun _ => True) (fun _ => True) workspace configuration
        (some (placeholder document)) trivial).1.store.keyed keyed
      simp only
      generalize (workspace.acquire configuration (some (placeholder document))).2.modifyFile _ _ = open' at keyed' shown ⊢
      have loaded : open'.store.Takes taken opened ((Context.start .synthesized
          ((Session.start configuration).addConfiguration (generatedEntries document))).loadView open'.store).2.2 :=
        takes_loadView keyed' _
      generalize (Context.start .synthesized
        ((Session.start configuration).addConfiguration (generatedEntries document))).loadView open'.store = outcome
        at loaded ⊢
      obtain ⟨result, context, store⟩ := outcome
      cases result <;> exact shown.trans loaded

/-- What the search for a context takes with the document, besides the generated configuration. -/
def Takable (workspace : Workspace) (document key : Uri) : Prop :=
  IsPlaceholder document key ∨ ∃ choice, workspace.choice? document = some choice ∧ key ∈ choice.taken

theorem takes_choose (sound : workspace.Sound) (document : Uri) :
    workspace.store.Takes (workspace.Takable document) (IsPlaceholder document) (workspace.choose document).2.store := by
  have found := find_searched sound.keyed document
  have reads := reads_searched sound.keyed document
  have searched : workspace.store.Takes (workspace.Takable document) (IsPlaceholder document)
      (workspace.searched document).store := reads.takes (status?_searched workspace document)
  have takable : workspace.Takable document = (workspace.searched document).Takable document := by
    unfold Takable
    rw [choice?_searched sound.keyed]
  rw [← choose_searched sound.keyed]
  rw [takable] at searched ⊢
  refine searched.trans ?_
  have sound' : (workspace.searched document).Sound := ⟨sound.formed, reads.keyed⟩
  generalize (Discovery.find Store.source document.folder workspace.store).1 = detected at found
  clear takable searched reads
  generalize workspace.searched document = workspace at found sound' ⊢
  have generates : ∀ {middle : Workspace}, middle.store.Keyed → middle.store.Takes (workspace.Takable document)
      (IsPlaceholder document) (middle.resolveSynthesized document).2.store :=
    fun keyed => takes_resolveSynthesized keyed (fun _ => .inl) fun _ => id
  cases detected with
  | error error =>
    rw [choose_of_undetected found]
    exact .rfl
  | ok configuration? =>
    cases configuration? with
    | none =>
      rw [choose_of_none found]
      exact generates sound'.keyed
    | some configuration =>
      have sound'' : (workspace.selected configuration).Sound := ⟨sound'.formed, sound'.keyed⟩
      have governed : workspace.store.Takes (workspace.Takable document) (IsPlaceholder document)
          ((workspace.selected configuration).resolveReal document configuration).2.store := by
        refine takes_resolveReal sound''.keyed fun candidate inputs loaded governs key member => .inr ⟨_, ?_, member⟩
        simp only [choice?, governing?, found]
        rw [selected, candidate_log] at loaded
        simp only [loaded, governs, ↓reduceIte]
      have keyed := (@turned_resolveReal (fun _ => True) (fun _ => True) _ sound'' document configuration).store.keyed
        sound''.keyed
      rw [choose_of_found found]
      generalize (workspace.selected configuration).resolveReal document configuration = outcome at governed keyed ⊢
      obtain ⟨result, after⟩ := outcome
      cases result with
      | error error => exact governed
      | ok id? =>
        cases id? with
        | some id => exact governed
        | none =>
          simp only at governed keyed ⊢
          exact governed.trans (generates keyed)

/-- When a search that found a configuration is done, the context of that one has loaded it. -/
theorem tuned_choose (sound : workspace.Sound) (coherent : workspace.registry.outline.Coherent)
    (plain : Everywhere Context.Plain workspace) (unrivalled : workspace.Unrivalled configuration)
    (found : Discovery.find Store.source document.folder workspace.store = (.ok (some configuration), workspace.store))
    (apart : ¬IsPlaceholder document configuration.normalize) :
    Everywhere (Context.Tuned workspace.store.reading configuration) (workspace.choose document).2 := by
  have endures := Context.endures_tuned workspace.store.reading configuration
  have sound' : (workspace.selected configuration).Sound := ⟨sound.formed, sound.keyed⟩
  have loaded : Everywhere (Context.Tuned workspace.store.reading configuration)
      ((workspace.selected configuration).candidate configuration).2 ∧ _ :=
    @tuned_candidate (workspace.selected configuration) configuration sound' coherent (plain.congr rfl) unrivalled
  have governed := @Everywhere.resolveReal _ _ _ document endures configuration loaded.1 loaded.2
  have keyed := (@turned_resolveReal (fun _ => True) (fun _ => True) _ sound' document configuration).store.keyed
    sound'.keyed
  have takes : workspace.store.Takes (fun _ => True) (fun _ => False)
      ((workspace.selected configuration).resolveReal document configuration).2.store :=
    takes_resolveReal sound'.keyed fun _ _ _ _ _ _ => trivial
  rw [choose_of_found found]
  generalize (workspace.selected configuration).resolveReal document configuration = outcome at governed keyed takes ⊢
  obtain ⟨result, after⟩ := outcome
  cases result with
  | error error => exact governed
  | ok id? =>
    cases id? with
    | some id => exact governed
    | none =>
      simp only at governed keyed takes ⊢
      refine governed.resolveSynthesized endures keyed (fun other => ?_) fun other generated => ?_
      · exact ⟨⟨rfl, (nomatch ·)⟩, (nomatch ·), (nomatch ·)⟩
      · have placed : IsPlaceholder document other.normalize.normalize := ⟨other, generated, rfl⟩
        have opens := @Store.takes_open (fun _ => True) (· = other.normalize.normalize) after.store other.normalize
          (some (placeholder document)) trivial rfl
        rw [opens.reading configuration fun same => apart (same ▸ placed), takes.reading configuration not_false]

end Workspace

end SpecServer
