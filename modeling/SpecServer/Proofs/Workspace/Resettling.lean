import SpecServer.Proofs.Workspace.Idle
import SpecServer.Proofs.Workspace.Searching
set_option autoImplicit false

/-!
Searching the context of a document that has its seat. The search finds the configuration that is loaded already, the
context that lives already and the documents that are tracked already, and changes nothing.
-/

namespace SpecServer

-- neither the model's parser nor the disk must be unfolded
attribute [local irreducible] Uri.normalize Store.load

namespace Workspace

variable {workspace before after : Workspace} {document configuration : Uri} {id : Nat} {view : View}

/-- Whether a configuration is kept, and the context of its folder has loaded it. -/
structure Holds (workspace : Workspace) (configuration : Uri) : Prop where
  cached : workspace.store.Cached configuration
  loaded : ∀ id context, workspace.registry.lookup (.folder configuration.folder) = some id →
    workspace.registry.get? id = some context → context.session.configuration = configuration ∧
      context.session.additions = [] ∧ ∀ view, (Session.start configuration).viewIn workspace.store.reading = .ok view →
        context.session.view = some view

private theorem Idles.holds (idles : Idles before after) (holds : before.Holds configuration) :
    after.Holds configuration := by
  refine ⟨idles.store.cached holds.cached, fun id context leads found => ?_⟩
  obtain ⟨processed, stood⟩ := idles.found found
  rw [idles.lookup] at leads
  rw [idles.store.reading]
  have kept := holds.loaded id _ leads stood
  exact kept

private theorem Idles.seated {choice : Choice} (idles : Idles before after)
    (seated : before.registry.Seated document choice id) :
    after.registry.Seated document choice id := by
  have claims : choice.claims after.registry document = choice.claims before.registry document := by
    cases choice with
    | own inputs => rfl
    | declared configuration => rfl
    | generated configuration => simp only [Choice.claims, idles.lookup]
  refine ⟨?_, fun key member => idles.tracks (seated.taken key member), fun key claimed => ?_, idles.tracks seated.own,
    fun old previous => ?_⟩
  · rw [idles.lookup]
    exact seated.seat
  · rw [idles.targets]
    exact seated.claims key (claims ▸ claimed)
  · rw [idles.lookup] at previous
    exact seated.previous old previous

private theorem loadView_of_cached {store : Store} (keyed : store.Keyed) (context : Context)
    (cached : store.Cached context.session.configuration) :
    context.loadView store =
      match context.session.viewIn store.reading with
      | .error error => (.error error, context, store)
      | .ok view => (.ok view, context.withView (some view), store) := by
  obtain ⟨later, -, loaded⟩ := loadView_replay keyed context
  have same : (context.loadView store).2.2 = store := Store.loadView_again cached
  rw [loaded] at same ⊢
  cases loads : context.session.viewIn store.reading with
  | error error =>
    rw [loads] at same
    rw [show later = store from same]
  | ok view =>
    rw [loads] at same
    rw [show later = store from same]

/-- Loading a configuration that is held gives what it says, and the context that lives in its folder, if one does. -/
theorem candidate_again (keyed : workspace.store.Keyed) (holds : workspace.Holds configuration) :
    ∃ candidate after, Idles workspace after ∧ workspace.candidate configuration =
      (((Session.start configuration).viewIn workspace.store.reading).map fun view => (candidate, view.inputs), after) ∧
        ∀ id, workspace.registry.lookup (.folder configuration.folder) = some id → candidate = .living id := by
  unfold candidate
  cases living : workspace.registry.lookup (.folder configuration.folder) with
  | none =>
    have loaded := loadView_of_cached keyed (.start .real (.start configuration)) holds.cached
    rw [show (Context.start .real (Session.start configuration)).session = Session.start configuration from rfl] at loaded
    simp only [Option.bind_none, loaded]
    cases loads : (Session.start configuration).viewIn workspace.store.reading with
    | error error => exact ⟨.living 0, workspace, .rfl, rfl, nofun⟩
    | ok view => exact ⟨.fresh _, workspace, .rfl, rfl, nofun⟩
  | some id =>
    obtain ⟨-, context, found⟩ := Registry.lookup_eq_some_iff.mp living
    obtain ⟨own, plain, viewed⟩ := holds.loaded id context living found
    have loaded := loadView_of_cached keyed context (own ▸ holds.cached)
    have sets : ∀ {changed : Context}, changed.face = context.face →
        Idles workspace { workspace with registry := workspace.registry.set id changed } := by
      intro changed same
      have idles : Idles workspace (workspace.modifyContext id fun _ => changed) := by
        refine idles_modifyContext fun other stored => ?_
        rw [same, Option.some.inj (found.symm.trans stored)]
      exact idles
    simp only [Option.bind_some, found, Option.map_some, loaded]
    rw [@Session.viewIn_eq (.start configuration) _ own plain]
    cases loads : (Session.start configuration).viewIn workspace.store.reading with
    | error error => exact ⟨.living id, _, sets rfl, rfl, fun _ same => by rw [Option.some.inj same]⟩
    | ok view =>
      refine ⟨.living id, _, sets ?_, rfl, fun _ same => by rw [Option.some.inj same]⟩
      have kept := viewed view loads
      simp only [Context.face, Context.withView, ← kept]

/-! ## Real contexts -/

private theorem resolveReal_again_of_error (keyed : workspace.store.Keyed) (holds : workspace.Holds configuration)
    {error : EngineError} (failed : (Session.start configuration).viewIn workspace.store.reading = .error error) :
    ∃ after, workspace.resolveReal document configuration = (.error error, after) ∧ Idles workspace after := by
  obtain ⟨candidate, after, idles, loaded, -⟩ := candidate_again keyed holds
  refine ⟨after, ?_, idles⟩
  simp only [resolveReal, loaded, failed, Except.map]

private theorem resolveReal_again_of_foreign (keyed : workspace.store.Keyed) (holds : workspace.Holds configuration)
    (loads : (Session.start configuration).viewIn workspace.store.reading = .ok view) (apart : configuration ≠ document)
    (foreign : document ∉ view.inputs) :
    ∃ after, workspace.resolveReal document configuration = (.ok none, after) ∧ Idles workspace after := by
  obtain ⟨candidate, after, idles, loaded, -⟩ := candidate_again keyed holds
  refine ⟨after, ?_, idles⟩
  simp only [resolveReal, loaded, loads, Except.map, apart, List.contains_iff_mem, foreign, ↓reduceIte]

private theorem resolveReal_again_of_declared (keyed : workspace.store.Keyed) (holds : workspace.Holds configuration)
    (loads : (Session.start configuration).viewIn workspace.store.reading = .ok view) (apart : configuration ≠ document)
    (declares : document ∈ view.inputs) (seated : workspace.registry.Seated document (.declared configuration) id)
    (known : (workspace.store.file? configuration.normalize.normalize).isSome) :
    ∃ after, workspace.resolveReal document configuration = (.ok (some id), after) ∧ Idles workspace after := by
  obtain ⟨candidate, loading, idles, loaded, living⟩ := candidate_again keyed holds
  obtain rfl := living id seated.seat
  have folder := idles_index ((idles.seated seated).claims (.folder configuration.folder) (by simp [Choice.claims]))
  have input := idles_index ((folder.seated (idles.seated seated)).claims (.input document) (by simp [Choice.claims]))
  have indexed := idles.trans (folder.trans input)
  have acquired := idles_acquire (indexed.store.known _ ▸ known) none
  have tracked := idles_track ((acquired.seated (indexed.seated seated)).taken configuration.normalize.normalize
    (List.mem_singleton_self _))
  refine ⟨_, ?_, indexed.trans (acquired.trans tracked)⟩
  simp only [resolveReal, loaded, loads, Except.map, apart, List.contains_iff_mem, declares, ↓reduceIte, retain,
    (acquire_spec _ configuration none).1]

private theorem idles_foldl_adoptInput {inputs : List Uri} {context : Context}
    (found : workspace.registry.get? id = some context)
    (known : ∀ input ∈ inputs, (workspace.store.file? input.normalize.normalize).isSome)
    (told : ∀ input ∈ inputs, input.normalize ∈ context.session.known)
    (tracked : ∀ input ∈ inputs, input.normalize.normalize ∈ context.tracked)
    (leads : ∀ input ∈ inputs, workspace.registry.target? (.input input) = some id) :
    Idles workspace (inputs.foldl (adoptInput id) workspace) := by
  induction inputs generalizing workspace context with
  | nil => exact .rfl
  | cons input rest ih =>
    simp only [List.forall_mem_cons] at known told tracked leads
    have acquired := idles_acquire known.1 none
    have adopted : Idles workspace (adoptInput id workspace input) := by
      have registry := (acquire_spec workspace input none).2.1
      refine acquired.trans (.trans (idles_modifyContext fun held stored => ?_) (idles_index ?_))
      · rw [registry, found] at stored
        obtain rfl := Option.some.inj stored
        have same : context.addInput input = context := by
          rw [Context.addInput, Session.addInput_of_known told.1]
        rw [same, Context.track_of_tracked tracked.1]
      · exact (acquired.targets _).trans leads.1
    obtain ⟨processed, stored⟩ := adopted.find found
    refine adopted.trans (ih stored (fun other member => ?_) told.2 tracked.2 fun other member => ?_)
    · rw [adopted.store.known]
      exact known.2 other member
    · rw [adopted.targets]
      exact leads.2 other member

private theorem resolveReal_again_of_own (keyed : workspace.store.Keyed) (holds : workspace.Holds document)
    (loads : (Session.start document).viewIn workspace.store.reading = .ok view)
    (seated : workspace.registry.Seated document (.own view.inputs) id)
    (known : ∀ input ∈ view.inputs, (workspace.store.file? input.normalize.normalize).isSome)
    (told : ∀ context, workspace.registry.get? id = some context → ∀ input ∈ view.inputs,
      input.normalize ∈ context.session.known) :
    ∃ after, workspace.resolveReal document document = (.ok (some id), after) ∧ Idles workspace after := by
  obtain ⟨candidate, loading, idles, loaded, living⟩ := candidate_again keyed holds
  obtain rfl := living id seated.seat
  obtain ⟨context, found, -⟩ := (idles.seated seated).own
  obtain ⟨processed, stood⟩ := idles.found found
  have tracked : ∀ input ∈ view.inputs, input.normalize.normalize ∈ context.tracked := by
    intro input member
    have taken := (idles.seated seated).taken input.normalize.normalize (List.mem_map.mpr ⟨input, member, rfl⟩)
    obtain ⟨other, met, tracks⟩ := taken
    rwa [Option.some.inj (found.symm.trans met)]
  have adopted := idles_foldl_adoptInput found (fun input member => idles.store.known _ ▸ known input member)
    (fun input member => told _ stood input member) tracked fun input member => (idles.seated seated).claims (.input input)
      (by simp [Choice.claims, member])
  have seated := adopted.seated (idles.seated seated)
  have folder := idles_index (seated.claims (.folder document.folder) (by simp [Choice.claims]))
  have own := idles_index ((folder.seated seated).claims (.configuration document) (by simp [Choice.claims]))
  refine ⟨_, ?_, idles.trans (adopted.trans (folder.trans own))⟩
  simp only [resolveReal, loaded, loads, Except.map, ↓reduceIte, retain]

/-! ## Generated contexts -/

private theorem resolveSynthesized_again (generated : document.generated = .ok configuration)
    (seated : workspace.registry.Seated document (.generated configuration) id)
    (known : (workspace.store.file? configuration.normalize.normalize).isSome) :
    ∃ after, workspace.resolveSynthesized document = (.ok id, after) ∧ Idles workspace after := by
  have acquired := idles_acquire known none
  have tracked := idles_track ((acquired.seated seated).taken configuration.normalize.normalize (List.mem_singleton_self _))
  have living : workspace.registry.lookup (.synthesized configuration) = some id := seated.seat
  refine ⟨_, ?_, acquired.trans tracked⟩
  simp only [resolveSynthesized, generated, living, (acquire_spec _ configuration none).1]

private theorem resolveSynthesized_again_of_error (keyed : workspace.store.Keyed)
    (generated : document.generated = .ok configuration)
    (absent : workspace.registry.lookup (.synthesized configuration) = none)
    (open' : workspace.store.isActive configuration.normalize.normalize) (cached : workspace.store.Cached configuration)
    {error : EngineError} (failed : (Session.founding document configuration).viewIn workspace.store.reading = .error error) :
    ∃ after, workspace.resolveSynthesized document = (.error (.engine error), after) ∧ Idles workspace after := by
  have known : (workspace.store.file? configuration.normalize.normalize).isSome := by
    have found := Store.known_of_isActive open'
    rwa [Store.status?, Option.isSome_map] at found
  have acquired := idles_acquire known (some (placeholder document))
  have opened := @idles_open _ configuration.normalize.normalize ((acquired.store.isActive _).trans open')
  have idles := acquired.trans opened
  have loaded := loadView_of_cached (idles.store.keyed keyed) (.start .synthesized (Session.founding document configuration))
    (idles.store.cached cached)
  rw [idles.store.reading, show (Context.start .synthesized (Session.founding document configuration)).session =
    Session.founding document configuration from rfl, failed] at loaded
  refine ⟨_, ?_, idles⟩
  simp only [resolveSynthesized, generated, absent, (acquire_spec workspace configuration _).1]
  rw [show (Session.start configuration).addConfiguration (generatedEntries document) =
    Session.founding document configuration from rfl, loaded]

/-! ## The whole search -/

/-- How the search for the generated context of a document goes again. -/
inductive Regenerates (workspace : Workspace) (document : Uri) : Except WorkspaceError Nat → Prop
  | unnamed (error : UriError) (failed : document.generated = .error error) :
    Regenerates workspace document (.error (.invalidUri document.generatedText error))
  | seated (configuration : Uri) (id : Nat) (generated : document.generated = .ok configuration)
      (seated : workspace.registry.Seated document (.generated configuration) id)
      (known : (workspace.store.file? configuration.normalize.normalize).isSome) : Regenerates workspace document (.ok id)
  | unloaded (configuration : Uri) (error : EngineError) (generated : document.generated = .ok configuration)
      (absent : workspace.registry.lookup (.synthesized configuration) = none)
      (open' : workspace.store.isActive configuration.normalize.normalize) (cached : workspace.store.Cached configuration)
      (failed : (Session.founding document configuration).viewIn workspace.store.reading = .error error) :
    Regenerates workspace document (.error (.engine error))

/-- How the search for the context of a document goes again. -/
inductive Steady (workspace : Workspace) (document : Uri) : Except WorkspaceError Nat → Prop
  | undetected (error : EngineError)
      (found : Discovery.find Store.source document.folder workspace.store = (.error error, workspace.store)) :
    Steady workspace document (.error (.engine error))
  | alone (result : Except WorkspaceError Nat)
      (found : Discovery.find Store.source document.folder workspace.store = (.ok none, workspace.store))
      (regenerates : workspace.Regenerates document result) : Steady workspace document result
  | unloaded (configuration : Uri) (error : EngineError)
      (found : Discovery.find Store.source document.folder workspace.store = (.ok (some configuration), workspace.store))
      (holds : workspace.Holds configuration)
      (failed : (Session.start configuration).viewIn workspace.store.reading = .error error) :
    Steady workspace document (.error (.engine error))
  | own (view : View) (id : Nat)
      (found : Discovery.find Store.source document.folder workspace.store = (.ok (some document), workspace.store))
      (holds : workspace.Holds document) (loads : (Session.start document).viewIn workspace.store.reading = .ok view)
      (seated : workspace.registry.Seated document (.own view.inputs) id)
      (known : ∀ input ∈ view.inputs, (workspace.store.file? input.normalize.normalize).isSome)
      (told : ∀ context, workspace.registry.get? id = some context → ∀ input ∈ view.inputs,
        input.normalize ∈ context.session.known) : Steady workspace document (.ok id)
  | declared (configuration : Uri) (view : View) (id : Nat)
      (found : Discovery.find Store.source document.folder workspace.store = (.ok (some configuration), workspace.store))
      (holds : workspace.Holds configuration)
      (loads : (Session.start configuration).viewIn workspace.store.reading = .ok view) (apart : configuration ≠ document)
      (declares : document ∈ view.inputs) (seated : workspace.registry.Seated document (.declared configuration) id)
      (known : (workspace.store.file? configuration.normalize.normalize).isSome) : Steady workspace document (.ok id)
  | foreign (configuration : Uri) (view : View) (result : Except WorkspaceError Nat)
      (found : Discovery.find Store.source document.folder workspace.store = (.ok (some configuration), workspace.store))
      (holds : workspace.Holds configuration)
      (loads : (Session.start configuration).viewIn workspace.store.reading = .ok view) (apart : configuration ≠ document)
      (foreign : document ∉ view.inputs) (regenerates : workspace.Regenerates document result) :
    Steady workspace document result

variable {result : Except WorkspaceError Nat}

private theorem Idles.regenerates (idles : Idles before after) (regenerates : before.Regenerates document result) :
    after.Regenerates document result := by
  cases regenerates with
  | unnamed error failed => exact .unnamed error failed
  | seated configuration id generated seated known =>
    exact .seated configuration id generated (idles.seated seated) ((idles.store.known _).trans known)
  | unloaded configuration error generated absent open' cached failed =>
    exact .unloaded configuration error generated ((idles.lookup _).trans absent) ((idles.store.isActive _).trans open')
      (idles.store.cached cached) (idles.store.reading.symm ▸ failed)

private theorem Idles.finds {folder : Uri} {found : Except EngineError (Option Uri)} (idles : Idles before after)
    (keyed : before.store.Keyed) (finds : Discovery.find Store.source folder before.store = (found, before.store)) :
    Discovery.find Store.source folder after.store = (found, after.store) := by
  have again := Store.find_again keyed (idles.store.keyed keyed) (fun uri _ => congrFun idles.store.reading uri)
    fun uri _ cached => idles.store.cached (by rwa [finds] at cached)
  rwa [finds] at again

/-- What a search finds again, it finds again after steps that change nothing. -/
theorem Idles.steady (idles : Idles before after) (keyed : before.store.Keyed) (steady : before.Steady document result) :
    after.Steady document result := by
  have reading := idles.store.reading
  cases steady with
  | undetected error found => exact .undetected error (idles.finds keyed found)
  | alone _ found regenerates => exact .alone result (idles.finds keyed found) (idles.regenerates regenerates)
  | unloaded configuration error found holds failed =>
    exact .unloaded configuration error (idles.finds keyed found) (idles.holds holds) (reading.symm ▸ failed)
  | own view id found holds loads seated known told =>
    refine .own view id (idles.finds keyed found) (idles.holds holds) (reading.symm ▸ loads) (idles.seated seated)
      (fun input member => (idles.store.known _).trans (known input member)) fun context stood input member => ?_
    obtain ⟨processed, met⟩ := idles.found stood
    have kept := told _ met input member
    exact kept
  | declared configuration view id found holds loads apart declares seated known =>
    exact .declared configuration view id (idles.finds keyed found) (idles.holds holds) (reading.symm ▸ loads) apart
      declares (idles.seated seated) ((idles.store.known _).trans known)
  | foreign configuration view _ found holds loads apart foreign regenerates =>
    exact .foreign configuration view result (idles.finds keyed found) (idles.holds holds) (reading.symm ▸ loads) apart
      foreign (idles.regenerates regenerates)

private theorem resolveSynthesized_idle (keyed : workspace.store.Keyed)
    (regenerates : workspace.Regenerates document result) :
    ∃ after, workspace.resolveSynthesized document = (result, after) ∧ Idles workspace after := by
  cases regenerates with
  | unnamed error failed => exact ⟨workspace, by simp only [resolveSynthesized, failed], .rfl⟩
  | seated configuration id generated seated known => exact resolveSynthesized_again generated seated known
  | unloaded configuration error generated absent open' cached failed =>
    exact resolveSynthesized_again_of_error keyed generated absent open' cached failed

/-- The search for a context that goes again as before changes nothing. -/
theorem choose_idle (keyed : workspace.store.Keyed) (steady : workspace.Steady document result) :
    ∃ after, workspace.choose document = (result, after) ∧ Idles workspace after := by
  have logged : ∀ configuration, Idles workspace (selected workspace configuration) := fun _ => idles_log ..
  cases steady with
  | undetected error found =>
    exact ⟨workspace, choose_of_undetected found, .rfl⟩
  | alone _ found regenerates =>
    obtain ⟨after, done, idles⟩ := resolveSynthesized_idle keyed regenerates
    exact ⟨after, (choose_of_none found).trans done, idles⟩
  | unloaded configuration error found holds failed =>
    obtain ⟨after, done, idles⟩ := @resolveReal_again_of_error (selected workspace configuration) document _ keyed
      ((logged configuration).holds holds) _ failed
    refine ⟨after, ?_, (logged configuration).trans idles⟩
    rw [choose_of_found found, done]
  | own view id found holds loads seated known told =>
    obtain ⟨after, done, idles⟩ := @resolveReal_again_of_own (selected workspace document) document _ _ keyed
      ((logged document).holds holds) loads ((logged document).seated seated) known told
    refine ⟨after, ?_, (logged document).trans idles⟩
    rw [choose_of_found found, done]
  | declared configuration view id found holds loads apart declares seated known =>
    obtain ⟨after, done, idles⟩ := @resolveReal_again_of_declared (selected workspace configuration) document _ _ _ keyed
      ((logged configuration).holds holds) loads apart declares ((logged configuration).seated seated) known
    refine ⟨after, ?_, (logged configuration).trans idles⟩
    rw [choose_of_found found, done]
  | foreign configuration view _ found holds loads apart foreign regenerates =>
    obtain ⟨middle, turned, idles⟩ := @resolveReal_again_of_foreign (selected workspace configuration) document _ _ keyed
      ((logged configuration).holds holds) loads apart foreign
    have searched := (logged configuration).trans idles
    obtain ⟨after, done, idles'⟩ := resolveSynthesized_idle (searched.store.keyed keyed) (searched.regenerates regenerates)
    refine ⟨after, ?_, searched.trans idles'⟩
    rw [choose_of_found found, turned]
    exact done

private theorem Steady.seated {id : Nat} (steady : workspace.Steady document (.ok id)) :
    ∃ choice, workspace.registry.Seated document choice id := by
  have generated : workspace.Regenerates document (.ok id) → ∃ choice, workspace.registry.Seated document choice id := by
    intro regenerates
    cases regenerates with
    | seated _ _ _ seated _ => exact ⟨_, seated⟩
  cases steady with
  | alone _ _ regenerates => exact generated regenerates
  | own _ _ _ _ _ seated _ _ => exact ⟨_, seated⟩
  | declared _ _ _ _ _ _ _ _ seated _ => exact ⟨_, seated⟩
  | foreign _ _ _ _ _ _ _ _ regenerates => exact generated regenerates

private theorem resolve_idle (keyed : workspace.store.Keyed) {uri : Uri}
    (steady : workspace.Steady uri.normalize result) :
    ∃ after, workspace.resolve uri = (result, after) ∧ Idles workspace after := by
  obtain ⟨after, done, idles⟩ := choose_idle keyed steady
  refine ⟨after, ?_, idles⟩
  have resolves := resolve_cases workspace uri
  generalize workspace.resolve uri = outcome at resolves ⊢
  cases resolves with
  | failed error later chosen => exact chosen.symm.trans done
  | stayed id later chosen _ => exact chosen.symm.trans done
  | left id settled old chosen previous apart =>
    obtain ⟨rfl, rfl⟩ := Prod.mk.inj (done.symm.trans chosen)
    obtain ⟨choice, seated⟩ := steady.seated
    exact absurd (seated.previous old previous) apart

/-! ## The whole edit -/

private theorem idles_opened {uri : Uri} (normal : uri.normalize.normalize = uri.normalize) {text : String}
    {file : Document}
    (found : workspace.store.file? uri.normalize = some file) (content : file.content = some text)
    (active : file.active = true) : Idles workspace (workspace.opened uri text) := by
  have key : (workspace.acquire uri.normalize none).1 = uri.normalize := by
    rw [(acquire_spec workspace uri.normalize none).1, normal, normal]
  have acquired := @idles_acquire workspace uri.normalize (by rw [normal, normal, found]; rfl) none
  have kept : Idles (workspace.acquire uri.normalize none).2
      ((workspace.acquire uri.normalize none).2.modifyFile (workspace.acquire uri.normalize none).1
        fun file => (file.setActive true).setContent (some text)) := by
    have still : (workspace.acquire uri.normalize none).2.store.Still
        ((workspace.acquire uri.normalize none).2.store.modify (workspace.acquire uri.normalize none).1
          fun file => (file.setActive true).setContent (some text)) := by
      refine Store.still_modify fun later stored => ?_
      obtain ⟨document, met, named, content', active'⟩ := acquired.store.find found
      rw [key, met] at stored
      obtain rfl := Option.some.inj stored
      simp only [Document.bare, Document.setContent, Document.setActive, content', active', content, active]
    exact idles_of_store rfl still
  exact acquired.trans kept

/-- Whether an edit of a document finds all as it leaves it. -/
structure AtRest (workspace : Workspace) (document : Uri) (text : String) (result : Except WorkspaceError Nat) : Prop where
  open' : ∃ file, workspace.store.file? document = some file ∧ file.content = some text ∧ file.active = true
  steady : workspace.Steady document result
  engaged : ∀ id, result = .ok id → ∃ context, workspace.registry.get? id = some context ∧
    document ∈ context.tracked ∧ context.activated = true
  rests : ∀ id, result = .ok id → ∀ other context, workspace.registry.get? other = some context →
    context.concerns document → context.session.Rests workspace.store

/-- An edit that finds all as it leaves it gives the same result and changes nothing but what is counted and shown. -/
theorem edit_idle (sound : workspace.Sound) {uri : Uri} (normal : uri.normalize.normalize = uri.normalize)
    {language text : String} (analysed : isAnalysed language = true) (rest : workspace.AtRest uri.normalize text result) :
    (workspace.edit uri language text).1 = result.map (fun _ => ()) ∧
      Idles workspace (workspace.edit uri language text).2 := by
  obtain ⟨file, found, content, active⟩ := rest.open'
  have opened := idles_opened normal found content active
  have keyed := opened.store.keyed sound.keyed
  have steady := opened.steady sound.keyed rest.steady
  obtain ⟨settled, done, resolved⟩ := @resolve_idle _ _ keyed uri.normalize (normal.symm ▸ steady)
  have idles := opened.trans resolved
  rw [edit_of_analysed workspace uri text analysed, done]
  cases result with
  | error error => exact ⟨rfl, idles⟩
  | ok id =>
    refine ⟨rfl, idles.trans ?_⟩
    obtain ⟨context, stood, tracked, working⟩ := rest.engaged id rfl
    obtain ⟨processed, met⟩ := idles.find stood
    rw [normal, normal]
    refine idles_engage (idles.store.keyed sound.keyed) (idles.formed sound.formed) met tracked working
      fun other rival there concerns => ?_
    obtain ⟨former, was⟩ := idles.found there
    exact (rest.rests id rfl other _ was concerns).still idles.store

end Workspace

end SpecServer
