import SpecServer.Proofs.Workspace.OpenText
set_option autoImplicit false

/-!
Properties of contexts that outlast all that happens to a context. What tracking, loading and passes keep of each
context, every event of the editor keeps of all of them.
-/

namespace SpecServer

-- neither the model's parser nor the disk must be unfolded
attribute [local irreducible] Uri.normalize Store.load

/-- Whether a property of contexts outlasts all that happens to one, as long as the texts that are read meet a
condition. -/
structure Context.Endures (readable : Texts → Prop) (holds : Context → Prop) : Prop where
  track : ∀ {context} key, holds context → holds (context.track key)
  untrack : ∀ {context} key, holds context → holds (context.untrack key)
  activate : ∀ {context}, holds context → holds context.activate
  addInput : ∀ {context} uri, holds context → holds (context.addInput uri)
  loaded : ∀ {context texts view}, readable texts → context.session.viewIn texts = .ok view → holds context →
    holds (context.withView (some view))
  passed : ∀ {context texts view} seen, readable texts → context.session.viewIn texts = .ok view → holds context →
    holds { context.passed texts view with processed := seen }

def Session.founding (document configuration : Uri) : Session :=
  (Session.start configuration).addConfiguration (Workspace.generatedEntries document)

namespace Workspace

/-- Whether all contexts have a property. -/
def Everywhere (holds : Context → Prop) (workspace : Workspace) : Prop :=
  ∀ entry ∈ workspace.registry.contexts, holds entry.2

variable {holds : Context → Prop} {readable : Texts → Prop} {workspace before after : Workspace} {document : Uri}

theorem Everywhere.find (everywhere : Everywhere holds workspace) {id : Nat} {context : Context}
    (found : workspace.registry.get? id = some context) : holds context :=
  everywhere _ (Entries.mem_of_get? found)

theorem Everywhere.congr (everywhere : Everywhere holds before)
    (same : after.registry.contexts = before.registry.contexts) : Everywhere holds after :=
  fun entry member => everywhere entry (same ▸ member)

private theorem Everywhere.modify {registry : Registry} (everywhere : ∀ entry ∈ registry.contexts, holds entry.2)
    (id : Nat)
    {change : Context → Context} (keeps : ∀ context, holds context → holds (change context)) :
    ∀ entry ∈ (registry.modify id change).contexts, holds entry.2 := by
  intro entry member
  obtain ⟨former, stood, rfl⟩ := List.mem_map.mp member
  have held := everywhere former stood
  by_cases same : former.1 = id
  · rw [if_pos same]
    exact keeps _ held
  · rw [if_neg same]
    exact held

private theorem Everywhere.modifyContext (everywhere : Everywhere holds workspace) (id : Nat)
    {change : Context → Context}
    (keeps : ∀ context, holds context → holds (change context)) :
    Everywhere holds (workspace.modifyContext id change) :=
  Everywhere.modify everywhere id keeps

private theorem Everywhere.passive {dropped : Uri → Prop} (everywhere : Everywhere holds before)
    (passive : Passive dropped before after) : Everywhere holds after :=
  everywhere.congr (congrArg Registry.contexts passive.registry)

private theorem Everywhere.acquire (everywhere : Everywhere holds workspace) (uri : Uri) (content : Option String) :
    Everywhere holds (workspace.acquire uri content).2 :=
  everywhere.congr (congrArg Registry.contexts (acquire_spec workspace uri content).2.1)

private theorem Everywhere.prune (everywhere : Everywhere holds workspace) : Everywhere holds workspace.prune := by
  intro entry member
  rw [registry_prune] at member
  exact everywhere entry (List.mem_filter.mp member).1

/-! ## Passes -/

private theorem Everywhere.runPass (endures : Context.Endures readable holds) (keyed : workspace.store.Keyed)
    (reads : readable workspace.store.reading) (everywhere : Everywhere holds workspace) {id : Nat} {context : Context}
    (found : workspace.registry.get? id = some context) : Everywhere holds (workspace.runPass id context).2 := by
  have held := everywhere.find found
  have ended := runPass_spec keyed id context
  generalize workspace.runPass id context = outcome at ended ⊢
  obtain ⟨result, after⟩ := outcome
  have sets : ∀ {changed}, holds changed → after.registry = workspace.registry.set id changed →
      Everywhere holds after := by
    intro changed kept registry
    rw [Everywhere, registry]
    exact Everywhere.modify everywhere id fun _ _ => kept
  cases ended with
  | failed _ _ _ registry _ => exact sets held registry
  | done view _ loads registry _ _ => exact sets (endures.passed _ reads loads held) registry

theorem Everywhere.revalidateAll (endures : Context.Endures readable holds) (keyed : workspace.store.Keyed)
    (reads : readable workspace.store.reading) (everywhere : Everywhere holds workspace) (ids : List Nat) :
    Everywhere holds (workspace.revalidateAll ids) := by
  -- a pass reads documents, so the next one reads the same texts
  refine (revalidateAll_keeps
    (fun later => later.store.Keyed ∧ readable later.store.reading ∧ Everywhere holds later) ?_ (fun _ _ _ => id)
    ⟨keyed, reads, everywhere⟩ ids).2.2
  intro before id context found ⟨keyed, readable', everywhere⟩
  have after := (validates_runPass keyed id context).reads
  exact ⟨after.keyed, after.reading.symm ▸ readable', everywhere.runPass endures keyed readable' found⟩

theorem Everywhere.enlisted (endures : Context.Endures readable holds) (everywhere : Everywhere holds workspace)
    (id : Nat) (key : Uri) : Everywhere holds (workspace.enlisted id key) := by
  have tracks := everywhere.modifyContext id fun _ => endures.track key
  simp only [Workspace.enlisted]
  split
  · exact tracks
  · split
    · exact tracks
    · exact tracks.modifyContext id fun _ => endures.activate

/-! ## The search for a context -/

theorem Everywhere.release (endures : Context.Endures readable holds) (everywhere : Everywhere holds workspace)
    (previous : Nat) (document : Uri) (successor : Nat) :
    Everywhere holds (workspace.release previous document successor) := by
  have vacated : Everywhere holds (workspace.vacate previous document) := by
    simp only [vacate]
    split
    · exact everywhere
    · have freed := everywhere.modifyContext previous fun _ => endures.untrack document
      split <;> exact freed
  have disclaimed : Everywhere holds ((workspace.vacate previous document).disclaim previous document) := by
    simp only [disclaim]
    split <;> exact vacated
  have endorsed : Everywhere holds
      (((workspace.vacate previous document).disclaim previous document).endorse document successor) := by
    simp only [endorse]
    split
    · exact disclaimed
    · exact disclaimed.modifyContext successor fun _ => endures.track _
  rw [release_eq]
  exact Everywhere.prune endorsed

private theorem Everywhere.foldl_adoptInput (endures : Context.Endures readable holds)
    (everywhere : Everywhere holds workspace)
    (id : Nat) (inputs : List Uri) : Everywhere holds (inputs.foldl (adoptInput id) workspace) := by
  induction inputs generalizing workspace with
  | nil => exact everywhere
  | cons input rest ih =>
    have adopted : Everywhere holds (adoptInput id workspace input) :=
      (everywhere.acquire input none).modifyContext id fun _ held => endures.track _ (endures.addInput _ held)
    exact ih adopted

/-- Once the configuration is loaded, its context has the property for good. -/
theorem Everywhere.resolveReal (endures : Context.Endures readable holds) {configuration : Uri}
    (everywhere : Everywhere holds (workspace.candidate configuration).2)
    (fresh : ∀ context inputs, (workspace.candidate configuration).1 = .ok (.fresh context, inputs) → holds context) :
    Everywhere holds (workspace.resolveReal document configuration).2 := by
  simp only [Workspace.resolveReal]
  generalize workspace.candidate configuration = outcome at everywhere fresh ⊢
  obtain ⟨result, middle⟩ := outcome
  cases result with
  | error error => exact everywhere
  | ok found =>
    obtain ⟨candidate, inputs⟩ := found
    have kept : Everywhere holds (middle.retain candidate).2 := by
      cases candidate with
      | living id => exact everywhere
      | fresh context =>
        intro entry member
        rcases List.mem_append.mp member with stood | new
        · exact everywhere entry stood
        · rw [List.mem_singleton.mp new]
          exact fresh context inputs rfl
    simp only
    generalize middle.retain candidate = seated at kept ⊢
    obtain ⟨id, seated⟩ := seated
    split
    · exact kept.foldl_adoptInput endures id inputs
    · split
      · have indexed : Everywhere holds ((seated.index (.folder configuration.folder) id).index (.input document) id) :=
          kept.congr rfl
        exact (indexed.acquire configuration none).modifyContext id fun _ => endures.track _
      · exact everywhere

theorem Everywhere.resolveSynthesized (endures : Context.Endures readable holds) (keyed : workspace.store.Keyed)
    (everywhere : Everywhere holds workspace)
    (founds : ∀ configuration, holds (.start .synthesized (.founding document configuration)))
    (reads : ∀ configuration, document.generated = .ok configuration →
      readable ((workspace.store.acquire configuration.normalize (some (placeholder document))).modify
        configuration.normalize.normalize fun file => file.setActive true).reading) :
    Everywhere holds (workspace.resolveSynthesized document).2 := by
  simp only [Workspace.resolveSynthesized]
  cases generated : document.generated with
  | error error => exact everywhere
  | ok configuration =>
    simp only
    cases living : workspace.registry.lookup (.synthesized configuration) with
    | some id => exact (everywhere.acquire configuration none).modifyContext id fun _ => endures.track _
    | none =>
      obtain ⟨key, -, stored⟩ := acquire_spec workspace configuration (some (placeholder document))
      have reads := reads configuration generated
      have keyed' : ((workspace.acquire configuration (some (placeholder document))).2.modifyFile
          (workspace.acquire configuration (some (placeholder document))).1 fun file => file.setActive true).store.Keyed := by
        have opened := @turned_acquire_open (fun _ => True) (fun _ => True) workspace configuration
          (some (placeholder document)) trivial
        exact opened.1.store.keyed keyed
      simp only
      rw [← stored, ← key] at reads
      have opened : Everywhere holds ((workspace.acquire configuration (some (placeholder document))).2.modifyFile
          (workspace.acquire configuration (some (placeholder document))).1 fun file => file.setActive true) :=
        everywhere.acquire configuration (some (placeholder document))
      have readable' : readable ((workspace.acquire configuration (some (placeholder document))).2.modifyFile
          (workspace.acquire configuration (some (placeholder document))).1 fun file => file.setActive true).store.reading :=
        reads
      generalize (workspace.acquire configuration (some (placeholder document))).2.modifyFile _ _ = shown
        at keyed' opened readable' ⊢
      obtain ⟨store, -, loaded⟩ := loadView_replay keyed' (.start .synthesized (.founding document configuration))
      rw [show (Session.start configuration).addConfiguration (generatedEntries document) =
        .founding document configuration from rfl]
      simp only [loaded]
      cases loads : (Context.start .synthesized (.founding document configuration)).session.viewIn shown.store.reading with
      | error error => exact opened.congr rfl
      | ok view =>
        intro entry member
        rcases List.mem_append.mp member with stood | new
        · exact opened entry stood
        · rw [List.mem_singleton.mp new]
          exact endures.track _ (endures.loaded readable' loads (founds configuration))

private theorem Everywhere.candidate (endures : Context.Endures readable holds) (keyed : workspace.store.Keyed)
    (reads : readable workspace.store.reading) (everywhere : Everywhere holds workspace) {configuration : Uri}
    (founds : holds (.start .real (.start configuration))) :
    Everywhere holds (workspace.candidate configuration).2 ∧ ∀ context inputs,
      (workspace.candidate configuration).1 = .ok (.fresh context, inputs) → holds context := by
  simp only [Workspace.candidate]
  cases living : workspace.registry.lookup (.folder configuration.folder) with
  | none =>
    obtain ⟨store, -, loaded⟩ := loadView_replay keyed (.start .real (.start configuration))
    simp only [Option.bind_none, loaded]
    cases loads : (Context.start .real (.start configuration)).session.viewIn workspace.store.reading with
    | error error => exact ⟨everywhere, fun _ _ returned => by cases returned⟩
    | ok view =>
      refine ⟨everywhere, fun context inputs returned => ?_⟩
      cases returned
      exact endures.loaded reads loads founds
  | some id =>
    obtain ⟨-, context, found⟩ := Registry.lookup_eq_some_iff.mp living
    have held := everywhere.find found
    obtain ⟨store, -, loaded⟩ := loadView_replay keyed context
    simp only [Option.bind_some, found, Option.map_some, loaded]
    cases loads : context.session.viewIn workspace.store.reading with
    | error error =>
      exact ⟨Everywhere.modify everywhere id fun _ _ => held, fun _ _ returned => by cases returned⟩
    | ok view =>
      refine ⟨Everywhere.modify everywhere id fun _ _ => ?_, fun _ _ returned => by cases returned⟩
      exact endures.loaded reads loads held

private theorem Everywhere.resolve (endures : Context.Endures (fun _ => True) holds) (sound : workspace.Sound)
    (founds : ∀ kind session, session.definition = none → session.additions = [] ∨ kind = .synthesized →
      holds (.start kind session))
    (everywhere : Everywhere holds workspace) (uri : Uri) : Everywhere holds (workspace.resolve uri).2 := by
  have searched : Everywhere holds (workspace.choose uri.normalize).2 := by
    generalize uri.normalize = document
    have reads := Discovery.find_keeps workspace.store.source_repeats.keeps document.folder (.rfl sound.keyed)
    simp only [choose]
    generalize Discovery.find Store.source document.folder workspace.store = found at reads ⊢
    obtain ⟨detected, store⟩ := found
    have generates : ∀ {searched : Workspace}, Everywhere holds searched → searched.store.Keyed →
        Everywhere holds (searched.resolveSynthesized document).2 := fun held keyed =>
      held.resolveSynthesized endures keyed (fun _ => founds _ _ rfl (.inr rfl)) fun _ _ => trivial
    have read : Everywhere holds { workspace with store := store } := everywhere.congr rfl
    cases detected with
    | error error => exact read
    | ok configuration? =>
      cases configuration? with
      | none => exact generates read reads.keyed
      | some configuration =>
        have told : Everywhere holds (({ workspace with store := store } : Workspace).log .debug
            ("Configuration File Selected: " ++ configuration.render)) := read.congr rfl
        have sound' : (({ workspace with store := store } : Workspace).log .debug
            ("Configuration File Selected: " ++ configuration.render)).Sound := ⟨sound.formed, reads.keyed⟩
        obtain ⟨loaded, fresh⟩ := told.candidate endures sound'.keyed trivial
          (founds .real (.start configuration) rfl (.inl rfl))
        have governed := @Everywhere.resolveReal holds _ _ document endures configuration loaded fresh
        have keyed := (@turned_resolveReal (fun _ => True) (fun _ => True) _ sound' document configuration).store.keyed
          sound'.keyed
        simp only
        generalize Workspace.resolveReal _ document configuration = outcome at governed keyed ⊢
        obtain ⟨result, after⟩ := outcome
        cases result with
        | error error => exact governed
        | ok id? =>
          cases id? with
          | some id => exact governed
          | none => exact generates governed keyed
  have resolves := resolve_cases workspace uri
  generalize workspace.resolve uri = outcome at resolves ⊢
  cases resolves with
  | failed error after chosen => rwa [chosen] at searched
  | stayed id after chosen _ => rwa [chosen] at searched
  | left id settled old chosen _ _ =>
    rw [chosen] at searched
    exact searched.release endures old _ id

/-! ## All events -/

private theorem Everywhere.edit (endures : Context.Endures (fun _ => True) holds) (sound : workspace.Sound)
    (founds : ∀ kind session, session.definition = none → session.additions = [] ∨ kind = .synthesized →
      holds (.start kind session))
    (everywhere : Everywhere holds workspace) (uri : Uri) (language text : String) :
    Everywhere holds (workspace.edit uri language text).2 := by
  have opened : Everywhere holds (workspace.opened uri text) :=
    everywhere.congr (congrArg Registry.contexts (opened_spec workspace uri text).1)
  have searched := opened.resolve endures (sound_opened sound uri text) founds uri.normalize
  have turned := @turned_search (fun _ => True) (fun _ => True) workspace sound uri text fun _ _ => trivial
  have keyed := turned.store.keyed (sound_opened sound uri text).keyed
  have edits := edit_cases workspace uri language text
  generalize workspace.edit uri language text = outcome at edits ⊢
  cases edits with
  | unknown => exact everywhere
  | replaced => exact everywhere.congr rfl
  | failed error after _ resolved => rwa [resolved] at searched
  | engaged id settled _ resolved =>
    rw [resolved] at searched keyed
    rw [engage_eq]
    exact (searched.enlisted endures id _).revalidateAll endures (by rwa [store_enlisted]) trivial _

private theorem Everywhere.untrackAndHide (endures : Context.Endures readable holds)
    (everywhere : Everywhere holds workspace)
    (id : Nat) (key : Uri) : Everywhere holds (workspace.untrackAndHide id key) :=
  (everywhere.modifyContext id fun _ => endures.untrack key).congr rfl

private theorem Everywhere.foldl_dropInput (endures : Context.Endures readable holds)
    (everywhere : Everywhere holds workspace)
    (id : Nat) (inputs : List Uri) : Everywhere holds (inputs.foldl (dropInput id) workspace) :=
  foldl_dropInput_keeps (Everywhere holds) (fun _ _ kept => kept.congr rfl)
    (fun _ id key kept => kept.untrackAndHide endures id key) everywhere id inputs

private theorem Everywhere.depart (endures : Context.Endures readable holds) (everywhere : Everywhere holds workspace)
    (id : Nat) (context : Context) (document key : Uri) : Everywhere holds (workspace.depart id context document key) :=
  depart_keeps (Everywhere holds) (fun _ _ kept => kept.congr rfl)
    (fun _ id key kept => kept.untrackAndHide endures id key) everywhere id context document key

private theorem Everywhere.close (endures : Context.Endures readable holds) (everywhere : Everywhere holds workspace)
    (uri : Uri) : Everywhere holds (workspace.close uri) := by
  have closes := close_cases workspace uri
  generalize workspace.close uri = outcome at closes ⊢
  cases closes with
  | unknown => exact everywhere
  | unowned => exact everywhere.congr rfl
  | gone => exact everywhere
  | owned file id owner _ _ _ =>
    refine Everywhere.prune (Everywhere.depart endures (.congr ?_ rfl) id owner _ _)
    split
    · exact everywhere.foldl_dropInput endures id owner.inputs
    · exact everywhere

private theorem Everywhere.writeShadow (everywhere : Everywhere holds workspace) (path : List UInt8)
    (content : String) :
    Everywhere holds (workspace.writeShadow path content).2 := by
  simp only [Workspace.writeShadow]
  split <;> exact everywhere

private theorem Everywhere.changedOnDisk (endures : Context.Endures (fun _ => True) holds) (sound : workspace.Sound)
    (everywhere : Everywhere holds workspace) (uris : List Uri) : Everywhere holds (workspace.changedOnDisk uris) := by
  have asked := asked_noteChanges [] workspace uris
  have noted : Everywhere holds (noteChanges [] workspace uris).2 := everywhere.passive asked.toPassive
  have keyed := asked.alike.keyed sound.keyed
  exact noted.revalidateAll endures keyed trivial _

private theorem Everywhere.save (endures : Context.Endures (fun _ => True) holds) (sound : workspace.Sound)
    (founds : ∀ kind session, session.definition = none → session.additions = [] ∨ kind = .synthesized →
      holds (.start kind session))
    (everywhere : Everywhere holds workspace) (uri : Uri) (text : String) :
    Everywhere holds (workspace.save uri text).2 := by
  have searched := everywhere.resolve endures sound founds uri.normalize
  have saves := save_cases workspace uri text
  generalize workspace.save uri text = outcome at saves ⊢
  cases saves with
  | ignored => exact everywhere
  | failed error after resolved => rwa [resolved] at searched
  | kept id settled resolved => rwa [resolved] at searched
  | written id settled path content resolved =>
    rw [resolved] at searched
    exact searched.writeShadow path content

/-- What outlasts all that happens to a context, and holds at its start, holds of every context that is reached. -/
theorem everywhere_reached (endures : Context.Endures (fun _ => True) holds)
    (founds : ∀ kind session, session.definition = none → session.additions = [] ∨ kind = .synthesized →
      holds (.start kind session))
    (disk : Disk) (events : List Event) : Everywhere holds (reached disk events) := by
  suffices kept : ∀ workspace : Workspace, workspace.Sound → Everywhere holds workspace →
      Everywhere holds (workspace.run events) from kept _ (sound_start disk) fun _ member => nomatch member
  induction events with
  | nil => exact fun _ _ everywhere => everywhere
  | cons event rest ih =>
    intro workspace sound everywhere
    refine ih _ (sound.stepped (step_spec sound event)) ?_
    cases event with
    | edit uri language text => exact everywhere.edit endures sound founds uri language text
    | close uri => exact everywhere.close endures uri
    | changedOnDisk uris => exact everywhere.changedOnDisk endures sound uris
    | save uri text => exact everywhere.save endures sound founds uri text
    | configure payload => exact everywhere.passive (passive_configure workspace payload)
    | setRoot text => exact everywhere.passive (passive_setRoot workspace text)
    | hover uri position => exact everywhere.passive (asked_hover workspace uri position).toPassive
    | definitions uri position => exact everywhere.passive (asked_definitions workspace uri position).toPassive
    | definition uri => exact everywhere.passive (asked_definition? workspace uri).toPassive
    | take => exact everywhere
    | replaceDisk disk => exact everywhere

end Workspace

/-- Whether the session of a context is about its configuration, with nothing added to it unless it was generated. -/
structure Context.Plain (context : Context) : Prop where
  configuration : context.session.configuration = context.configuration
  additions : context.kind = .real → context.session.additions = []

theorem Context.endures_plain (readable : Texts → Prop) : Context.Endures readable Context.Plain where
  track := by
    intro context key plain
    simp only [track]
    split <;> exact ⟨plain.configuration, plain.additions⟩
  untrack _ plain := ⟨plain.configuration, plain.additions⟩
  activate plain := ⟨plain.configuration, plain.additions⟩
  addInput := by
    intro context uri plain
    simp only [addInput, Session.addInput]
    split <;> exact ⟨plain.configuration, plain.additions⟩
  loaded _ _ plain := ⟨plain.configuration, plain.additions⟩
  passed _ _ _ plain := ⟨plain.configuration, plain.additions⟩

theorem Workspace.plain_reached (disk : Disk) (events : List Event) :
    Everywhere Context.Plain (reached disk events) :=
  everywhere_reached (Context.endures_plain _)
    (fun _ _ _ bare => ⟨rfl, fun real => bare.resolve_right fun generated => nomatch real.symm.trans generated⟩) disk events

end SpecServer
