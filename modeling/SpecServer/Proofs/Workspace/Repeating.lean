import SpecServer.Proofs.Workspace.Steadying
set_option autoImplicit false

/-!
Edits that are made again. The first edit leaves its document with a seat and with contexts that have read all they
need, so the second one finds everything in place, unless the first one took a key away that led elsewhere already.
-/

namespace SpecServer

-- neither the model's parser nor the disk must be unfolded
attribute [local irreducible] Uri.normalize Store.load

namespace Workspace

variable {workspace before after : Workspace} {document : Uri} {id : Nat} {detected : Except EngineError (Option Uri)}

/-! ## The passes of an edit -/

/-- A context that a pass went over would read nothing new in another one, and what it has to read is kept. -/
theorem Reruns.rests {ready prior : Workspace} {ids : List Nat} {context former : Context}
    (reruns : Reruns ready ids id context prior former) (sound : ready.Sound) (distinct : ids.Nodup)
    (found : (ready.revalidateAll ids).registry.get? id = some context) :
    context.session.Rests (ready.revalidateAll ids).store ∧
      ∀ view, context.session.viewIn (ready.revalidateAll ids).store.reading = .ok view →
        ∀ uri ∈ context.session.configuration :: context.session.inputsOf view,
          (ready.revalidateAll ids).store.Cached uri := by
  obtain ⟨front, rest, rfl, rfl, after⟩ := reruns.among
  have keyed : (ready.revalidateAll front).store.Keyed := (validates_revalidateAll sound.keyed front).reads.keyed
  have formed := (alike_revalidateAll sound.formed front).formed sound.formed
  generalize ready.revalidateAll front = prior at reruns keyed formed after
  have fresh : id ∉ rest := (List.nodup_cons.mp (List.nodup_append.mp distinct).2.1).1
  -- the passes that follow change nothing of the context
  have passed : (prior.validated id).store = (prior.runPass id former).2.store := by
    simp only [validated, reruns.ran]
    split <;> rename_i same <;> rw [same]
    rfl
  have now := validates_validated keyed id
  have later := validates_revalidateAll now.reads.keyed rest
  have formed' : (prior.validated id).registry.WellFormed := by
    rw [registry_validated]
    exact (alike_revalidate formed id).formed formed
  have status := (alike_revalidateAll formed' rest).status
  rw [after] at found ⊢
  rw [later.others id fresh, registry_validated, reruns.ran] at found
  have kept : ∀ {uri}, (prior.runPass id former).2.store.Cached uri →
      ((prior.validated id).revalidateAll rest).store.Cached uri :=
    fun cached => later.reads.cached status (passed.symm ▸ cached)
  have reading : ((prior.validated id).revalidateAll rest).store.reading = prior.store.reading :=
    later.reads.reading.trans now.reads.reading
  obtain ⟨cleared, clears, publishes⟩ := retains_runPass prior id former
  have reads : ∀ {session : Session} {still : Store}, Session.SameTask former.session session →
      ((prior.validated id).revalidateAll rest).store.Still still → (session.process Store.source still).2.2 = still := by
    intro session still task same
    refine @Store.process_again cleared still former.session session task (clears.keyed keyed)
      (same.keyed later.reads.keyed) ?_ fun uri cached => same.cached (kept (publishes.cached cached))
    rw [same.reading, reading, clears.reading]
  have ended := runPass_spec keyed id former
  generalize (prior.runPass id former).1 = result at ended
  have stays : ∀ {changed : Context}, (prior.runPass id former).2.registry = prior.registry.set id changed →
      context = changed := by
    intro changed registry
    rw [registry, Registry.set, Registry.get?_modify, if_pos rfl, reruns.found, Option.map_some] at found
    exact (Option.some.inj found).symm
  cases ended with
  | failed error _ loads registry _ =>
    obtain rfl := stays registry
    refine ⟨fun still same => Prod.ext ?_ (reads ⟨rfl, rfl, rfl⟩ same), fun view loads' => ?_⟩
    · obtain ⟨store, -, processed⟩ :=
        Session.process_replay still.source_repeats context.session (.rfl (same.keyed later.reads.keyed))
      rw [processed, same.reading, reading, loads]
    · rw [reading, loads] at loads'
      cases loads'
  | done view _ loads registry _ cached =>
    obtain rfl := stays registry
    have task : Session.SameTask former.session (former.passed prior.store.reading view).session := ⟨rfl, rfl, rfl⟩
    have loads' : (former.passed prior.store.reading view).session.viewIn prior.store.reading = .ok view :=
      (Session.viewIn_eq task.configuration task.additions _).trans loads
    refine ⟨fun still same => Prod.ext ?_ (reads task same), fun other loaded uri member => kept (cached uri ?_)⟩
    · obtain ⟨store, -, processed⟩ := Session.process_replay still.source_repeats
        (former.passed prior.store.reading view).session (.rfl (same.keyed later.reads.keyed))
      simp only
      rw [processed, same.reading, reading, loads']
      rfl
    · simp only [reading] at loaded member
      obtain rfl : view = other := Except.ok.inj (loads'.symm.trans loaded)
      exact member

/-! ## An edit up to its passes -/

private theorem retains_release (workspace : Workspace) (previous : Nat) (document : Uri) (successor : Nat) :
    workspace.store.Retains (workspace.release previous document successor).store := by
  have endorsed : (((workspace.vacate previous document).disclaim previous document).endorse document successor).store =
      workspace.store := by
    have kept := (disclaim_spec (workspace.vacate previous document) previous document).2.trans
      (vacate_spec workspace previous document).2
    simp only [endorse]
    split <;> exact kept
  rw [release_eq]
  generalize ((workspace.vacate previous document).disclaim previous document).endorse document successor = moved
    at endorsed ⊢
  rw [← endorsed]
  exact retains_prune (moved.log .debug ("Moved " ++ document.render ++ " to another context"))

/-- The end of a search for a context: the one that the document belonged to before lets go of it. -/
def moved (workspace : Workspace) (previous : Option Nat) (document : Uri) (id : Nat) : Workspace :=
  match previous with
  | none => workspace
  | some old => if old = id then workspace else workspace.release old document id

private theorem retains_moved (workspace : Workspace) (previous : Option Nat) (document : Uri) (id : Nat) :
    workspace.store.Retains (workspace.moved previous document id).store := by
  simp only [moved]
  split
  · exact .rfl
  · split
    · exact .rfl
    · exact retains_release workspace _ document id

private theorem Everywhere.moved {holds : Context → Prop} {readable : Texts → Prop}
    (endures : Context.Endures readable holds)
    (everywhere : Everywhere holds workspace) (previous : Option Nat) (document : Uri) (id : Nat) :
    Everywhere holds (workspace.moved previous document id) := by
  simp only [Workspace.moved]
  split
  · exact everywhere
  · split
    · exact everywhere
    · exact everywhere.release endures _ document id

private theorem resolve_eq (workspace : Workspace) (uri : Uri) :
    workspace.resolve uri =
      match workspace.choose uri.normalize with
      | (.error error, after) => (.error error, after)
      | (.ok id, after) =>
        (.ok id, after.moved (workspace.registry.lookup (.input uri.normalize)) uri.normalize id) := by
  have resolves := resolve_cases workspace uri
  generalize workspace.resolve uri = outcome at resolves ⊢
  cases resolves with
  | failed error after chosen => rw [chosen]
  | stayed id after chosen previous =>
    rw [chosen]
    cases leads : workspace.registry.lookup (.input uri.normalize) with
    | none => rfl
    | some old => simp only [Workspace.moved, previous old leads, ↓reduceIte]
  | left id settled old chosen previous apart =>
    rw [chosen]
    simp only [Workspace.moved, previous, if_neg apart]

/-! ## The first edit -/

/-- Whether an edit leads to a state in which it can be made again without a change. -/
structure Settling (workspace : Workspace) (uri : Uri) (language text : String) : Prop where
  /-- The document is known under a stable URI. -/
  normal : uri.normalize.normalize = uri.normalize
  /-- So are the places where its configuration may be, and they are not taken by one that is generated for it. -/
  apart : Apart uri.normalize
  /-- No other configuration drives the folder of the one that is found. -/
  unrivalled : ∀ configuration,
    (Discovery.find Store.source uri.normalize.folder (workspace.opened uri text).store).1 = .ok (some configuration) →
      workspace.Unrivalled configuration
  /-- If the document belonged to a generated context, that one had its key. -/
  keyed : ∀ old configuration, workspace.registry.lookup (.input uri.normalize) = some old →
    workspace.registry.Sits old .synthesized configuration →
      workspace.registry.lookup (.synthesized configuration) = some old
  /-- The contexts of the document as a configuration track it or declare it. -/
  noted : ∀ id context, (workspace.edit uri language text).2.registry.get? id = some context →
    context.activated = true → context.configuration = uri.normalize →
      uri.normalize ∈ context.tracked ∨ uri.normalize ∈ context.inputs

private theorem seated_outline {registry : Registry} {choice : Choice} :
    registry.outline.Seated document choice id ↔ registry.Seated document choice id := by
  have claims : choice.claims registry.outline document = choice.claims registry document := by
    cases choice with
    | own inputs => rfl
    | declared configuration => rfl
    | generated configuration => simp only [Choice.claims, Registry.lookup_outline]
  constructor
  · rintro ⟨seat, taken, claimed, own, previous⟩
    simp only [Registry.lookup_outline, Registry.tracks_outline, Registry.target?_outline, claims]
      at seat taken claimed own previous
    exact ⟨seat, taken, claimed, own, previous⟩
  · rintro ⟨seat, taken, claimed, own, previous⟩
    refine ⟨?_, ?_, ?_, ?_, ?_⟩ <;>
      simp only [Registry.lookup_outline, Registry.tracks_outline, Registry.target?_outline, claims] <;> assumption

private theorem seated_edited {choice : Choice} (coherent : before.registry.outline.Coherent)
    (normal : document.normalize = document)
    (edited : Edited before document true (some choice) (.ok ()) after)
    (seat : (before.registry.outline.settle document choice).1 = id)
    (keyed : ∀ old configuration, before.registry.lookup (.input document) = some old →
      before.registry.Sits old .synthesized configuration →
        before.registry.lookup (.synthesized configuration) = some old) : after.registry.Seated document choice id := by
  have claimed : ∀ {old}, before.registry.lookup (.input document) = some old ↔
      before.registry.outline.target? (.input document) = some old := by
    intro old
    rw [← coherent.lookup, Registry.lookup_outline]
  rw [← seated_outline]
  cases edited with
  | ignored _ unanalysed _ => cases unanalysed
  | stayed _ number settled _ _ chosen settles previous outline _ _ =>
    cases chosen
    rw [settles] at seat
    obtain rfl := seat
    have settling := Registry.settled_of_settle coherent.formed settles
    rw [outline, normal]
    exact settling.seated_stayed coherent fun old target => previous old (claimed.mpr target)
  | left _ number settled old _ _ chosen settles previous apart outline _ active =>
    cases chosen
    rw [settles] at seat
    obtain rfl := seat
    have settling := Registry.settled_of_settle coherent.formed settles
    rw [normal] at outline active
    rw [outline]
    refine settling.seated_moved coherent (claimed.mp previous) apart (fun configuration sits => ?_) active
    rw [Registry.lookup_outline]
    exact keyed old configuration previous (Registry.sits_outline.mp sits)

def sought (workspace : Workspace) (uri : Uri) (text : String) : Workspace :=
  (workspace.opened uri text).searched uri.normalize

private theorem sought_sought (sound : workspace.Sound) (coherent : workspace.registry.outline.Coherent)
    (plain : Everywhere Context.Plain workspace) {uri : Uri} {language text : String}
    (settling : workspace.Settling uri language text) :
    (workspace.sought uri text).Sought uri.normalize
      (Discovery.find Store.source uri.normalize.folder (workspace.opened uri text).store).1 := by
  have registry : (workspace.sought uri text).registry = workspace.registry := (opened_spec workspace uri text).1
  have sound' := sound_opened sound uri text
  have reads := reads_searched sound'.keyed uri.normalize
  have met := fun configuration => @Discovery.find_found _ Store.source _ configuration
    (workspace.opened uri text).store.source_repeats.keeps uri.normalize.folder _ (.rfl sound'.keyed)
  have plain' := plain.congr (congrArg Registry.contexts registry)
  refine ⟨⟨registry ▸ sound.formed, reads.keyed⟩, registry ▸ coherent, plain', settling.apart,
    find_searched sound'.keyed uri.normalize,
    fun configuration found => (met configuration found).1, fun configuration found => ?_, fun configuration found => ?_⟩
  · obtain ⟨-, store, reads, last⟩ := met configuration found
    have cached := Store.cached_read reads.keyed configuration
    have same : (workspace.sought uri text).store = (store.read configuration).2 := last
    rwa [same]
  · have unrivalled := settling.unrivalled configuration found
    rwa [Unrivalled, ← registry] at unrivalled

/-- An edit as far as it depends on the search, which may be made when its documents are read already. -/
theorem edit_eq (sound : workspace.Sound) {uri : Uri} (normal : uri.normalize.normalize = uri.normalize)
    {language : String} (text : String) (analysed : isAnalysed language = true) :
    workspace.edit uri language text =
      match (workspace.sought uri text).choose uri.normalize with
      | (.error error, after) => (.error error, after)
      | (.ok id, after) =>
        (.ok (), (after.moved (workspace.registry.lookup (.input uri.normalize)) uri.normalize id).engage id uri.normalize
          uri.normalize) := by
  have registry := (opened_spec workspace uri text).1
  rw [edit_of_analysed workspace uri text analysed, sought, choose_searched (sound_opened sound uri text).keyed, resolve_eq,
    normal, normal, registry]
  generalize (workspace.opened uri text).choose uri.normalize = outcome
  obtain ⟨result, after⟩ := outcome
  cases result <;> rfl

private theorem open_edited {uri : Uri} {text : String} (normal : uri.normalize.normalize = uri.normalize)
    (ages : Store.Elapses (fun _ => True) (fun _ => False) (workspace.opened uri text).store after.store)
    (active : after.store.isActive uri.normalize) :
    ∃ file, after.store.file? uri.normalize = some file ∧ file.content = some text ∧ file.active = true := by
  obtain ⟨document, found, content⟩ := content_opened workspace uri text
  rw [normal, normal] at found
  obtain ⟨later, stored, aged⟩ := ages.documents _ document found
  rw [Store.isActive, stored, Option.any_some] at active
  exact ⟨later, stored, aged.lasting not_false text content, active⟩

/-- What an edit validates for its document. -/
structure Validated (workspace ready after : Workspace) (uri : Uri) (text : String) (id : Nat) : Prop where
  sound : ready.Sound
  turned : Turned (fun _ => True) (fun _ => False) (workspace.opened uri text) ready
  validated : after = ready.revalidateAll (ready.affected id uri.normalize)

private theorem Validated.rests {ready : Workspace} {uri : Uri} {text : String} {other : Nat} {context : Context}
    (validated : Validated workspace ready after uri text id) (normal : uri.normalize.normalize = uri.normalize)
    (accounted : Accounted (fun _ => True) (fun _ => True) workspace) (found : after.registry.get? other = some context)
    (working : context.activated = true) (noted : uri.normalize ∈ context.tracked ∨ uri.normalize ∈ context.inputs) :
    context.session.Rests after.store ∧ ∀ view, context.session.viewIn after.store.reading = .ok view →
      ∀ uri ∈ context.session.configuration :: context.session.inputsOf view, after.store.Cached uri := by
  obtain ⟨sound, turned, rfl⟩ := validated
  obtain ⟨prior, former, reruns, -⟩ := reruns_engage normal accounted sound turned found working noted
  exact reruns.rests sound (nodup_affected sound.formed id uri.normalize) found

/-- An edit before its passes: the document has moved to its context. -/
def ready (workspace : Workspace) (previous : Option Nat) (document : Uri) (id : Nat) : Workspace :=
  (workspace.moved previous document id).enlisted id document

private theorem Everywhere.ready {holds : Context → Prop} {readable : Texts → Prop}
    (endures : Context.Endures readable holds)
    (everywhere : Everywhere holds workspace) (previous : Option Nat) (document : Uri) (id : Nat) :
    Everywhere holds (workspace.ready previous document id) :=
  (everywhere.moved endures previous document id).enlisted endures id document

private theorem retains_ready (workspace : Workspace) (previous : Option Nat) (document : Uri) (id : Nat) :
    workspace.store.Retains (workspace.ready previous document id).store := by
  rw [ready, store_enlisted]
  exact retains_moved workspace previous document id

private theorem Carries.retained {middle : Workspace} (carries : Carries before middle document)
    (retains : middle.store.Retains after.store) : Carries before after document :=
  ⟨carries.takes.trans (Store.takes_of_still retains.still), carries.ages.trans retains.elapses⟩

private theorem Carries.validated {middle : Workspace} (carries : Carries before middle document) (sound : middle.Sound)
    (ids : List Nat) : Carries before (middle.revalidateAll ids) document := by
  have reads := (validates_revalidateAll sound.keyed ids).reads
  exact ⟨carries.takes.trans (reads.takes (alike_revalidateAll sound.formed ids).status),
    carries.ages.trans (reads.elapses _ _)⟩

private theorem validated_edited (sound : workspace.Sound) {uri : Uri}
    (normal : uri.normalize.normalize = uri.normalize)
    {text : String} (outcome : (workspace.sought uri text).choose uri.normalize = (.ok id, after)) :
    (after.moved (workspace.registry.lookup (.input uri.normalize)) uri.normalize id).Sound ∧
    Validated workspace (after.ready (workspace.registry.lookup (.input uri.normalize)) uri.normalize id)
      ((after.moved (workspace.registry.lookup (.input uri.normalize)) uri.normalize id).engage id uri.normalize
        uri.normalize) uri text id := by
  have opened := sound_opened sound uri text
  have resolved : (workspace.opened uri text).resolve uri.normalize =
      (.ok id, after.moved (workspace.registry.lookup (.input uri.normalize)) uri.normalize id) := by
    rw [sought, choose_searched opened.keyed] at outcome
    rw [resolve_eq, normal, outcome, (opened_spec workspace uri text).1]
  have settled := resolve_spec opened.formed opened.keyed uri.normalize
  have turned : Turned (fun _ => True) (fun _ => False) _ _ := turned_ready sound uri text (fun _ _ => trivial) resolved
  rw [resolved] at settled
  rw [normal, normal] at turned
  exact ⟨opened.resolved settled, ⟨formed_enlisted (opened.resolved settled).formed id uri.normalize,
    turned.store.keyed opened.keyed⟩, turned, engage_eq _ id uri.normalize uri.normalize⟩

/-- What a search that gave a context made of all contexts is so after the passes. -/
theorem Everywhere.validated {holds : Context → Prop} {readable : Texts → Prop} (endures : Context.Endures readable holds)
    {middle ready : Workspace} {uri : Uri} {text : String} (validated : Validated workspace ready after uri text id)
    (readies : middle.ready (workspace.registry.lookup (.input uri.normalize)) uri.normalize id = ready)
    (everywhere : Everywhere holds middle) (reads : readable ready.store.reading) : Everywhere holds after := by
  obtain ⟨sound, -, rfl⟩ := validated
  subst readies
  exact (everywhere.ready endures _ uri.normalize id).revalidateAll endures sound.keyed reads _

/-- After an edit that failed, all is as an edit with the same text would leave it. -/
theorem atRest_failed {uri : Uri} {text : String} (sound : workspace.Sound)
    (normal : uri.normalize.normalize = uri.normalize) (sought : (workspace.sought uri text).Sought uri.normalize detected)
    {error : WorkspaceError} (failed : (workspace.sought uri text).choose uri.normalize = (.error error, after)) :
    after.AtRest uri.normalize text (.error error) := by
  have opened := sound_opened sound uri text
  have begun := (reads_searched opened.keyed uri.normalize).elapses (fun _ => True) (fun _ => False)
  have carries := carries_choose sought.sound uri.normalize
  have grown := choose_spec sought.sound.formed uri.normalize
  rw [failed] at carries grown
  have active : after.store.isActive uri.normalize := by
    have active := (opened_spec workspace uri text).2.2
    rw [normal, normal, ← Store.isActive_congr (status?_searched (workspace.opened uri text) uri.normalize)] at active
    cases grown with
    | failed _ _ _ grows => exact grows.active _ active
  exact ⟨open_edited normal (begun.trans carries.ages) active, sought.steady_failed failed, fun _ => (nomatch ·),
    fun _ => (nomatch ·)⟩

/-- After an edit that gave the document a context, all is as an edit with the same text would leave it. -/
theorem atRest_settled {middle : Workspace} {uri : Uri} {language text : String} (sound : workspace.Sound)
    (coherent : workspace.registry.outline.Coherent) (plain : Everywhere Context.Plain workspace)
    (accounted : Accounted (fun _ => True) (fun _ => True) workspace) (analysed : isAnalysed language = true)
    (settling : workspace.Settling uri language text)
    (outcome : (workspace.sought uri text).choose uri.normalize = (.ok id, middle))
    (done : (workspace.edit uri language text).2 = after) (coherent' : after.registry.outline.Coherent)
    (accounted' : Accounted (fun _ => True) (fun _ => True) after) : after.AtRest uri.normalize text (.ok id) := by
  have normal := settling.normal
  have sought := sought_sought sound coherent plain settling
  have edited := edit_spec sound.formed sound.keyed uri language text
  have noted := settling.noted
  obtain ⟨settled, validated⟩ := validated_edited sound normal outcome
  have outcome' := choose_spec sought.sound.formed uri.normalize
  have carries := carries_choose sought.sound uri.normalize
  rw [done] at noted
  rw [edit_eq sound normal text analysed, outcome] at edited done
  simp only at edited done
  rw [outcome] at outcome' carries
  rw [done] at edited validated
  have ready := carries.retained (retains_ready middle (workspace.registry.lookup (.input uri.normalize)) uri.normalize id)
  have carries' : Carries (workspace.sought uri text) after uri.normalize :=
    validated.validated ▸ ready.validated validated.sound _
  have registry : (workspace.sought uri text).registry = workspace.registry := (opened_spec workspace uri text).1
  cases outcome' with
  | settled choice _ _ chosen moved _ =>
    rw [registry] at moved
    rw [normal, analysed, ← choice?_searched (sound_opened sound uri text).keyed] at edited
    have same : ((workspace.opened uri text).searched uri.normalize).choice? uri.normalize = some choice := chosen
    rw [same] at edited
    have seated : after.registry.Seated uri.normalize choice id :=
      seated_edited coherent normal edited (by rw [moved]) settling.keyed
    -- the context of the document is at work
    obtain ⟨context, found, tracks⟩ := seated.own
    have working : context.activated = true := by
      have lives : after.registry.Lives id := ⟨context, found⟩
      rw [← done, ← Registry.lives_outline, (engage_spec settled.formed id uri.normalize uri.normalize).1, Registry.hold,
        Registry.lives_modify, Registry.lives_outline] at lives
      obtain ⟨other, met, working⟩ := atWork_engage lives uri.normalize uri.normalize
      rw [done, found] at met
      exact Option.some.inj met ▸ working
    have rests := fun (other : Nat) (rival : Context) => @Validated.rests workspace after id _ uri text other rival validated
      normal accounted
    have provided : after.Provided id := by
      refine ⟨fun key tracked => ?_, fun other met => ?_⟩
      · obtain ⟨other, met, member⟩ := tracked
        exact (accounted'.contexts id other met).known key member
      · obtain rfl := Option.some.inj (found.symm.trans met)
        exact (rests id context found working (.inl tracks)).2
    have active : after.store.isActive uri.normalize := by
      cases edited with
      | ignored _ unanalysed _ => cases unanalysed
      | stayed _ _ _ _ _ _ _ _ _ _ active => rwa [normal] at active
      | left _ _ _ _ _ _ _ _ _ _ _ _ active => rwa [normal] at active
    have steady : after.Steady uri.normalize (.ok id) := by
      generalize detection : (Discovery.find Store.source uri.normalize.folder (workspace.opened uri text).store).1 = detected
        at sought
      refine sought.steady_settled (by rw [outcome]) chosen carries' coherent' seated provided
        (fun configuration same => ?_) fun view same loads => ?_
      · subst same
        have tuned := sought.tuned
        rw [outcome] at tuned
        exact tuned.validated (Context.endures_tuned _ configuration) validated rfl
          (ready.reading settling.apart (sought.place configuration rfl))
      · subst same
        have told := told_choose sought.sound sought.coherent sought.plain (sought.unrivalled _ rfl) sought.found loads
        rw [outcome] at told
        exact told.validated (Context.endures_told _ view.inputs) validated rfl trivial
    have begun := reads_searched (sound_opened sound uri text).keyed uri.normalize
    refine ⟨open_edited normal ((begun.elapses _ _).trans carries'.ages) active, steady, fun other same => ?_,
      fun _ _ other rival met concerns => ?_⟩
    · cases same
      exact ⟨context, found, tracks, working⟩
    · simp only [Context.concerns, Bool.and_eq_true, Bool.or_eq_true, Context.isTracking, List.contains_iff_mem,
        beq_iff_eq] at concerns
      obtain ⟨busy, (tracked | own) | declared⟩ := concerns
      · exact (rests other rival met busy (.inl tracked)).1
      · exact (rests other rival met busy (noted other rival met busy own)).1
      · exact (rests other rival met busy (.inr declared)).1

/-- After an edit that settles, all is as an edit with the same text would leave it. -/
theorem atRest_edited (disk : Disk) (events : List Event) {uri : Uri} {language text : String}
    (analysed : isAnalysed language = true) (settling : (reached disk events).Settling uri language text) :
    ((reached disk events).edit uri language text).2.AtRest uri.normalize text
      (((reached disk events).sought uri text).choose uri.normalize).1 := by
  have sound := sound_reached disk events
  have coherent := coherent_reached disk events
  have plain := plain_reached disk events
  have coherent' := coherent_reached disk (events ++ [.edit uri language text])
  have accounted' := accounted_reached disk (events ++ [.edit uri language text])
  rw [show reached disk (events ++ [.edit uri language text]) = ((reached disk events).edit uri language text).2 from
    run_append (start disk) events [.edit uri language text]] at coherent' accounted'
  cases outcome : ((reached disk events).sought uri text).choose uri.normalize with
  | mk result after =>
    cases result with
    | error error =>
      rw [edit_eq sound settling.normal text analysed, outcome]
      exact atRest_failed sound settling.normal (sought_sought sound coherent plain settling) outcome
    | ok id =>
      exact atRest_settled sound coherent plain (accounted_reached disk events) analysed settling outcome rfl coherent'
        accounted'

/-! ## The second edit -/

/-- Whether two states have the same contexts, but for the records of their last passes, the same keys, and documents
with the same content that are open alike. -/
structure Repeats (once twice : Workspace) : Prop where
  contexts : ∀ id, (twice.registry.get? id).map Context.face = (once.registry.get? id).map Context.face
  keys : ∀ key, twice.registry.target? key = once.registry.target? key
  files : ∀ key, (twice.store.file? key).map (fun file => (file.content, file.active)) =
    (once.store.file? key).map fun file => (file.content, file.active)

private theorem Idles.repeats (idles : Idles before after) : Repeats before after := by
  refine ⟨idles.contexts, idles.targets, fun key => ?_⟩
  have same := congrArg (Option.map fun file : Document => (file.content, file.active)) (idles.store.documents key)
  rw [Option.map_map, Option.map_map] at same
  exact same

private theorem retains_replaced (workspace : Workspace) (key : Uri) (text : String) :
    (workspace.modifyFile key fun file => file.setContent (some text)).store.Retains
      ((workspace.modifyFile key fun file => file.setContent (some text)).hide key).forward.store :=
  Store.Retains.trans (Store.retains_hide _ key) ⟨rfl, fun _ => rfl⟩

private theorem edit_unanalysed_eq (workspace : Workspace) (uri : Uri) {language : String} (text : String)
    (unanalysed : ¬isAnalysed language = true) : (workspace.edit uri language text).2 =
      match workspace.store.get? uri.normalize with
      | none => workspace
      | some file => ((workspace.modifyFile file.uri fun file => file.setContent (some text)).hide file.uri).forward := by
  have edits := edit_cases workspace uri language text
  generalize workspace.edit uri language text = outcome at edits ⊢
  cases edits with
  | unknown _ absent => rw [absent]
  | replaced file _ found => rw [found]
  | failed _ _ analysed _ => exact absurd analysed unanalysed
  | engaged _ _ analysed _ => exact absurd analysed unanalysed

private theorem idles_unanalysed (keyed : workspace.store.Keyed) {uri : Uri} {language : String} (text : String)
    (unanalysed : ¬isAnalysed language = true) :
    Idles (workspace.edit uri language text).2 ((workspace.edit uri language text).2.edit uri language text).2 := by
  rw [edit_unanalysed_eq (workspace.edit uri language text).2 uri text unanalysed]
  rw [edit_unanalysed_eq workspace uri text unanalysed]
  cases found : workspace.store.get? uri.normalize with
  | none =>
    simp only [found]
    exact .rfl
  | some file =>
    have named := keyed.uri_of_get? found
    have retains := retains_replaced workspace file.uri text
    simp only
    -- the document has the text already
    have stored : (workspace.modifyFile file.uri fun file => file.setContent (some text)).store.file?
        uri.normalize.normalize = some (file.setContent (some text)) := by
      have held : workspace.store.file? uri.normalize.normalize = some file := found
      rw [modifyFile, Store.file?_modify, if_pos named.symm, held, Option.map_some]
    generalize ((workspace.modifyFile file.uri fun file => file.setContent (some text)).hide file.uri).forward = once
      at retains ⊢
    obtain ⟨later, met, same, content, -, -⟩ := retains.find stored
    have again : once.store.get? uri.normalize = some later := met
    have placed : later.uri = file.uri := same
    simp only [again]
    have replaces : once.store.Still (once.store.modify later.uri fun file => file.setContent (some text)) := by
      refine Store.still_modify fun other there => ?_
      rw [placed, named, met] at there
      obtain rfl := Option.some.inj there
      have kept : later.content = some text := content
      simp only [Document.bare, Document.setContent, kept]
    exact idles_of_store rfl (replaces.trans (retains_replaced once later.uri text).still)

/-- An edit that is made twice gives the same result both times and changes nothing the second time, in whatever state
the server was, if the language is none that is analysed or the first edit settles the document. -/
theorem repeats_edited (disk : Disk) (events : List Event) (uri : Uri) (language text : String)
    (settling : isAnalysed language = true → (reached disk events).Settling uri language text) :
    (((reached disk events).edit uri language text).2.edit uri language text).1 =
        ((reached disk events).edit uri language text).1 ∧
      Repeats ((reached disk events).edit uri language text).2
        (((reached disk events).edit uri language text).2.edit uri language text).2 := by
  have sound := sound_reached disk events
  by_cases analysed : isAnalysed language = true
  · have settling := settling analysed
    have rest := atRest_edited disk events analysed settling
    have sound' : ((reached disk events).edit uri language text).2.Sound :=
      sound.edited (edit_spec sound.formed sound.keyed uri language text)
    obtain ⟨result, idles⟩ := edit_idle sound' settling.normal analysed rest
    refine ⟨result.trans ?_, idles.repeats⟩
    rw [edit_eq sound settling.normal text analysed]
    generalize ((reached disk events).sought uri text).choose uri.normalize = outcome
    obtain ⟨result, after⟩ := outcome
    cases result <;> rfl
  · refine ⟨?_, (idles_unanalysed sound.keyed text analysed).repeats⟩
    rw [(edit_of_unanalysed _ uri text analysed).1, (edit_of_unanalysed _ uri text analysed).1]

def orphanConfiguration : Uri := ⟨"file".toList, some ⟨[], [], none⟩, "/x/readme.md".toList, none, none⟩

private theorem edited_declaringRun :
    topDocument.normalize.normalize = topDocument.normalize ∧
      topDocument.normalize.generated.toOption = some orphanConfiguration ∧
      (∀ place ∈ Discovery.candidates topDocument.normalize.folder,
        place.normalize = place ∧ place ≠ orphanConfiguration.normalize.normalize) ∧
      (Discovery.find Store.source topDocument.normalize.folder
        ((reached Disk.empty declaringRun).opened topDocument "1").store).1.toOption = some (some topConfiguration) ∧
      (∀ entry ∈ (reached Disk.empty declaringRun).registry.contexts,
        entry.2.kind = .real ∧ entry.2.configuration = topConfiguration) ∧
      ∀ entry ∈ ((reached Disk.empty declaringRun).edit topDocument "json" "1").2.registry.contexts,
        entry.2.configuration ≠ topDocument.normalize := by
  decide +kernel

private theorem settling_declaringRun : (reached Disk.empty declaringRun).Settling topDocument "json" "1" := by
  obtain ⟨normal, generated, places, found, real, other⟩ := edited_declaringRun
  refine ⟨normal, fun place member => ⟨(places place member).1, ?_⟩, fun configuration same id context _ stands => ?_,
    fun old configuration _ sits => ?_, fun id context stands _ own => ?_⟩
  · rintro ⟨configuration, named, rfl⟩
    obtain rfl := Except.ok.inj (named.symm.trans (ok_of_toOption generated))
    exact (places _ member).2 rfl
  · rw [ok_of_toOption found] at same
    obtain rfl := Option.some.inj (Except.ok.inj same)
    exact (real _ (Entries.mem_of_get? stands)).2
  · obtain ⟨context, stands, kind, -⟩ := sits
    cases (real _ (Entries.mem_of_get? stands)).1.symm.trans kind
  · exact absurd own (other _ (Entries.mem_of_get? stands))

theorem repeats_edited_sample :
    (isAnalysed "json" = true → (reached Disk.empty declaringRun).Settling topDocument "json" "1") ∧
      (((reached Disk.empty declaringRun).edit topDocument "json" "1").2.edit topDocument "json" "1").1 =
        ((reached Disk.empty declaringRun).edit topDocument "json" "1").1 ∧
      Repeats ((reached Disk.empty declaringRun).edit topDocument "json" "1").2
        (((reached Disk.empty declaringRun).edit topDocument "json" "1").2.edit topDocument "json" "1").2 :=
  ⟨fun _ => settling_declaringRun,
    repeats_edited Disk.empty declaringRun topDocument "json" "1" fun _ => settling_declaringRun⟩

/-- A document is opened alone, and the configuration generated for it is closed. -/
def orphanRun : List Event :=
  [.edit topDocument "json" "1", .close orphanConfiguration]

private theorem edit_orphanRun :
    (((reached Disk.empty orphanRun).edit topDocument "json" "2").2.registry.get? 1).isSome ∧
      ((((reached Disk.empty orphanRun).edit topDocument "json" "2").2.edit topDocument "json" "2").2.registry.get?
        1).isNone := by
  decide +kernel

/-- A context that is released takes the key of its configuration with it, also when that leads to another context. -/
theorem not_always_repeats :
    ¬ ∀ (disk : Disk) (events : List Event) (uri : Uri) (language text : String), uri.path.getLast? ≠ some '/' →
      (∀ letter, uri.path ≠ ['/', letter, ':']) →
      (((reached disk events).edit uri language text).2.edit uri language text).1 =
          ((reached disk events).edit uri language text).1 ∧
        Repeats ((reached disk events).edit uri language text).2
          (((reached disk events).edit uri language text).2.edit uri language text).2 := by
  intro always
  obtain ⟨once, twice⟩ := edit_orphanRun
  obtain ⟨-, repeats⟩ := always Disk.empty orphanRun topDocument "json" "2" (by decide) fun letter same => by
    have length : topDocument.path.length = 3 := by rw [same]; rfl
    exact absurd length (by decide)
  have same := congrArg Option.isSome (repeats.contexts 1)
  rw [Option.isSome_map, Option.isSome_map, once] at same
  rw [Option.isNone_iff_eq_none.mp twice] at same
  cases same

end Workspace

end SpecServer
