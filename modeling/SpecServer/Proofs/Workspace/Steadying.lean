import SpecServer.Proofs.Workspace.Resettling
set_option autoImplicit false

/-!
Searches that are made again. Once a document has the seat that a search chose for it and its context has read what it
declares, a search for its context finds all that the first one found, and gives the same context without a change.
-/

namespace SpecServer

-- neither the model's parser nor the disk must be unfolded
attribute [local irreducible] Uri.normalize Store.load

namespace Workspace

variable {workspace before after : Workspace} {document configuration : Uri} {id : Nat}

/-! ## What an edit leaves behind -/

/-- Whether no place where the configuration of a document may be is taken for another one, or for the one that is
generated for the document. -/
def Apart (document : Uri) : Prop :=
  ∀ place ∈ Discovery.candidates document.folder, place.normalize = place ∧ ¬IsPlaceholder document place

/-- Whether an edit of a document leads from one state to another: documents age, and only what the search takes with
the document is tracked anew. -/
structure Carries (before after : Workspace) (document : Uri) : Prop where
  takes : before.store.Takes (before.Takable document) (IsPlaceholder document) after.store
  ages : Store.Elapses (fun _ => True) (fun _ => False) before.store after.store

theorem Carries.reading (carries : Carries before after document) (apart : Apart document) {place : Uri}
    (member : place ∈ Discovery.candidates document.folder) : after.store.reading place = before.store.reading place := by
  obtain ⟨normal, other⟩ := apart place member
  exact carries.takes.reading place (normal.symm ▸ other)

/-- What the search had read is kept, if that is also so for what the context of the document tracks anew. -/
theorem Carries.cached (carries : Carries before after document) (apart : Apart document)
    (fills : ∀ choice, before.choice? document = some choice → choice.kind = .real → ∀ place ∈ choice.taken,
      place ∈ Discovery.candidates document.folder → after.store.Cached place) {place : Uri}
    (member : place ∈ Discovery.candidates document.folder) (cached : before.store.Cached place) :
    after.store.Cached place := by
  obtain ⟨normal, other⟩ := apart place member
  cases known : (before.store.file? place.normalize).isSome with
  | true => exact cached.elapsed known carries.ages (carries.reading apart member)
  | false =>
    cases known' : (after.store.file? place.normalize).isSome with
    | false =>
      intro document found
      rw [found] at known'
      cases known'
    | true =>
      rcases carries.takes.known _ known' with sooner | placed | ⟨choice, chosen, taken⟩
      · cases known.symm.trans sooner
      · exact absurd (normal ▸ placed) other
      · rw [normal] at taken
        cases kind : choice.kind with
        | real => exact fills choice chosen kind place taken member
        | synthesized =>
          cases choice with
          | own inputs => cases kind
          | declared configuration => cases kind
          | generated configuration =>
            rw [List.mem_singleton.mp taken] at other
            exact absurd ⟨configuration, generated_of_choice? chosen, rfl⟩ other

private theorem Carries.finds {found : Except EngineError (Option Uri)} (carries : Carries before after document)
    (apart : Apart document) (keyed : before.store.Keyed)
    (searched : Discovery.find Store.source document.folder before.store = (found, before.store))
    (cached : ∀ place ∈ Discovery.candidates document.folder, before.store.Cached place → after.store.Cached place) :
    Discovery.find Store.source document.folder after.store = (found, after.store) := by
  have again := Store.find_again keyed (carries.ages.keyed keyed) (fun place member => carries.reading apart member)
    fun place member held => cached place member (by rwa [searched] at held)
  rwa [searched] at again

private theorem Carries.holds (carries : Carries before after document) (apart : Apart document)
    (coherent : after.registry.outline.Coherent) (member : configuration ∈ Discovery.candidates document.folder)
    (cached : after.store.Cached configuration)
    (tuned : Everywhere (Context.Tuned before.store.reading configuration) after) : after.Holds configuration := by
  refine ⟨cached, fun id context living found => ?_⟩
  obtain ⟨real, folder⟩ := real_of_lookup coherent living found
  have held := tuned.find found
  have own := held.own real folder
  refine ⟨held.plain.configuration.trans own, held.plain.additions real, fun view loads => held.viewed real own view ?_⟩
  rwa [Session.viewIn_congr (carries.reading apart member)] at loads

/-- A generated configuration that could not be loaded would fail again. -/
theorem regenerates_of_failed (keyed : workspace.store.Keyed) {error : WorkspaceError}
    (failed : workspace.resolveSynthesized document = (.error error, after)) : after.Regenerates document (.error error) := by
  simp only [resolveSynthesized] at failed
  cases generated : document.generated with
  | error reason =>
    simp only [generated] at failed
    cases failed
    exact .unnamed reason generated
  | ok configuration =>
    simp only [generated] at failed
    cases living : workspace.registry.lookup (.synthesized configuration) with
    | some id => simp only [living] at failed; cases failed
    | none =>
      simp only [living] at failed
      obtain ⟨key, registry, stored⟩ := acquire_spec workspace configuration (some (placeholder document))
      have opened := @turned_acquire_open (fun _ => True) (fun _ => True) workspace configuration
        (some (placeholder document)) trivial
      have active : ((workspace.acquire configuration (some (placeholder document))).2.modifyFile
          (workspace.acquire configuration (some (placeholder document))).1 fun file => file.setActive true).store.isActive
            configuration.normalize.normalize := by
        rw [modifyFile, key]
        refine Store.isActive_open (fun _ => ⟨rfl, rfl⟩) ?_
        rw [stored]
        exact Store.known_acquire workspace.store _ _
      have keyed' := opened.1.store.keyed keyed
      have registry' : ((workspace.acquire configuration (some (placeholder document))).2.modifyFile
          (workspace.acquire configuration (some (placeholder document))).1 fun file => file.setActive true).registry =
            workspace.registry := registry
      clear opened
      generalize (workspace.acquire configuration (some (placeholder document))).2.modifyFile _ _ = shown
        at failed active keyed' registry'
      have loading : (Context.start .synthesized (.founding document configuration)).session =
        .founding document configuration := rfl
      rw [show (Session.start configuration).addConfiguration (generatedEntries document) =
        .founding document configuration from rfl] at failed
      have status := status?_loadView (.start .synthesized (.founding document configuration)) shown.store
      have cached := cached_loadView keyed' (.start .synthesized (.founding document configuration))
      obtain ⟨store, reads, loaded⟩ := loadView_replay keyed' (.start .synthesized (.founding document configuration))
      rw [loading] at loaded cached
      cases loads : (Session.founding document configuration).viewIn shown.store.reading with
      | ok view =>
        rw [loads] at loaded
        rw [loaded] at failed
        cases failed
      | error reason =>
        rw [loads] at loaded
        rw [loaded] at failed status cached
        cases failed
        refine .unloaded configuration reason generated ?_ ?_ cached ?_
        · simp only [registry']
          exact living
        · rw [Store.isActive_congr status]
          exact active
        · rw [show ({ shown with store := store } : Workspace).store.reading = shown.store.reading from reads.reading]
          exact loads

/-- A state in which the configuration of a document was looked for, and no other one drives its folder. -/
structure Sought (workspace : Workspace) (document : Uri) (detected : Except EngineError (Option Uri)) : Prop where
  sound : workspace.Sound
  coherent : workspace.registry.outline.Coherent
  plain : Everywhere Context.Plain workspace
  apart : Apart document
  found : Discovery.find Store.source document.folder workspace.store = (detected, workspace.store)
  place : ∀ configuration, detected = .ok (some configuration) → configuration ∈ Discovery.candidates document.folder
  cached : ∀ configuration, detected = .ok (some configuration) → workspace.store.Cached configuration
  unrivalled : ∀ configuration, detected = .ok (some configuration) → workspace.Unrivalled configuration

variable {detected : Except EngineError (Option Uri)}

theorem carries_choose (sound : workspace.Sound) (document : Uri) :
    Carries workspace (workspace.choose document).2 document :=
  ⟨takes_choose sound document, (turned_choose sound document fun _ _ => trivial).store⟩

theorem Sought.tuned (sought : workspace.Sought document (.ok (some configuration))) :
    Everywhere (Context.Tuned workspace.store.reading configuration) (workspace.choose document).2 := by
  obtain ⟨normal, apart⟩ := sought.apart configuration (sought.place _ rfl)
  exact tuned_choose sought.sound sought.coherent sought.plain (sought.unrivalled _ rfl) sought.found (normal.symm ▸ apart)

/-- What a configuration says when it is loaded by itself is what it says after the edit. -/
theorem Sought.loads (sought : workspace.Sought document (.ok (some configuration)))
    (carries : Carries workspace after document) : (Session.start configuration).viewIn after.store.reading =
      (Session.start configuration).viewIn workspace.store.reading :=
  Session.viewIn_congr (carries.reading sought.apart (sought.place _ rfl))

private theorem Sought.cached_ungoverned (sought : workspace.Sought document detected)
    (carries : Carries workspace after document)
    (nothing : workspace.governing? document = none) : ∀ place ∈ Discovery.candidates document.folder,
      workspace.store.Cached place → after.store.Cached place := by
  refine fun place member => carries.cached sought.apart (fun choice chosen real => ?_) member
  obtain ⟨configuration, rfl, -⟩ := choice?_of_ungoverned nothing chosen
  cases real

theorem Sought.steady_failed (sought : workspace.Sought document detected) {error : WorkspaceError}
    (failed : workspace.choose document = (.error error, after)) : after.Steady document (.error error) := by
  have carries : Carries workspace after document := by
    have chosen := carries_choose sought.sound document
    rwa [failed] at chosen
  have coherent : after.registry.outline.Coherent := by
    have outcome := choose_spec sought.sound.formed document
    rw [failed] at outcome
    cases outcome with
    | failed _ _ outline _ =>
      rw [outline]
      exact sought.coherent
  have finds := fun nothing => carries.finds sought.apart sought.sound.keyed sought.found
    (sought.cached_ungoverned carries nothing)
  cases detected with
  | error reason =>
    rw [choose_of_undetected sought.found] at failed
    cases failed
    exact .undetected reason sought.found
  | ok configuration? =>
    cases configuration? with
    | none =>
      have nothing : workspace.governing? document = none := by
        unfold governing?
        rw [sought.found]
      rw [choose_of_none sought.found] at failed
      exact .alone _ (finds nothing) (regenerates_of_failed sought.sound.keyed failed)
    | some configuration =>
      have place := sought.place configuration rfl
      have tuned : Everywhere (Context.Tuned workspace.store.reading configuration) after := by
        have loaded := sought.tuned
        rwa [failed] at loaded
      have holds := fun nothing => carries.holds sought.apart coherent place
        (sought.cached_ungoverned carries nothing configuration place (sought.cached configuration rfl)) tuned
      have same := sought.loads carries
      cases loads : (Session.start configuration).viewIn workspace.store.reading with
      | error reason =>
        obtain ⟨done, nothing⟩ := choose_of_unloaded sought.sound.keyed sought.coherent sought.plain
          (sought.unrivalled _ rfl) sought.found loads
        rw [done] at failed
        cases failed
        exact .unloaded configuration reason (finds nothing) (holds nothing) (same.trans loads)
      | ok view =>
        by_cases governs : configuration = document ∨ document ∈ view.inputs
        · obtain ⟨⟨id, done⟩, -⟩ := choose_of_governed sought.sound.keyed sought.coherent sought.plain
            (sought.unrivalled _ rfl) sought.found loads governs
          rw [failed] at done
          cases done
        · obtain ⟨apart, foreign⟩ := not_or.mp governs
          obtain ⟨done, nothing⟩ := choose_of_foreign sought.sound.keyed sought.coherent sought.plain
            (sought.unrivalled _ rfl) sought.found loads apart foreign
          rw [done] at failed
          have keyed := (@turned_candidate (fun _ => True) (fun _ => True) (workspace.selected configuration)
            ⟨sought.sound.formed, sought.sound.keyed⟩ configuration).1.store.keyed sought.sound.keyed
          exact .foreign configuration view _ (finds nothing) (holds nothing) (same.trans loads) apart foreign
            (regenerates_of_failed keyed failed)

private theorem cached_of_normalize {store : Store} {uri other : Uri} (same : other.normalize = uri.normalize)
    (cached : store.Cached uri) : store.Cached other := by
  rw [Store.Cached, same]
  exact cached

/-- What a context has at hand after a pass: the documents that it tracks, and the texts of what the pass read. -/
structure Provided (workspace : Workspace) (id : Nat) : Prop where
  known : ∀ key, workspace.registry.Tracks id key → (workspace.store.file? key).isSome
  cached : ∀ context, workspace.registry.get? id = some context →
    ∀ view, context.session.viewIn workspace.store.reading = .ok view →
      ∀ uri ∈ context.session.configuration :: context.session.inputsOf view, workspace.store.Cached uri

/-- The context of the folder of a configuration has that one, and has at hand what it read. -/
theorem Sought.provided (sought : workspace.Sought document (.ok (some configuration)))
    (carries : Carries workspace after document) (coherent : after.registry.outline.Coherent) (provided : after.Provided id)
    (tuned : Everywhere (Context.Tuned workspace.store.reading configuration) after) {view : View}
    (loads : (Session.start configuration).viewIn workspace.store.reading = .ok view)
    (living : after.registry.lookup (.folder configuration.folder) = some id) : ∃ context,
      after.registry.get? id = some context ∧ context.kind = .real ∧ context.configuration = configuration ∧
        ∀ uri ∈ configuration :: context.session.inputsOf view, after.store.Cached uri := by
  obtain ⟨-, context, found⟩ := Registry.lookup_eq_some_iff.mp living
  obtain ⟨real, folder⟩ := real_of_lookup coherent living found
  have held := tuned.find found
  have own := held.own real folder
  have viewed := (held.viewIn real own (carries.reading sought.apart (sought.place _ rfl))).trans loads
  have cached := provided.cached context found view viewed
  rw [held.plain.configuration.trans own] at cached
  exact ⟨context, found, real, own, cached⟩

private theorem Sought.steady_own (sought : workspace.Sought document (.ok (some document))) {view : View}
    (loads : (Session.start document).viewIn workspace.store.reading = .ok view)
    (chosen : workspace.choice? document = some (.own view.inputs)) (carries : Carries workspace after document)
    (coherent : after.registry.outline.Coherent) (seated : after.registry.Seated document (.own view.inputs) id)
    (provided : after.Provided id) (tuned : Everywhere (Context.Tuned workspace.store.reading document) after)
    (told : Everywhere (Context.Told document view.inputs) after) : after.Steady document (.ok id) := by
  have place := sought.place document rfl
  obtain ⟨context, found, real, own, cached⟩ := sought.provided carries coherent provided tuned loads seated.seat
  have informed := told.find found real own
  have caches : ∀ place ∈ Discovery.candidates document.folder, workspace.store.Cached place →
      after.store.Cached place := by
    refine fun place member => carries.cached sought.apart (fun choice chosen' _ place taken among => ?_) member
    obtain rfl := Option.some.inj (chosen.symm.trans chosen')
    obtain ⟨input, declared, rfl⟩ := List.mem_map.mp taken
    exact cached_of_normalize (sought.apart _ among).1
      (cached input.normalize (List.mem_cons_of_mem _ (Session.mem_inputsOf.mpr (.inr (informed input declared)))))
  refine .own view id (carries.finds sought.apart sought.sound.keyed sought.found caches)
    (carries.holds sought.apart coherent place (caches document place (sought.cached _ rfl)) tuned)
    ((sought.loads carries).trans loads) seated (fun input declared => ?_) fun other found' => ?_
  · exact provided.known _ (seated.taken _ (List.mem_map.mpr ⟨input, declared, rfl⟩))
  · rwa [Option.some.inj (found'.symm.trans found)]

private theorem Sought.steady_declared (sought : workspace.Sought document (.ok (some configuration))) {view : View}
    (loads : (Session.start configuration).viewIn workspace.store.reading = .ok view) (apart : configuration ≠ document)
    (declares : document ∈ view.inputs) (chosen : workspace.choice? document = some (.declared configuration))
    (carries : Carries workspace after document) (coherent : after.registry.outline.Coherent)
    (seated : after.registry.Seated document (.declared configuration) id) (provided : after.Provided id)
    (tuned : Everywhere (Context.Tuned workspace.store.reading configuration) after) : after.Steady document (.ok id) := by
  have place := sought.place configuration rfl
  have normal := (sought.apart configuration place).1
  obtain ⟨context, found, real, own, cached⟩ := sought.provided carries coherent provided tuned loads seated.seat
  have read := cached configuration List.mem_cons_self
  have caches : ∀ place ∈ Discovery.candidates document.folder, workspace.store.Cached place →
      after.store.Cached place := by
    refine fun place member => carries.cached sought.apart (fun choice chosen' _ place taken _ => ?_) member
    obtain rfl := Option.some.inj (chosen.symm.trans chosen')
    rwa [List.mem_singleton.mp taken, normal, normal]
  exact .declared configuration view id (carries.finds sought.apart sought.sound.keyed sought.found caches)
    (carries.holds sought.apart coherent place read tuned) ((sought.loads carries).trans loads) apart declares seated
    (provided.known _ (seated.taken _ (List.mem_singleton_self _)))

/-- A search that gave a context gives it again, once the document has its seat there. -/
theorem Sought.steady_settled (sought : workspace.Sought document detected) {choice : Choice}
    (done : (workspace.choose document).1 = .ok id) (chosen : workspace.choice? document = some choice)
    (carries : Carries workspace after document) (coherent : after.registry.outline.Coherent)
    (seated : after.registry.Seated document choice id) (provided : after.Provided id)
    (tuned : ∀ configuration, detected = .ok (some configuration) →
      Everywhere (Context.Tuned workspace.store.reading configuration) after)
    (told : ∀ view, detected = .ok (some document) → (Session.start document).viewIn workspace.store.reading = .ok view →
      Everywhere (Context.Told document view.inputs) after) : after.Steady document (.ok id) := by
  have caches := fun nothing => sought.cached_ungoverned carries nothing
  have finds := fun nothing => carries.finds sought.apart sought.sound.keyed sought.found (caches nothing)
  -- where nothing governs the document, its configuration is generated
  have alone : workspace.governing? document = none → after.Regenerates document (.ok id) := by
    intro nothing
    obtain ⟨configuration, rfl, generated⟩ := choice?_of_ungoverned nothing chosen
    exact .seated configuration id generated seated
      (provided.known _ (seated.taken _ (List.mem_singleton_self _)))
  cases detected with
  | error reason =>
    rw [choose_of_undetected sought.found] at done
    cases done
  | ok configuration? =>
    cases configuration? with
    | none =>
      have nothing : workspace.governing? document = none := by
        unfold governing?
        rw [sought.found]
      exact .alone _ (finds nothing) (alone nothing)
    | some configuration =>
      have unrivalled := sought.unrivalled configuration rfl
      have place := sought.place configuration rfl
      replace tuned := tuned configuration rfl
      cases loads : (Session.start configuration).viewIn workspace.store.reading with
      | error reason =>
        rw [(choose_of_unloaded sought.sound.keyed sought.coherent sought.plain unrivalled sought.found loads).1] at done
        cases done
      | ok view =>
        by_cases governs : configuration = document ∨ document ∈ view.inputs
        · have decided := (choose_of_governed sought.sound.keyed sought.coherent sought.plain unrivalled sought.found loads
            governs).2
          obtain rfl := Option.some.inj (decided.symm.trans chosen)
          by_cases own : configuration = document
          · subst own
            rw [if_pos rfl] at chosen seated
            exact sought.steady_own loads chosen carries coherent seated provided tuned (told view rfl loads)
          · rw [if_neg own] at chosen seated
            exact sought.steady_declared loads own (governs.resolve_left own) chosen carries coherent seated provided tuned
        · obtain ⟨apart, foreign⟩ := not_or.mp governs
          have nothing := (choose_of_foreign sought.sound.keyed sought.coherent sought.plain unrivalled sought.found loads
            apart foreign).2
          exact .foreign configuration view _ (finds nothing)
            (carries.holds sought.apart coherent place
              (caches nothing configuration place (sought.cached configuration rfl)) tuned)
            ((sought.loads carries).trans loads) apart foreign (alone nothing)

end Workspace

end SpecServer
