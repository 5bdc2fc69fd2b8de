import SpecServer.Proofs.Registry.Moves
import SpecServer.Proofs.Workspace.Alike
set_option autoImplicit false

/-!
What the search for the context of a document does to the outline of the registry and to the store. A search
that fails leaves the outline as it is; one that succeeds settles the document as the workspace governs it.
-/

namespace SpecServer.Workspace

-- the model's parser must not be unfolded to compare two keys
attribute [local irreducible] Uri.normalize

variable {workspace : Workspace}

/-- The configuration found for a document with the inputs it declares, if it is the document or declares it. -/
def governing? (workspace : Workspace) (document : Uri) : Option (Uri × List Uri) :=
  match Discovery.find Store.source document.folder workspace.store with
  | (.ok (some configuration), store) =>
    match ({ workspace with store := store }.candidate configuration).1 with
    | .ok (_, inputs) =>
      if configuration = document ∨ document ∈ inputs then some (configuration, inputs) else none
    | .error _ => none
  | _ => none

/-- Where a document belongs now. -/
def choice? (workspace : Workspace) (document : Uri) : Option Choice :=
  match workspace.governing? document with
  | some (configuration, inputs) => some (if configuration = document then .own inputs else .declared configuration)
  | none => document.generated.toOption.map .generated

/-! ## Candidates -/

/-- Whether a candidate is the context that lives in the folder of a configuration, or a new one. -/
inductive Candidate.Fits (registry : Registry) (configuration : Uri) : Candidate → Prop
  | living (id : Nat) (found : registry.lookup (.folder configuration.folder) = some id) :
    Fits registry configuration (.living id)
  | fresh (context : Context) (absent : registry.lookup (.folder configuration.folder) = none)
      (plain : context.outline = .start .real (.start configuration)) : Fits registry configuration (.fresh context)

theorem status?_loadView (context : Context) (store : Store) :
    (context.loadView store).2.2.status? = store.status? :=
  Session.loadView_keeps (Store.source_keeps store.status?) context.session (.refl _)

theorem candidate_spec (formed : workspace.registry.WellFormed) (configuration : Uri) :
    Alike workspace (workspace.candidate configuration).2 ∧
      ∀ candidate inputs, (workspace.candidate configuration).1 = .ok (candidate, inputs) →
        candidate.Fits workspace.registry configuration := by
  simp only [candidate]
  cases living : workspace.registry.lookup (.folder configuration.folder) with
  | none =>
    have status := status?_loadView (Context.start .real (Session.start configuration)) workspace.store
    have outline := Context.outline_loadView (Context.start .real (Session.start configuration)) workspace.store
    simp only [Option.bind_none]
    generalize (Context.start .real (Session.start configuration)).loadView workspace.store = loaded at status outline
    obtain ⟨result, context, store⟩ := loaded
    refine ⟨alike_of_store rfl status, fun candidate inputs returned => ?_⟩
    cases result with
    | error error => cases returned
    | ok view =>
      cases returned
      exact .fresh context living outline
  | some id =>
    obtain ⟨-, context, found⟩ := Registry.lookup_eq_some_iff.mp living
    have status := status?_loadView context workspace.store
    have outline := Context.outline_loadView context workspace.store
    simp only [Option.bind_some, found, Option.map_some]
    generalize context.loadView workspace.store = loaded at status outline
    obtain ⟨result, changed, store⟩ := loaded
    refine ⟨⟨Registry.outline_set formed found outline, status⟩, fun candidate inputs returned => ?_⟩
    cases result with
    | error error => cases returned
    | ok view =>
      cases returned
      exact .living id living

private theorem retain_spec {candidate : Candidate} {configuration : Uri} {before : Registry} (document : Uri)
    (choice : Choice)
    (fits : candidate.Fits before configuration) (same : workspace.registry.outline = before.outline)
    (kind : choice.kind = .real) (governs : choice.configuration document = configuration) :
    ((workspace.retain candidate).1, (workspace.retain candidate).2.registry.outline) =
      before.outline.seat document choice ∧ (workspace.retain candidate).2.store = workspace.store := by
  have seat : choice.seat document = .folder configuration.folder := by
    rw [Choice.seat, kind, governs]
  have founder : choice.founder document = .start .real (.start configuration) := by
    rw [Choice.founder, kind, governs]
  cases fits with
  | living id found =>
    rw [Registry.seat, Registry.lookup_outline, seat, found, ← same]
    exact ⟨rfl, rfl⟩
  | fresh context absent plain =>
    rw [Registry.seat, Registry.lookup_outline, seat, absent, founder, ← plain, ← same]
    exact ⟨Prod.ext rfl (Registry.outline_insert _ _), rfl⟩

/-! ## Inputs -/

private theorem outline_adoptInput (id : Nat) (workspace : Workspace) (input : Uri) :
    (adoptInput id workspace input).registry.outline = workspace.registry.outline.adopt id input := by
  have tracked : ∀ context : Context, ((context.addInput input).track input.normalize.normalize).outline =
      context.outline.track input.normalize.normalize := fun context => Context.outline_track _ _
  simp only [adoptInput, acquire, index, modifyContext, Registry.outline_index, Registry.adopt, Registry.hold]
  generalize input.normalize.normalize = key at tracked ⊢
  congr 1
  rw [← Registry.outline_modify _ id tracked]
  split <;> rfl

private theorem outline_foldl_adoptInput (id : Nat) (workspace : Workspace) (inputs : List Uri) :
    (inputs.foldl (adoptInput id) workspace).registry.outline =
      inputs.foldl (Registry.adopt id) workspace.registry.outline := by
  induction inputs generalizing workspace with
  | nil => rfl
  | cons input rest ih => rw [List.foldl_cons, List.foldl_cons, ih, outline_adoptInput]

private theorem grows_foldl_adoptInput {opened : Uri → Prop} (id : Nat) (workspace : Workspace) (inputs : List Uri) :
    Store.Grows opened workspace.store (inputs.foldl (adoptInput id) workspace).store := by
  induction inputs generalizing workspace with
  | nil => exact .of_status rfl
  | cons input rest ih =>
    refine .trans ?_ (ih (adoptInput id workspace input))
    have shown : (adoptInput id workspace input).store = workspace.store.acquire input.normalize none :=
      (acquire_spec workspace input none).2.2
    rw [shown]
    exact Store.grows_acquire _ _ _

/-! ## Settling -/

theorem outline_hold (workspace : Workspace) (id : Nat) (key : Uri) :
    (workspace.modifyContext id fun context => context.track key).registry.outline =
      workspace.registry.outline.hold id key :=
  Registry.outline_modify _ id fun context => Context.outline_track context key

/-- What the search in the folders of a document gives. -/
inductive RealOutcome (before : Workspace) (document configuration : Uri) :
    Except EngineError (Option Nat) → Workspace → Prop
  | failed (error : EngineError) (after : Workspace) (alike : Alike before after) :
    RealOutcome before document configuration (.error error) after
  | foreign (candidate : Candidate) (inputs : List Uri) (after : Workspace) (alike : Alike before after)
      (loaded : (before.candidate configuration).1 = .ok (candidate, inputs))
      (apart : ¬(configuration = document ∨ document ∈ inputs)) :
    RealOutcome before document configuration (.ok none) after
  | settled (candidate : Candidate) (inputs : List Uri) (id : Nat) (after : Workspace)
      (loaded : (before.candidate configuration).1 = .ok (candidate, inputs))
      (governs : configuration = document ∨ document ∈ inputs)
      (moved : before.registry.outline.settle document
        (if configuration = document then .own inputs else .declared configuration) = (id, after.registry.outline))
      (grows : ∀ opened, Store.Grows opened before.store after.store) :
    RealOutcome before document configuration (.ok (some id)) after

theorem resolveReal_spec (formed : workspace.registry.WellFormed) (document configuration : Uri) :
    RealOutcome workspace document configuration (workspace.resolveReal document configuration).1
      (workspace.resolveReal document configuration).2 := by
  obtain ⟨alike, fits⟩ := candidate_spec formed configuration
  simp only [resolveReal]
  generalize loaded : workspace.candidate configuration = outcome at alike fits
  obtain ⟨result, loading⟩ := outcome
  cases result with
  | error error => exact .failed error loading alike
  | ok found =>
    obtain ⟨candidate, inputs⟩ := found
    have shown : (workspace.candidate configuration).1 = .ok (candidate, inputs) := by rw [loaded]
    have fitting := fits candidate inputs (.refl _)
    simp only
    by_cases own : configuration = document
    · subst own
      obtain ⟨seated, stored⟩ :=
        retain_spec configuration (.own inputs) fitting alike.outline (.refl _) (.refl _)
      simp only [↓reduceIte]
      generalize loading.retain candidate = kept at seated stored ⊢
      obtain ⟨id, kept⟩ := kept
      refine .settled candidate inputs id _ shown (.inl (.refl _)) ?_ fun opened => ?_
      · simp only [↓reduceIte, Registry.settle, ← seated, index, Registry.outline_index, outline_foldl_adoptInput]
      · refine .trans (.of_status alike.status) ?_
        rw [← stored]
        exact grows_foldl_adoptInput id kept inputs
    · obtain ⟨seated, stored⟩ :=
        retain_spec document (.declared configuration) fitting alike.outline (.refl _) (.refl _)
      simp only [own, ↓reduceIte, List.contains_iff_mem]
      by_cases declares : document ∈ inputs
      · simp only [declares, ↓reduceIte]
        generalize loading.retain candidate = kept at seated stored ⊢
        obtain ⟨id, kept⟩ := kept
        have acquired := acquire_spec ((kept.index (.folder configuration.folder) id).index (.input document) id)
          configuration none
        generalize ((kept.index (.folder configuration.folder) id).index (.input document) id).acquire configuration
          none = tracked at acquired ⊢
        obtain ⟨key, tracked⟩ := tracked
        simp only at acquired
        obtain ⟨rfl, kept', stored'⟩ := acquired
        refine .settled candidate inputs id _ shown (.inr declares) ?_ fun opened => ?_
        · simp only [own, ↓reduceIte, Registry.settle, ← seated, outline_hold, kept', index, Registry.outline_index]
        · refine .trans (.of_status alike.status) ?_
          rw [← stored]
          exact stored'.symm ▸ Store.grows_acquire _ _ _
      · simp only [declares, ↓reduceIte]
        exact .foreign candidate inputs loading alike shown (by simp only [own, declares, or_self, not_false_eq_true])

/-- The key of the configuration generated for a document, under which it is open from then on. -/
def IsPlaceholder (document key : Uri) : Prop :=
  ∃ configuration, document.generated = .ok configuration ∧ key = configuration.normalize.normalize

/-- What the search for a context gives. -/
inductive Outcome (before : Workspace) (document : Uri) (choice? : Option Choice) :
    Except WorkspaceError Nat → Workspace → Prop
  | failed (error : WorkspaceError) (after : Workspace) (outline : after.registry.outline = before.registry.outline)
      (grows : Store.Grows (IsPlaceholder document) before.store after.store) :
    Outcome before document choice? (.error error) after
  | settled (choice : Choice) (id : Nat) (after : Workspace) (chosen : choice? = some choice)
      (moved : before.registry.outline.settle document choice = (id, after.registry.outline))
      (grows : Store.Grows (IsPlaceholder document) before.store after.store) :
    Outcome before document choice? (.ok id) after

private theorem resolveSynthesized_spec (formed : workspace.registry.WellFormed) (document : Uri) :
    Outcome workspace document (document.generated.toOption.map .generated)
      (workspace.resolveSynthesized document).1 (workspace.resolveSynthesized document).2 := by
  simp only [resolveSynthesized]
  cases generated : document.generated with
  | error error => exact .failed _ workspace (.refl _) (.of_status (.refl _))
  | ok configuration =>
    have seat : (Choice.generated configuration).seat document = .synthesized configuration := rfl
    have founder : (Choice.generated configuration).founder document = .start .synthesized (.start configuration) := rfl
    simp only [Except.toOption, Option.map_some]
    cases living : workspace.registry.lookup (.synthesized configuration) with
    | some id =>
      have acquired := acquire_spec workspace configuration none
      generalize workspace.acquire configuration none = tracked at acquired ⊢
      obtain ⟨key, tracked⟩ := tracked
      simp only at acquired
      obtain ⟨rfl, kept, stored⟩ := acquired
      refine .settled (.generated configuration) id _ (.refl _) ?_ ?_
      · simp only [Registry.settle, Registry.seat, Registry.lookup_outline, seat, living, outline_hold, kept]
      · exact stored.symm ▸ Store.grows_acquire _ _ _
    | none =>
      have acquired := acquire_spec workspace configuration (some (placeholder document))
      generalize workspace.acquire configuration (some (placeholder document)) = tracked at acquired ⊢
      obtain ⟨key, tracked⟩ := tracked
      simp only at acquired
      obtain ⟨named, kept, stored⟩ := acquired
      have opened : Store.Grows (IsPlaceholder document) workspace.store
          (tracked.store.modify key fun file => file.setActive true) := by
        refine .trans (stored.symm ▸ Store.grows_acquire _ _ _) (Store.grows_open _ _ (fun _ => ⟨rfl, rfl⟩) ?_)
        exact ⟨configuration, generated, named⟩
      have status := status?_loadView
        (Context.start .synthesized ((Session.start configuration).addConfiguration (generatedEntries document)))
        (tracked.store.modify key fun file => file.setActive true)
      have outline := Context.outline_loadView
        (Context.start .synthesized ((Session.start configuration).addConfiguration (generatedEntries document)))
        (tracked.store.modify key fun file => file.setActive true)
      simp only [modifyFile]
      generalize (Context.start .synthesized
        ((Session.start configuration).addConfiguration (generatedEntries document))).loadView
          (tracked.store.modify key fun file => file.setActive true) = loaded at status outline ⊢
      obtain ⟨result, context, store⟩ := loaded
      cases result with
      | error error => exact .failed _ _ (kept ▸ rfl) (opened.trans (.of_status status))
      | ok view =>
        refine .settled (.generated configuration) _ _ (.refl _) ?_ (opened.trans (.of_status status))
        have plain : context.outline = .start .synthesized (.start configuration) := outline
        have inserted := Registry.hold_insert (Registry.wellFormed_outline.mpr formed)
          (.start .synthesized (.start configuration)) key
        rw [named, ← plain, ← Context.outline_track] at inserted
        have grown := Registry.outline_insert workspace.registry (context.track configuration.normalize.normalize)
        rw [← inserted] at grown
        simp only [Registry.settle, Registry.seat, Registry.lookup_outline, seat, founder, living, kept, named, log, index,
          Registry.outline_index, grown, ← plain]
        rfl

private theorem Outcome.of_alike {before middle after : Workspace} {document : Uri} {choice? : Option Choice}
    {result : Except WorkspaceError Nat} (alike : Alike before middle)
    (outcome : Outcome middle document choice? result after) : Outcome before document choice? result after := by
  cases outcome with
  | failed error after outline grows =>
    exact .failed error after (outline.trans alike.outline) ((Store.Grows.of_status alike.status).trans grows)
  | settled choice id after chosen moved grows =>
    exact .settled choice id after chosen (alike.outline ▸ moved) ((Store.Grows.of_status alike.status).trans grows)

theorem candidate_log (workspace : Workspace) (level : LogLevel) (text : String) (configuration : Uri) :
    ((workspace.log level text).candidate configuration).1 = (workspace.candidate configuration).1 := by
  simp only [candidate, log]
  split <;> rfl

theorem choose_spec (formed : workspace.registry.WellFormed) (document : Uri) :
    Outcome workspace document (workspace.choice? document) (workspace.choose document).1
      (workspace.choose document).2 := by
  have searched := Discovery.find_keeps (Store.source_keeps workspace.store.status?) document.folder (.refl _)
  simp only [choose, choice?, governing?]
  generalize Discovery.find Store.source document.folder workspace.store = found at searched
  obtain ⟨detected, store⟩ := found
  have alike : Alike workspace { workspace with store := store } := alike_of_store rfl searched
  cases detected with
  | error error => exact .failed _ _ alike.outline (.of_status alike.status)
  | ok configuration? =>
    cases configuration? with
    | none => exact (resolveSynthesized_spec (alike.formed formed) document).of_alike alike
    | some configuration =>
      simp only
      generalize ({ workspace with store := store } : Workspace) = reading at alike
      have logged := alike.trans (alike_log reading .debug ("Configuration File Selected: " ++ configuration.render))
      have same := candidate_log reading .debug ("Configuration File Selected: " ++ configuration.render) configuration
      have resolved := resolveReal_spec (logged.formed formed) document configuration
      generalize (reading.log .debug ("Configuration File Selected: " ++ configuration.render)) = noted at *
      generalize noted.resolveReal document configuration = outcome at resolved
      obtain ⟨result, after⟩ := outcome
      cases resolved with
      | failed error _ kept =>
        exact .failed _ after (logged.trans kept).outline (.of_status (logged.trans kept).status)
      | foreign candidate inputs _ kept loaded apart =>
        rw [same] at loaded
        simp only [loaded, apart, ↓reduceIte]
        exact (resolveSynthesized_spec ((logged.trans kept).formed formed) document).of_alike (logged.trans kept)
      | settled candidate inputs id _ loaded governs moved grows =>
        rw [same] at loaded
        simp only [loaded, governs, ↓reduceIte]
        exact .settled _ id after (.refl _) (logged.outline ▸ moved)
          ((Store.Grows.of_status logged.status).trans (grows _))

/-- Whether all that happened was that documents were read and lines were logged. -/
structure Noted (before after : Workspace) : Prop where
  registry : after.registry = before.registry
  status : after.store.status? = before.store.status?
  beside : Beside before after

theorem Noted.alike {before after : Workspace} (note : Noted before after) : Alike before after :=
  alike_of_store note.registry note.status

/-- The ways that the search for a context goes. -/
inductive Searched (before : Workspace) (document : Uri) : Except WorkspaceError Nat × Workspace → Prop
  | undetected (error : EngineError) (noted : Workspace) (note : Noted before noted) :
    Searched before document (.error (.engine error), noted)
  | alone (noted : Workspace) (note : Noted before noted) (nothing : before.governing? document = none) :
    Searched before document (noted.resolveSynthesized document)
  | unloaded (configuration : Uri) (error : EngineError) (noted after : Workspace) (note : Noted before noted)
      (failed : noted.resolveReal document configuration = (.error error, after)) :
    Searched before document (.error (.engine error), after)
  | governed (configuration : Uri) (id : Nat) (noted after : Workspace) (note : Noted before noted)
      (settled : noted.resolveReal document configuration = (.ok (some id), after)) :
    Searched before document (.ok id, after)
  | foreign (configuration : Uri) (noted after : Workspace) (note : Noted before noted)
      (apart : noted.resolveReal document configuration = (.ok none, after))
      (nothing : before.governing? document = none) : Searched before document (after.resolveSynthesized document)

theorem choose_cases (formed : workspace.registry.WellFormed) (document : Uri) :
    Searched workspace document (workspace.choose document) := by
  have searched := Discovery.find_keeps (Store.source_keeps workspace.store.status?) document.folder (.refl _)
  obtain ⟨governs, governed⟩ : ∃ governs, workspace.governing? document = governs := ⟨_, rfl⟩
  have decided := governed
  simp only [governing?] at decided
  simp only [choose]
  generalize Discovery.find Store.source document.folder workspace.store = found at searched decided ⊢
  obtain ⟨detected, store⟩ := found
  have reads : Noted workspace { workspace with store := store } := ⟨rfl, searched, ⟨rfl, rfl, rfl, rfl⟩⟩
  cases detected with
  | error error => exact .undetected error _ reads
  | ok configuration? =>
    cases configuration? with
    | none => exact .alone _ reads (governed.trans decided.symm)
    | some configuration =>
      simp only at decided ⊢
      generalize ({ workspace with store := store } : Workspace) = reading at reads decided ⊢
      have note : Noted workspace (reading.log .debug ("Configuration File Selected: " ++ configuration.render)) :=
        ⟨reads.registry, reads.status, reads.beside.trans ⟨rfl, rfl, rfl, rfl⟩⟩
      have same := candidate_log reading .debug ("Configuration File Selected: " ++ configuration.render) configuration
      have resolved := resolveReal_spec (note.alike.formed formed) document configuration
      generalize reading.log .debug ("Configuration File Selected: " ++ configuration.render) = noted at *
      generalize outcome : noted.resolveReal document configuration = result at resolved ⊢
      obtain ⟨result, after⟩ := result
      cases resolved with
      | failed error _ _ => exact .unloaded configuration error noted after note outcome
      | settled _ _ id _ _ _ _ _ => exact .governed configuration id noted after note outcome
      | foreign candidate inputs _ _ loaded apart =>
        rw [same] at loaded
        simp only [loaded, apart, ↓reduceIte] at decided
        exact .foreign configuration noted after note outcome (governed.trans decided.symm)

end SpecServer.Workspace
