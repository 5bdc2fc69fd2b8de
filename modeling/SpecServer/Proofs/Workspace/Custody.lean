import SpecServer.Proofs.Workspace.Passes
import SpecServer.Proofs.Workspace.Successor
import SpecServer.Proofs.Workspace.Tidy
set_option autoImplicit false

/-!
Whether a document is in the care of the context that its edit was handled with: that context lives, is at work
and tracks the document, and the registry leads from the document to it. What hovers, definitions, closings and
the merged definition ask the registry for is then the context that was validated last.
-/

namespace SpecServer

namespace Registry

variable {registry before settled : Registry} {document : Uri} {choice : Choice} {id old : Nat}

/-- Whether a document leads to a context, as an input of it or, failing that, as its configuration. -/
def Leads (registry : Registry) (document : Uri) (id : Nat) : Prop :=
  (registry.lookup (.input document)).or (registry.lookup (.configuration document)) = some id

private theorem Leads.owned (leads : registry.Leads document id) : registry.ownerOf document = some id := by
  simp only [Leads] at leads
  simp only [ownerOf]
  cases input : registry.lookup (.input document) with
  | some other => simpa [input] using leads
  | none =>
    rw [input, Option.none_or] at leads
    simp only [leads]

private theorem Leads.lives (leads : registry.Leads document id) : registry.Lives id := by
  simp only [Leads, Option.or_eq_some_iff] at leads
  rcases leads with input | ⟨-, own⟩
  · exact (lookup_eq_some_iff.mp input).2
  · exact (lookup_eq_some_iff.mp own).2

private theorem leads_outline : registry.outline.Leads document id ↔ registry.Leads document id := by
  rw [Leads, Leads, lookup_outline, lookup_outline]

private theorem Coherent.leads_iff (coherent : registry.Coherent) :
    registry.Leads document id ↔ registry.target? (.input document) = some id ∨
      registry.target? (.input document) = none ∧ registry.target? (.configuration document) = some id := by
  rw [Leads, coherent.lookup_eq, coherent.lookup_eq]
  cases registry.target? (.input document) <;> simp

private theorem leads_hold (registry : Registry) (id other : Nat) (key document : Uri) :
    (registry.hold id key).Leads document other ↔ registry.Leads document other := by
  simp only [Leads, hold, lookup_modify]

/-- Whether a context was generated for a document before, and the document leads to it no longer. -/
def Revives (registry : Registry) (document : Uri) (id : Nat) : Prop :=
  ∃ configuration, document.generated = .ok configuration ∧
    registry.lookup (.synthesized configuration) = some id ∧ registry.lookup (.input document) ≠ some id

private theorem revives_outline : registry.outline.Revives document id ↔ registry.Revives document id := by
  simp only [Revives, lookup_outline]

private theorem Coherent.sits_of_generated (coherent : registry.Coherent) {configuration : Uri}
    (living : registry.lookup (.synthesized configuration) = some id) : registry.Sits id .synthesized configuration := by
  obtain ⟨context, found, kind, same⟩ := coherent.fits _ id (coherent.lookup.mp living)
  exact ⟨context, found, kind, same⟩

/-- A document does not lead to a generated context as to its configuration. -/
theorem Coherent.leads_synthesized (coherent : registry.Coherent) {configuration : Uri}
    (sits : registry.Sits id .synthesized configuration) :
    registry.Leads document id ↔ registry.target? (.input document) = some id := by
  rw [coherent.leads_iff, or_iff_left]
  rintro ⟨-, target⟩
  obtain same | ⟨_, same⟩ := coherent.key_of_synthesized target sits <;> cases same

/-! ## Settling -/

/-- A document that settles in a context which was generated for it before gets no key anew. -/
theorem Settled.target_of_revived {configuration : Uri} (coherent : before.Coherent)
    (settling : Settled before document choice id settled)
    (made : ∀ configuration, choice = .generated configuration → document.generated = .ok configuration)
    (generated : document.generated = .ok configuration) (living : before.lookup (.synthesized configuration) = some id)
    (key : ContextKey) : settled.target? key = before.target? key := by
  obtain ⟨_, seat, -⟩ := settling.sits_seat coherent
  have same := (seat.unique (settling.sits.mpr (.inl (coherent.sits_of_generated living)))).1
  cases choice with
  | own inputs => cases same
  | declared other => cases same
  | generated other =>
    cases generated.symm.trans (made other rfl)
    rw [settling.target, if_neg]
    simp [Choice.claims, living]

/-- Any other context is led to from the document, or from the configuration that the document is. -/
theorem Settled.target_of_fresh (settling : Settled before document choice id settled)
    (fresh : ∀ configuration, choice = .generated configuration → before.lookup (.synthesized configuration) ≠ some id) :
    settled.target? (.input document) = some id ∨
      settled.target? (.configuration document) = some id ∧
        settled.target? (.input document) = before.target? (.input document) := by
  simp only [settling.target]
  cases choice with
  | own inputs => by_cases declared : document ∈ inputs <;> simp [Choice.claims, declared]
  | declared configuration => simp [Choice.claims]
  | generated configuration =>
    cases living : before.lookup (.synthesized configuration) with
    | none => simp [Choice.claims, living]
    | some held =>
      have seat := settling.seat
      simp only [Choice.seat, Choice.kind, Choice.configuration, living, Option.getD_some] at seat
      exact absurd living (seat ▸ fresh configuration rfl)

/-! ## Staying and moving -/

private theorem Settled.leads_stayed (coherent : before.Coherent) (settling : Settled before document choice id settled)
    (made : ∀ configuration, choice = .generated configuration → document.generated = .ok configuration)
    (previous : ∀ old, before.target? (.input document) = some old → old = id) (key : Uri) :
    (settled.hold id key).Leads document id ↔ ¬ before.Revives document id := by
  have held := (coherent.settled settling).hold id key
  by_cases lived : ∃ configuration, document.generated = .ok configuration ∧ before.lookup (.synthesized configuration) = some id
  · obtain ⟨configuration, generated, living⟩ := lived
    have sits := settling.sits.mpr (.inl (coherent.sits_of_generated living))
    have kept := settling.target_of_revived coherent made generated living
    rw [held.leads_synthesized ((sits_hold _ _ _ _ _).mpr sits), target?_hold, kept, ← coherent.lookup]
    constructor
    · rintro found ⟨-, -, -, lost⟩
      exact lost found
    · intro kept
      exact Classical.byContradiction fun lost => kept ⟨configuration, generated, living, lost⟩
  · have fresh : ∀ configuration, choice = .generated configuration → before.lookup (.synthesized configuration) ≠ some id :=
      fun configuration chosen living => lived ⟨configuration, made configuration chosen, living⟩
    refine iff_of_true (held.leads_iff.mpr ?_) fun ⟨configuration, generated, living, _⟩ => lived ⟨configuration, generated, living⟩
    simp only [target?_hold]
    rcases settling.target_of_fresh fresh with input | ⟨own, same⟩
    · exact .inl input
    · rw [same]
      cases found : before.target? (.input document) with
      | none => exact .inr ⟨rfl, own⟩
      | some old => exact .inl (congrArg some (previous old found))

private theorem Settled.leads_moved (coherent : before.Coherent) (settling : Settled before document choice id settled)
    (made : ∀ configuration, choice = .generated configuration → document.generated = .ok configuration)
    (previous : before.target? (.input document) = some old) (apart : old ≠ id) {active : Uri → Bool} {key : Uri}
    (open' : active key) :
    (((settled.release old document).hold id key).prune active).2.Leads document id ↔ ¬ before.Revives document id := by
  have settled' := coherent.settled settling
  have held := (settled'.release old document).hold id key
  have targets : ∀ {other number}, (((settled.release old document).hold id key).prune active).2.target? other = some number ↔
      (settled.target? other = some number ∧ ¬(other = .input document ∧ number = old) ∧
        ¬∃ configuration, settled.Sits old .synthesized configuration ∧ other = .synthesized configuration) ∧
      (((settled.release old document).hold id key).prune active).2.Lives number := by
    intro other number
    rw [target?_prune_iff held, target?_hold, target?_release settled']
  by_cases lived : ∃ configuration, document.generated = .ok configuration ∧ before.lookup (.synthesized configuration) = some id
  · obtain ⟨configuration, generated, living⟩ := lived
    have sits := coherent.sits_of_generated living
    have kept := settling.target_of_revived coherent made generated living
    have lost : before.lookup (.input document) ≠ some id := by
      rw [coherent.lookup_eq, previous]
      exact fun same => apart (Option.some.inj same)
    refine iff_of_false (fun leads => ?_) fun kept => kept ⟨configuration, generated, living, lost⟩
    rcases (held.prune active).leads_iff.mp leads with input | ⟨-, own⟩
    · rw [targets, kept] at input
      exact lost (coherent.lookup.mpr input.1.1)
    · rw [targets, kept] at own
      obtain same | ⟨_, same⟩ := coherent.key_of_synthesized own.1.1 sits <;> cases same
  · have fresh : ∀ configuration, choice = .generated configuration → before.lookup (.synthesized configuration) ≠ some id :=
      fun configuration chosen living => lived ⟨configuration, made configuration chosen, living⟩
    have lives : (((settled.release old document).hold id key).prune active).2.Lives id := by
      cases kind : choice.kind with
      | real => exact (settling.outlives_real coherent kind apart active key).mpr ⟨key, .inr (.inr rfl), open'⟩
      | synthesized =>
        cases choice with
        | own inputs => cases kind
        | declared configuration => cases kind
        | generated configuration =>
          refine (settling.outlives_generated coherent apart active key).mpr fun shared => ?_
          exact fresh configuration rfl (coherent.lookup.mpr shared.1)
    refine iff_of_true ((held.prune active).leads_iff.mpr ?_) fun ⟨configuration, generated, living, _⟩ =>
      lived ⟨configuration, generated, living⟩
    rcases settling.target_of_fresh fresh with input | ⟨own, same⟩
    · exact .inl (targets.mpr ⟨⟨input, fun left => apart left.2.symm, by simp⟩, lives⟩)
    · refine .inr ⟨Option.eq_none_iff_forall_ne_some.mpr fun number target => ?_, targets.mpr ⟨⟨own, by simp, by simp⟩, lives⟩⟩
      obtain ⟨⟨found, gone, -⟩, -⟩ := targets.mp target
      rw [same, previous] at found
      exact gone ⟨rfl, (Option.some.inj found).symm⟩

end Registry

namespace Workspace

-- the model's parser must not be unfolded to compare two keys
attribute [local irreducible] Uri.normalize

variable {workspace before after : Workspace} {document : Uri}

/-- Whether a document is in the care of a context. -/
structure Entrusted (workspace : Workspace) (document : Uri) (id : Nat) : Prop where
  engaged : ∃ context, workspace.registry.get? id = some context ∧ context.activated = true ∧
    document.normalize ∈ context.tracked
  leads : workspace.registry.Leads document id
  owned : workspace.registry.ownerOf document = some id

private theorem settle_of_resolved {id : Nat} (resolved : Resolved before document (.ok id) after) :
    ∃ choice, before.choice? document = some choice ∧ (before.registry.outline.settle document choice).1 = id := by
  cases resolved with
  | stayed choice _ _ chosen moved => exact ⟨choice, chosen, congrArg Prod.fst moved⟩
  | left choice _ _ _ _ chosen moved => exact ⟨choice, chosen, congrArg Prod.fst moved⟩

/-- After an edit the document leads to the context that it settled in, unless that one was revived. -/
theorem leads_edited {choice : Choice} {id : Nat} (coherent : before.registry.outline.Coherent)
    (edited : Edited before document true (some choice) (.ok ()) after)
    (made : ∀ configuration, choice = .generated configuration → document.generated = .ok configuration)
    (seat : (before.registry.outline.settle document choice).1 = id) :
    (after.registry.Leads document id ↔ ¬ before.registry.Revives document id) ∧
      (after.registry.Lives id → after.registry.Tracks id document.normalize) := by
  have claimed : ∀ {old}, before.registry.lookup (.input document) = some old ↔
      before.registry.outline.target? (.input document) = some old := by
    intro old
    rw [← coherent.lookup, Registry.lookup_outline]
  rw [← Registry.leads_outline, ← Registry.revives_outline, ← Registry.lives_outline, ← Registry.tracks_outline]
  cases edited with
  | ignored _ unanalysed _ => cases unanalysed
  | stayed _ number settled _ _ chosen settles previous outline _ _ =>
    cases chosen
    rw [settles] at seat
    obtain rfl := seat
    have settling := Registry.settled_of_settle coherent.formed settles
    rw [outline]
    refine ⟨settling.leads_stayed coherent made (fun old target => previous old (claimed.mpr target)) _, fun lives => ?_⟩
    rw [Registry.hold, Registry.lives_modify] at lives
    exact Registry.tracks_hold.mpr (.inr ⟨rfl, rfl, lives⟩)
  | left _ number settled old _ _ chosen settles previous apart outline _ active =>
    cases chosen
    rw [settles] at seat
    obtain rfl := seat
    have settling := Registry.settled_of_settle coherent.formed settles
    rw [outline, Registry.leads_hold]
    refine ⟨settling.leads_moved coherent made (claimed.mp previous) apart active, fun lives => ?_⟩
    rw [Registry.hold, Registry.lives_modify] at lives
    exact Registry.tracks_hold.mpr (.inr ⟨rfl, rfl, lives⟩)

/-- After an edit that was handled to its end, in whatever state the server was, the document is entrusted to the
context that the search gave, unless that context was generated for the document before and did not get its key
back. -/
theorem entrusted_edited_iff (disk : Disk) (events : List Event) (uri : Uri) (language text : String)
    (analysed : isAnalysed language = true) (handled : ((reached disk events).edit uri language text).1 = .ok ()) :
    ∃ id, (((reached disk events).opened uri text).resolve uri.normalize).1 = .ok id ∧
      (((reached disk events).edit uri language text).2.Entrusted uri.normalize.normalize id ↔
        ¬ (reached disk events).registry.Revives uri.normalize.normalize id) := by
  have sound := sound_reached disk events
  have coherent := coherent_reached disk events
  generalize reached disk events = before at handled sound coherent ⊢
  have edited := edit_spec sound.formed sound.keyed uri language text
  obtain ⟨kept, grows, -⟩ := opened_spec before uri text
  have sound' : (before.opened uri text).Sound := ⟨kept.symm ▸ sound.formed, grows.keyed sound.keyed⟩
  have resolved := resolve_spec sound'.formed sound'.keyed uri.normalize
  rw [handled, analysed] at edited
  rw [edit_of_analysed before uri text analysed] at handled edited ⊢
  generalize before.opened uri text = opened at kept sound' resolved handled edited ⊢
  generalize uri.normalize = named at *
  generalize opened.resolve named = outcome at resolved handled edited ⊢
  obtain ⟨result, found⟩ := outcome
  cases result with
  | error error => cases handled
  | ok id =>
    obtain ⟨choice, chosen, seat⟩ := settle_of_resolved resolved
    rw [kept] at seat
    rw [chosen] at edited
    have made : ∀ configuration, choice = .generated configuration → named.normalize.generated = .ok configuration :=
      fun configuration same => generated_of_choice? (chosen.trans (congrArg some same))
    obtain ⟨leads, tracks⟩ := leads_edited coherent edited made seat
    refine ⟨id, rfl, fun entrusted => leads.mp entrusted.leads, fun spared => ?_⟩
    have led := leads.mpr spared
    have lives := led.lives
    have lived : found.registry.Lives id := by
      rw [← Registry.lives_outline, (engage_spec (sound'.resolved resolved).formed id _ _).1, Registry.hold,
        Registry.lives_modify, Registry.lives_outline] at lives
      exact lives
    obtain ⟨context, held, tracked⟩ := tracks led.lives
    obtain ⟨other, met, working⟩ := atWork_engage lived named.normalize.normalize named
    cases held.symm.trans met
    exact ⟨⟨context, held, working, tracked⟩, led, led.owned⟩

/-- A document is opened alone. The configuration declares it later, and then no longer. -/
def disownedRun : List Event :=
  [.edit topDocument "json" "1",
    .edit topConfiguration "markdown" "#see https://aka.ms/autorest\ninput-file: x",
    .edit topConfiguration "markdown" "#see https://aka.ms/autorest\na: 1"]

private theorem edit_disownedRun :
    ((reached Disk.empty disownedRun).edit topDocument "json" "2").1.toOption = some () ∧
      ((reached Disk.empty disownedRun).edit topDocument "json" "2").2.registry.lookup
        (.input topDocument.normalize.normalize) = none ∧
      ((reached Disk.empty disownedRun).edit topDocument "json" "2").2.registry.lookup
        (.configuration topDocument.normalize.normalize) = none := by
  decide +kernel

theorem entrusted_edited_iff_sample :
    isAnalysed "json" = true ∧ ((reached Disk.empty disownedRun).edit topDocument "json" "2").1 = .ok () ∧
      ∃ id, (((reached Disk.empty disownedRun).opened topDocument "2").resolve topDocument.normalize).1 = .ok id ∧
        (((reached Disk.empty disownedRun).edit topDocument "json" "2").2.Entrusted topDocument.normalize.normalize id ↔
          ¬ (reached Disk.empty disownedRun).registry.Revives topDocument.normalize.normalize id) := by
  have handled := ok_of_toOption edit_disownedRun.1
  exact ⟨by decide, handled, entrusted_edited_iff Disk.empty disownedRun topDocument "json" "2" (by decide) handled⟩

/-- A context that was just validated may be none that the document leads to. -/
theorem not_always_entrusted :
    ¬ ∀ (disk : Disk) (events : List Event) (uri : Uri) (language text : String), isAnalysed language = true →
      ((reached disk events).edit uri language text).1 = .ok () →
      ∃ id, (((reached disk events).opened uri text).resolve uri.normalize).1 = .ok id ∧
        ((reached disk events).edit uri language text).2.Entrusted uri.normalize.normalize id := by
  intro always
  obtain ⟨handled, input, own⟩ := edit_disownedRun
  obtain ⟨id, -, entrusted⟩ :=
    always Disk.empty disownedRun topDocument "json" "2" (by decide) (ok_of_toOption handled)
  have leads := entrusted.leads
  rw [Registry.Leads, input, own] at leads
  cases leads

end Workspace

end SpecServer
