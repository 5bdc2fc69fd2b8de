import SpecServer.Proofs.Registry.Survival
import SpecServer.Proofs.Uri.Generated
set_option autoImplicit false

/-!
Tidy registries: each generated context lives by the key of its configuration and serves just the document that
it was generated for. The moves keep a registry tidy where no two documents share a generated configuration.
-/

namespace SpecServer

/-- What lets each document have a generated configuration of its own, which is none of the documents. -/
structure Uri.Plain (named : Uri → Prop) : Prop where
  legible : ∀ document, named document → document.Legible
  fixed : ∀ document, named document → document.normalize = document
  closed : ∀ document, named document → document.text.getLast? ≠ some '/'
  apart : ∀ document other, named document → named other → other.generated ≠ .ok document

namespace Uri

variable {named : Uri → Prop} {document other configuration : Uri}

theorem Plain.only (plain : Plain named) (name : named document) (name' : named other)
    (made : document.generated = .ok configuration) (made' : other.generated = .ok configuration) : document = other :=
  generated_injective (plain.legible _ name) (plain.legible _ name') (plain.fixed _ name) (plain.fixed _ name')
    (plain.closed _ name) (plain.closed _ name') made made'

theorem Plain.normalize_generated (plain : Plain named) (name : named document)
    (made : document.generated = .ok configuration) : configuration.normalize = configuration :=
  Uri.normalize_generated (plain.legible _ name) (plain.fixed _ name) (plain.closed _ name) made

end Uri

namespace Registry

variable {registry : Registry} {named known : Uri → Prop}

/-- Whether each generated context is led to by its configuration, and serves one document of those named. -/
structure Tidy (named known : Uri → Prop) (registry : Registry) : Prop where
  founded : ∀ id configuration, registry.Sits id .synthesized configuration →
    ∃ document, named document ∧ document.generated = .ok configuration ∧ known document
  leads : ∀ id configuration, registry.Sits id .synthesized configuration →
    registry.target? (.synthesized configuration) = some id
  claimed : ∀ document id configuration, registry.target? (.input document) = some id →
    registry.Sits id .synthesized configuration → named document ∧ document.generated = .ok configuration
  tracked : ∀ id document configuration, registry.Tracks id document → registry.Sits id .synthesized configuration →
    document = configuration ∨ named document ∧ document.generated = .ok configuration

/-- Whether each real context tracks a document that is open. -/
def InUse (registry : Registry) (active : Uri → Bool) : Prop :=
  ∀ id configuration, registry.Sits id .real configuration → ∃ document, registry.Tracks id document ∧ active document

theorem tidy_empty : empty.Tidy named known := by
  have none' : ∀ {id kind configuration}, ¬ empty.Sits id kind configuration := by
    rintro _ _ _ ⟨context, found, -⟩
    cases found
  exact ⟨fun _ _ sits => absurd sits none', fun _ _ sits => absurd sits none', fun _ _ _ _ sits => absurd sits none',
    fun _ _ _ _ sits => absurd sits none'⟩

theorem inUse_empty (active : Uri → Bool) : empty.InUse active := by
  rintro id configuration ⟨context, found, -⟩
  cases found

theorem Tidy.mono {more : Uri → Prop} (tidy : registry.Tidy named known) (wider : ∀ document, known document → more document) :
    registry.Tidy named more := by
  refine ⟨fun id configuration sits => ?_, tidy.leads, tidy.claimed, tidy.tracked⟩
  obtain ⟨document, name, made, knows⟩ := tidy.founded id configuration sits
  exact ⟨document, name, made, wider document knows⟩

/-- A registry with fewer contexts, keys and documents is tidy if its generated contexts keep their keys. -/
theorem Tidy.fewer {before after : Registry} (tidy : before.Tidy named known)
    (sits : ∀ id configuration, after.Sits id .synthesized configuration → before.Sits id .synthesized configuration)
    (target : ∀ key id, after.target? key = some id → before.target? key = some id)
    (tracks : ∀ id document, after.Tracks id document → before.Tracks id document)
    (leads : ∀ id configuration, after.Sits id .synthesized configuration →
      after.target? (.synthesized configuration) = some id) : after.Tidy named known :=
  ⟨fun id configuration here => tidy.founded id configuration (sits id configuration here), leads,
    fun document id configuration leading here =>
      tidy.claimed document id configuration (target _ id leading) (sits id configuration here),
    fun id document configuration tracking here =>
      tidy.tracked id document configuration (tracks id document tracking) (sits id configuration here)⟩

/-- The document that a generated context owns is the one that it was generated for. -/
theorem Tidy.owned (plain : Uri.Plain named) (coherent : registry.Coherent) (tidy : registry.Tidy named known)
    {document configuration : Uri} {id : Nat} (name : named document) (owned : registry.ownerOf document = some id)
    (sits : registry.Sits id .synthesized configuration) : document.generated = .ok configuration := by
  obtain ⟨context, found, input | configured | tracking⟩ := ownerOf_cases coherent.formed owned
  · exact (tidy.claimed document id configuration input sits).2
  · obtain same | ⟨_, same⟩ := coherent.key_of_synthesized configured sits <;> cases same
  · obtain rfl | ⟨-, made⟩ := tidy.tracked id document configuration ⟨context, found, tracking⟩ sits
    · obtain ⟨other, name', made, -⟩ := tidy.founded id document sits
      exact absurd made (plain.apart document other name name')
    · exact made

/-! ## Holding and settling -/

theorem Tidy.hold (tidy : registry.Tidy named known) {id : Nat} {document : Uri} (name : named document)
    (serves : ∀ configuration, registry.Sits id .synthesized configuration → document.generated = .ok configuration) :
    (registry.hold id document).Tidy named known := by
  refine ⟨fun other configuration sits => ?_, fun other configuration sits => ?_, fun held other configuration target sits => ?_,
    fun other held configuration tracks sits => ?_⟩
  · exact tidy.founded other configuration ((sits_hold id other document _ _).mp sits)
  · exact tidy.leads other configuration ((sits_hold id other document _ _).mp sits)
  · exact tidy.claimed held other configuration target ((sits_hold id other document _ _).mp sits)
  · rw [sits_hold] at sits
    rcases tracks_hold.mp tracks with before | ⟨rfl, rfl, -⟩
    · exact tidy.tracked other held configuration before sits
    · exact .inr ⟨name, serves configuration sits⟩

/-- A generated context in which a document settles is the one generated for it. -/
theorem Settled.serves {before after : Registry} {document : Uri} {choice : Choice} {id : Nat}
    (coherent : before.Coherent) (settled : Settled before document choice id after)
    (made : ∀ configuration, choice = .generated configuration → document.generated = .ok configuration)
    {configuration : Uri} (sits : after.Sits id .synthesized configuration) :
    choice = .generated configuration ∧ document.generated = .ok configuration := by
  obtain ⟨seat, seated, same⟩ := settled.sits_seat coherent
  obtain ⟨kind, rfl⟩ := seated.unique sits
  cases choice with
  | own inputs => cases kind
  | declared other => cases kind
  | generated other =>
    obtain rfl := same rfl
    exact ⟨rfl, made _ rfl⟩

theorem Tidy.settled {before after : Registry} {document : Uri} {choice : Choice} {id : Nat} (plain : Uri.Plain named)
    (coherent : before.Coherent) (tidy : before.Tidy named known) (settled : Settled before document choice id after)
    (name : named document) (knows : known document)
    (made : ∀ configuration, choice = .generated configuration → document.generated = .ok configuration) :
    after.Tidy named known := by
  -- whatever a key led to, or tracked something, lived before
  have sat : ∀ {other kind configuration}, before.Lives other → after.Sits other kind configuration →
      before.Sits other kind configuration := by
    intro other kind configuration lives sits
    rcases settled.sits.mp sits with sits | ⟨rfl, fresh, -⟩
    · exact sits
    · exact absurd lives fresh
  refine ⟨fun other configuration sits => ?_, fun other configuration sits => ?_,
    fun held other configuration target sits => ?_, fun other held configuration tracks sits => ?_⟩
  · rcases settled.sits.mp sits with sits | ⟨rfl, -, -, -⟩
    · exact tidy.founded other configuration sits
    · exact ⟨document, name, (settled.serves coherent made sits).2, knows⟩
  · rw [settled.target]
    rcases settled.sits.mp sits with before' | ⟨rfl, fresh, -, -⟩
    · have target := tidy.leads other configuration before'
      rw [if_neg, target]
      intro claimed
      cases choice with
      | own inputs => simp [Choice.claims] at claimed
      | declared configuration' => simp [Choice.claims] at claimed
      | generated configuration' =>
        cases living : before.lookup (.synthesized configuration') with
        | some held => simp [Choice.claims, living] at claimed
        | none =>
          obtain rfl : configuration = configuration' := by simpa [Choice.claims, living] using claimed
          cases living.symm.trans (coherent.lookup.mpr target)
    · obtain ⟨rfl, -⟩ := settled.serves coherent made sits
      rw [if_pos]
      cases living : before.lookup (.synthesized configuration) with
      | some held =>
        have seat := settled.seat
        rw [Choice.seat, Choice.kind, Choice.configuration] at seat
        rw [living, Option.getD_some] at seat
        exact absurd (coherent.sits (coherent.lookup.mp living)) (seat ▸ fresh)
      | none => simp [Choice.claims, living]
  · rw [settled.target] at target
    split at target
    next claimed =>
      cases target
      obtain ⟨rfl, makes⟩ := settled.serves coherent made sits
      cases living : before.lookup (.synthesized configuration) with
      | some held => simp [Choice.claims, living] at claimed
      | none =>
        obtain rfl : held = document := by simpa [Choice.claims, living] using claimed
        exact ⟨name, makes⟩
    next => exact tidy.claimed held other configuration target (sat (coherent.sits target) sits)
  · rcases settled.tracks.mp tracks with before' | ⟨rfl, taken⟩
    · exact tidy.tracked other held configuration before' (sat before'.lives sits)
    · obtain ⟨rfl, makes⟩ := settled.serves coherent made sits
      have normal := plain.normalize_generated name makes
      rw [Choice.taken, normal, normal] at taken
      exact .inl (List.mem_singleton.mp taken)

/-! ## Letting go -/

private theorem leads_prune (coherent : registry.Coherent) (active : Uri → Bool)
    (leads : ∀ id configuration, registry.Sits id .synthesized configuration → (registry.prune active).2.Lives id →
      registry.target? (.synthesized configuration) = some id) {id : Nat} {configuration : Uri}
    (sits : (registry.prune active).2.Sits id .synthesized configuration) :
    (registry.prune active).2.target? (.synthesized configuration) = some id := by
  obtain ⟨before, lives⟩ := (sits_prune coherent.formed active).mp sits
  exact (target?_prune_iff coherent active).mpr ⟨leads id configuration before lives, lives⟩

/-- A generated context is pruned once the keys of its configuration and of its inputs are gone. -/
theorem pruned_of_keyless (coherent : registry.Coherent) (active : Uri → Bool) {id : Nat} {configuration : Uri}
    (sits : registry.Sits id .synthesized configuration) (keyless : registry.target? (.synthesized configuration) ≠ some id)
    (unclaimed : ∀ document, registry.target? (.input document) ≠ some id) : ¬ (registry.prune active).2.Lives id := by
  intro lives
  obtain ⟨_, _, -, ⟨key, target⟩, -⟩ := (lives_prune coherent.formed active).mp lives
  obtain rfl | ⟨document, rfl⟩ := coherent.key_of_synthesized target sits
  · exact keyless target
  · exact unclaimed document target

/-- Where a document moves from one context to another, the generated context that it leaves is pruned. -/
theorem Tidy.moved (plain : Uri.Plain named) (coherent : registry.Coherent) (tidy : registry.Tidy named known) {old id : Nat}
    {document : Uri} (name : named document)
    (served : ∀ configuration, registry.Sits old .synthesized configuration → document.generated = .ok configuration)
    (serves : ∀ configuration, registry.Sits id .synthesized configuration → document.generated = .ok configuration)
    (active : Uri → Bool) : (((registry.release old document).hold id document).prune active).2.Tidy named known := by
  have held := (coherent.release old document).hold id document
  have sits : ∀ {other kind configuration},
      ((registry.release old document).hold id document).Sits other kind configuration ↔
        registry.Sits other kind configuration := by
    intro other kind configuration
    rw [sits_hold, sits_release]
  refine (tidy.hold name serves).fewer (fun other configuration after => ?_) (fun key other target => ?_)
    (fun other key tracks => ?_) fun other configuration after => ?_
  · rw [sits_hold, ← sits]
    exact ((sits_prune held.formed active).mp after).1
  · exact ((target?_release coherent old document).mp ((target?_prune_iff held active).mp target).1).1
  · rcases tracks_hold.mp ((tracks_prune held.formed active).mp tracks).1 with before | ⟨rfl, rfl, lives⟩
    · exact tracks_hold.mpr (.inl ((tracks_release coherent).mp before).1)
    · obtain ⟨kind, configuration, there⟩ := lives.sits
      exact tracks_hold.mpr (.inr ⟨rfl, rfl, ((sits_release registry old key).mp there).lives⟩)
  · refine leads_prune held active (fun other configuration here lives => ?_) after
    have target := tidy.leads other configuration (sits.mp here)
    rw [target?_hold, target?_release coherent]
    refine ⟨target, fun same => ContextKey.noConfusion same.1, ?_⟩
    rintro ⟨configuration', left, same⟩
    cases same
    obtain rfl : old = other := Option.some.inj ((tidy.leads old configuration left).symm.trans target)
    refine pruned_of_keyless held active here (fun kept => ?_) (fun other kept => ?_) lives
    · exact ((target?_release coherent old document).mp kept).2.2 ⟨configuration, left, rfl⟩
    · obtain ⟨before, disclaimed, -⟩ := (target?_release coherent old document).mp kept
      obtain ⟨name', made⟩ := tidy.claimed other old configuration before left
      exact disclaimed ⟨congrArg ContextKey.input (plain.only name' name made (served configuration left)), rfl⟩

/-- Whether one registry has the contexts of another, and is short of nothing but keys of inputs and documents
that are shut. -/
structure Loosened (shut : Uri → Bool) (before after : Registry) : Prop where
  coherent : after.Coherent
  sits : ∀ {id kind configuration}, after.Sits id kind configuration ↔ before.Sits id kind configuration
  target : ∀ {key id}, after.target? key = some id → before.target? key = some id
  kept : ∀ {key id}, (∀ document, key ≠ .input document) → before.target? key = some id → after.target? key = some id
  tracks : ∀ {id document}, after.Tracks id document → before.Tracks id document
  holds : ∀ {id document}, shut document = false → before.Tracks id document → after.Tracks id document

theorem Coherent.loosened_refl (coherent : registry.Coherent) (shut : Uri → Bool) : Loosened shut registry registry :=
  ⟨coherent, .rfl, id, fun _ => id, id, fun _ => id⟩

theorem Coherent.loosened_foldl_drop (coherent : registry.Coherent) (id : Nat) (shut : Uri → Bool) (inputs : List Uri) :
    Loosened shut registry (inputs.foldl (Registry.drop id shut) registry) := by
  refine ⟨coherent.foldl_drop id shut inputs, sits_foldl_drop registry id shut inputs,
    fun target => ((target?_foldl_drop registry id shut inputs).mp target).1,
    fun other target => (target?_foldl_drop registry id shut inputs).mpr ⟨target, fun input _ _ => other input⟩,
    tracks_of_foldl_drop, fun free tracks => (tracks_foldl_drop coherent id shut inputs).mpr ⟨tracks, ?_⟩⟩
  rintro ⟨-, input, -, gone, rfl⟩
  cases free.symm.trans gone

/-- Where a document is closed, the generated context that owns it is pruned. -/
theorem Tidy.left {dropped : Registry} (plain : Uri.Plain named) (coherent : registry.Coherent)
    (tidy : registry.Tidy named known) {shut : Uri → Bool} (loosened : Loosened shut registry dropped) {id : Nat}
    {context : Context} {document : Uri} (name : named document) (owned : registry.ownerOf document = some id)
    (found : registry.get? id = some context)
    (active : Uri → Bool) : ((dropped.leave id context document document).prune active).2.Tidy named known := by
  have left := loosened.coherent.leave id context document document
  have sits : ∀ {other kind configuration}, (dropped.leave id context document document).Sits other kind configuration ↔
      registry.Sits other kind configuration := by
    intro other kind configuration
    rw [sits_leave, loosened.sits]
  have targets := @target?_leave dropped id context document document
  refine tidy.fewer (fun other configuration after => ?_) (fun key other target => ?_) (fun other key tracks => ?_)
    fun other configuration after => ?_
  · exact sits.mp ((sits_prune left.formed active).mp after).1
  · exact loosened.target (targets.mp ((target?_prune_iff left active).mp target).1).1
  · exact loosened.tracks (tracks_of_leave ((tracks_prune left.formed active).mp tracks).1)
  · refine leads_prune left active (fun other configuration here lives => ?_) after
    have target := tidy.leads other configuration (sits.mp here)
    refine targets.mpr ⟨loosened.kept (by simp) target, by simp, ?_, by simp⟩
    rintro ⟨kind, same⟩
    cases same
    have own : registry.Sits id .synthesized context.configuration := ⟨context, found, kind, rfl⟩
    obtain rfl : id = other := Option.some.inj ((tidy.leads id _ own).symm.trans target)
    refine pruned_of_keyless left active here (fun kept => ?_) (fun other kept => ?_) lives
    · exact (targets.mp kept).2.2.1 ⟨kind, rfl⟩
    · obtain ⟨before, unclaimed, -⟩ := targets.mp kept
      obtain ⟨name', made⟩ := tidy.claimed other id _ (loosened.target before) own
      exact unclaimed (congrArg ContextKey.input (plain.only name' name made (tidy.owned plain coherent name owned own)))

/-! ## Use -/

theorem InUse.mono {active active' : Uri → Bool} (inUse : registry.InUse active)
    (more : ∀ document, active document → active' document) : registry.InUse active' := by
  intro id configuration sits
  obtain ⟨document, tracks, open'⟩ := inUse id configuration sits
  exact ⟨document, tracks, more document open'⟩

theorem InUse.hold {active : Uri → Bool} (inUse : registry.InUse active) (id : Nat) (document : Uri) :
    (registry.hold id document).InUse active := by
  intro other configuration sits
  obtain ⟨held, tracks, open'⟩ := inUse other configuration ((sits_hold id other document _ _).mp sits)
  exact ⟨held, tracks_hold.mpr (.inl tracks), open'⟩

theorem inUse_prune (formed : registry.WellFormed) (active : Uri → Bool) : (registry.prune active).2.InUse active := by
  intro id configuration sits
  obtain ⟨before, lives⟩ := (sits_prune formed active).mp sits
  obtain ⟨kind, configuration', there, -, used⟩ := (lives_prune formed active).mp lives
  obtain ⟨document, tracks, open'⟩ := used (there.unique before).1
  exact ⟨document, (tracks_prune formed active).mpr ⟨tracks, lives⟩, open'⟩

theorem InUse.settled {before after : Registry} {active : Uri → Bool} {document : Uri} {choice : Choice} {id : Nat}
    (inUse : before.InUse active) (settled : Settled before document choice id after) (open' : active document) :
    (after.hold id document).InUse active := by
  intro other configuration sits
  rcases settled.sits.mp ((sits_hold id other document _ _).mp sits) with there | ⟨rfl, -⟩
  · obtain ⟨held, tracks, opened⟩ := inUse other configuration there
    exact ⟨held, tracks_hold.mpr (.inl (settled.tracks.mpr (.inl tracks))), opened⟩
  · exact ⟨document, tracks_hold.mpr (.inr ⟨rfl, rfl, settled.lives⟩), open'⟩

end Registry

end SpecServer
