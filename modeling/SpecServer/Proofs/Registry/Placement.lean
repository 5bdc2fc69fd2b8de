import SpecServer.Proofs.Registry.Tidy
set_option autoImplicit false

/-!
What the edit and the closing of a document make of a registry as a whole, and what of it each of them keeps:
tidiness, use, the contexts that were generated for other documents, and real contexts with an open document.
-/

namespace SpecServer.Registry

variable {registry before after : Registry} {named known : Uri → Prop} {document : Uri} {active shut : Uri → Bool}

/-- What the edit of a document makes of a registry: nothing, or the document settles in a context, which may
mean that it moves there from another one. -/
inductive Placed (before : Registry) (document : Uri) (active : Uri → Bool) : Registry → Prop
  | same : Placed before document active before
  | stayed (choice : Choice) (id : Nat) (settled : Registry) (opens : active document)
      (made : ∀ configuration, choice = .generated configuration → document.generated = .ok configuration)
      (settling : Settled before document choice id settled) : Placed before document active (settled.hold id document)
  | moved (choice : Choice) (id : Nat) (settled : Registry) (old : Nat) (opens : active document)
      (made : ∀ configuration, choice = .generated configuration → document.generated = .ok configuration)
      (settling : Settled before document choice id settled) (claimed : before.target? (.input document) = some old) :
    Placed before document active ((((settled.release old document).hold id document).prune active).2.hold id document)

/-- What the closing of a document makes of a registry: nothing, or the document leaves the context that owns it. -/
inductive Withdrawn (before : Registry) (document : Uri) (shut active : Uri → Bool) : Registry → Prop
  | same (unowned : before.ownerOf document = none) : Withdrawn before document shut active before
  | left (id : Nat) (context : Context) (dropped : Registry) (loosened : Loosened shut before dropped)
      (owned : before.ownerOf document = some id) (found : before.get? id = some context) :
    Withdrawn before document shut active ((dropped.leave id context document document).prune active).2

/-! ## Edits -/

/-- A generated context that the document was an input of was generated for it. -/
theorem Tidy.claims_settled {settled : Registry} {choice : Choice} {id old : Nat} (coherent : before.Coherent)
    (tidy : before.Tidy named known) (settling : Settled before document choice id settled)
    (claimed : before.target? (.input document) = some old) {configuration : Uri}
    (sits : settled.Sits old .synthesized configuration) : document.generated = .ok configuration := by
  rcases settling.sits.mp sits with there | ⟨rfl, fresh, -⟩
  · exact (tidy.claimed document old configuration claimed there).2
  · exact absurd (coherent.sits claimed) fresh

theorem Placed.coherent (placed : Placed before document active after) (coherent : before.Coherent) : after.Coherent := by
  cases placed with
  | same => exact coherent
  | stayed choice id settled opens made settling => exact (coherent.settled settling).hold id document
  | moved choice id settled old opens made settling claimed =>
    exact ((((coherent.settled settling).release old document).hold id document).prune active).hold id document

theorem Placed.tidy (plain : Uri.Plain named) (coherent : before.Coherent) (tidy : before.Tidy named known)
    (name : named document) (knows : ∀ document, active document → known document)
    (placed : Placed before document active after) : after.Tidy named known := by
  cases placed with
  | same => exact tidy
  | stayed choice id settled opens made settling =>
    exact (tidy.settled plain coherent settling name (knows document opens) made).hold name
      fun configuration sits => (settling.serves coherent made sits).2
  | moved choice id settled old opens made settling claimed =>
    have settled' := coherent.settled settling
    have serves : ∀ configuration, settled.Sits id .synthesized configuration → document.generated = .ok configuration :=
      fun configuration sits => (settling.serves coherent made sits).2
    have tidy' := (tidy.settled plain coherent settling name (knows document opens) made).moved plain settled' name
      (fun _ => tidy.claims_settled coherent settling claimed) serves active
    refine tidy'.hold name fun configuration sits => serves configuration ?_
    have held := ((sits_prune ((settled'.release old document).hold id document).formed active).mp sits).1
    rw [sits_hold, sits_release] at held
    exact held

theorem Placed.inUse (coherent : before.Coherent) (inUse : before.InUse active) (placed : Placed before document active after) :
    after.InUse active := by
  cases placed with
  | same => exact inUse
  | stayed choice id settled opens made settling => exact inUse.settled settling opens
  | moved choice id settled old opens made settling claimed =>
    have released := ((coherent.settled settling).release old document).hold id document
    exact (inUse_prune released.formed active).hold id document

theorem Placed.sits_of_synthesized (coherent : before.Coherent) (placed : Placed before document active after) {id : Nat}
    {configuration : Uri} (sits : after.Sits id .synthesized configuration) :
    before.Sits id .synthesized configuration ∨ document.generated = .ok configuration := by
  have founded : ∀ {choice seat settled}, Settled before document choice seat settled →
      (∀ configuration, choice = .generated configuration → document.generated = .ok configuration) →
      settled.Sits id .synthesized configuration →
      before.Sits id .synthesized configuration ∨ document.generated = .ok configuration := by
    intro choice seat settled settling made sits
    rcases settling.sits.mp sits with there | ⟨rfl, -⟩
    · exact .inl there
    · exact .inr (settling.serves coherent made sits).2
  cases placed with
  | same => exact .inl sits
  | stayed choice seat settled opens made settling =>
    rw [sits_hold] at sits
    exact founded settling made sits
  | moved choice seat settled old opens made settling claimed =>
    have released := ((coherent.settled settling).release old document).hold seat document
    rw [sits_hold, sits_prune released.formed, sits_hold, sits_release] at sits
    exact founded settling made sits.1

/-- An edit leaves the contexts that were generated for other documents their keys. -/
theorem Placed.target_of_synthesized (coherent : before.Coherent) (tidy : before.Tidy named known)
    (placed : Placed before document active after) {id : Nat} {configuration : Uri}
    (target : before.target? (.synthesized configuration) = some id) (other : document.generated ≠ .ok configuration) :
    after.target? (.synthesized configuration) = some id := by
  have kept : ∀ {choice seat settled}, Settled before document choice seat settled →
      (∀ configuration, choice = .generated configuration → document.generated = .ok configuration) →
      settled.target? (.synthesized configuration) = some id := by
    intro choice seat settled settling made
    rw [settling.target, if_neg, target]
    intro claimed
    cases choice with
    | own inputs => simp [Choice.claims] at claimed
    | declared configuration' => simp [Choice.claims] at claimed
    | generated configuration' =>
      refine other (made configuration ?_)
      cases living : before.lookup (.synthesized configuration') with
      | some held => simp [Choice.claims, living] at claimed
      | none =>
        obtain rfl : configuration = configuration' := by simpa [Choice.claims, living] using claimed
        rfl
  cases placed with
  | same => exact target
  | stayed choice seat settled opens made settling =>
    rw [target?_hold]
    exact kept settling made
  | moved choice seat settled old opens made settling claimed =>
    have settled' := coherent.settled settling
    have released := (settled'.release old document).hold seat document
    have held : ((settled.release old document).hold seat document).target? (.synthesized configuration) = some id := by
      rw [target?_hold, target?_release settled']
      refine ⟨kept settling made, by simp, ?_⟩
      rintro ⟨_, sits, same⟩
      cases same
      exact other (tidy.claims_settled coherent settling claimed sits)
    rw [target?_hold, target?_prune_iff released]
    exact ⟨held, released.outlives_synthesized active held⟩

/-- Whether a number stands for a living real context that tracks a document. -/
def Pinned (registry : Registry) (id : Nat) (document : Uri) : Prop :=
  registry.Tracks id document ∧ ∃ configuration, registry.Sits id .real configuration

/-- An edit leaves real contexts the open documents that they track, but for the edited one. -/
theorem Placed.pinned (coherent : before.Coherent) (placed : Placed before document active after) {id : Nat} {held : Uri}
    (pinned : before.Pinned id held) (apart : held ≠ document) (open' : active held) : after.Pinned id held := by
  have kept : ∀ {choice seat settled}, Settled before document choice seat settled → settled.Pinned id held := by
    intro choice seat settled settling
    obtain ⟨tracks, configuration, sits⟩ := pinned
    exact ⟨settling.tracks.mpr (.inl tracks), configuration, settling.sits.mpr (.inl sits)⟩
  cases placed with
  | same => exact pinned
  | stayed choice seat settled opens made settling =>
    obtain ⟨tracks, configuration, sits⟩ := kept settling
    exact ⟨tracks_hold.mpr (.inl tracks), configuration, (sits_hold _ _ _ _ _).mpr sits⟩
  | moved choice seat settled old opens made settling claimed =>
    have settled' := coherent.settled settling
    have released := (settled'.release old document).hold seat document
    obtain ⟨tracks, configuration, sits⟩ := kept settling
    have stays : ((settled.release old document).hold seat document).Sits id .real configuration := by
      rw [sits_hold, sits_release]
      exact sits
    have tracks' : ((settled.release old document).hold seat document).Tracks id held :=
      tracks_hold.mpr (.inl ((tracks_release settled').mpr ⟨tracks, fun same => apart same.2⟩))
    have lives := released.outlives_real active stays tracks' open'
    refine ⟨tracks_hold.mpr (.inl ((tracks_prune released.formed active).mpr ⟨tracks', lives⟩)), configuration, ?_⟩
    rw [sits_hold, sits_prune released.formed]
    exact ⟨stays, lives⟩

/-! ## Closings -/

theorem Withdrawn.coherent (withdrawn : Withdrawn before document shut active after) (coherent : before.Coherent) :
    after.Coherent := by
  cases withdrawn with
  | same _ => exact coherent
  | left id context dropped loosened owned found =>
    exact (loosened.coherent.leave id context document document).prune active

theorem Withdrawn.tidy (plain : Uri.Plain named) (coherent : before.Coherent) (tidy : before.Tidy named known)
    (name : named document) (withdrawn : Withdrawn before document shut active after) : after.Tidy named known := by
  cases withdrawn with
  | same _ => exact tidy
  | left id context dropped loosened owned found => exact tidy.left plain coherent loosened name owned found active

/-- A closing leaves the real contexts in use, where it shuts just the closed document. -/
theorem Withdrawn.inUse {active' : Uri → Bool} (inUse : before.InUse active')
    (fewer : ∀ held, held ≠ document → active' held → active held)
    (withdrawn : Withdrawn before document shut active after) : after.InUse active := by
  cases withdrawn with
  | same unowned =>
    rintro id configuration sits
    obtain ⟨held, ⟨context, found, member⟩, open'⟩ := inUse id configuration sits
    refine ⟨held, ⟨context, found, member⟩, fewer held ?_ open'⟩
    rintro rfl
    exact not_tracking_of_ownerOf_eq_none unowned found member
  | left id context dropped loosened owned found =>
    exact inUse_prune (loosened.coherent.leave id context document document).formed active

theorem Withdrawn.sits (withdrawn : Withdrawn before document shut active after) {id : Nat} {kind : ContextKind}
    {configuration : Uri} (sits : after.Sits id kind configuration) : before.Sits id kind configuration := by
  cases withdrawn with
  | same _ => exact sits
  | left owner context dropped loosened owned found =>
    rw [sits_prune (loosened.coherent.leave owner context document document).formed, sits_leave, loosened.sits] at sits
    exact sits.1

/-- A closing leaves a generated context its key unless the context owns the document. -/
theorem Withdrawn.target_of_synthesized (tidy : before.Tidy named known)
    (withdrawn : Withdrawn before document shut active after) {id : Nat} {configuration : Uri}
    (target : before.target? (.synthesized configuration) = some id) (other : before.ownerOf document ≠ some id) :
    after.target? (.synthesized configuration) = some id := by
  cases withdrawn with
  | same _ => exact target
  | left owner context dropped loosened owned found =>
    have left := loosened.coherent.leave owner context document document
    have kept : (dropped.leave owner context document document).target? (.synthesized configuration) = some id := by
      refine (target?_leave dropped owner context document document).mpr
        ⟨loosened.kept (by simp) target, by simp, ?_, by simp⟩
      rintro ⟨kind, same⟩
      cases same
      have own := tidy.leads owner _ ⟨context, found, kind, rfl⟩
      exact other (owned.trans (own.symm.trans target))
    exact (target?_prune_iff left active).mpr ⟨kept, left.outlives_synthesized active kept⟩

/-- A closing leaves real contexts the open documents that they track, but for the closed one. -/
theorem Withdrawn.pinned (withdrawn : Withdrawn before document shut active after) {id : Nat} {held : Uri}
    (pinned : before.Pinned id held) (apart : held ≠ document) (free : shut held = false) (open' : active held) :
    after.Pinned id held := by
  cases withdrawn with
  | same _ => exact pinned
  | left owner context dropped loosened owned found =>
    obtain ⟨tracks, configuration, sits⟩ := pinned
    have left := loosened.coherent.leave owner context document document
    have stays := (sits_leave dropped owner context document document).mpr (loosened.sits.mpr sits)
    have tracks' := (tracks_leave loosened.coherent owner context document document).mpr
      ⟨loosened.holds free tracks, fun same => apart same.2⟩
    have lives := left.outlives_real active stays tracks' open'
    exact ⟨(tracks_prune left.formed active).mpr ⟨tracks', lives⟩, configuration,
      (sits_prune left.formed active).mpr ⟨stays, lives⟩⟩

/-- The closing of a document ends the generated context that owns it. -/
theorem Withdrawn.ends (plain : Uri.Plain named) (coherent : before.Coherent) (tidy : before.Tidy named known)
    (name : named document) (withdrawn : Withdrawn before document shut active after) {id : Nat} {configuration : Uri}
    (sits : before.Sits id .synthesized configuration) (owned : before.ownerOf document = some id) :
    ¬ after.Sits id .synthesized configuration := by
  intro stays
  have leads := (withdrawn.tidy plain coherent tidy name).leads id configuration stays
  cases withdrawn with
  | same unowned => cases unowned.symm.trans owned
  | left owner context dropped loosened owned' found =>
    obtain rfl : owner = id := Option.some.inj (owned'.symm.trans owned)
    obtain ⟨other, met, kind, rfl⟩ := sits
    obtain rfl : context = other := Option.some.inj (found.symm.trans met)
    have left := loosened.coherent.leave owner context document document
    have kept := (target?_leave dropped owner context document document).mp ((target?_prune_iff left active).mp leads).1
    exact kept.2.2.1 ⟨kind, rfl⟩

end SpecServer.Registry
