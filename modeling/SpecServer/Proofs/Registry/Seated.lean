import SpecServer.Proofs.Registry.Survival
set_option autoImplicit false

/-!
Documents that have settled. Once a document has its seat, whether it stayed there or moved there from another context,
settling it by the same choice finds the context again and changes nothing.
-/

namespace SpecServer.Registry

variable {registry before settled : Registry} {document : Uri} {choice : Choice} {id old : Nat}

/-- Whether a document has its seat: it is found there again, and the context has all that the choice gives it. -/
structure Seated (registry : Registry) (document : Uri) (choice : Choice) (id : Nat) : Prop where
  seat : registry.lookup (choice.seat document) = some id
  taken : ∀ key ∈ choice.taken, registry.Tracks id key
  claims : ∀ key ∈ choice.claims registry document, registry.target? key = some id
  own : registry.Tracks id document
  previous : ∀ old, registry.lookup (.input document) = some old → old = id

/-- The key of the seat leads to the context that a document settles in. -/
theorem Settled.target_seat (coherent : before.Coherent) (settling : Settled before document choice id settled) :
    settled.target? (choice.seat document) = some id := by
  have seat := settling.seat
  cases choice with
  | own inputs =>
    show settled.target? (.folder document.folder) = some id
    rw [settling.target, if_pos (by simp [Choice.claims])]
  | declared configuration =>
    show settled.target? (.folder configuration.folder) = some id
    rw [settling.target, if_pos (by simp [Choice.claims])]
  | generated configuration =>
    show settled.target? (.synthesized configuration) = some id
    rw [settling.target]
    replace seat : id = (before.lookup (.synthesized configuration)).getD before.nextId := seat
    cases living : before.lookup (.synthesized configuration) with
    | none => rw [if_pos (by simp [Choice.claims, living])]
    | some held =>
      rw [living, Option.getD_some] at seat
      subst seat
      rw [if_neg (by simp [Choice.claims, living])]
      exact coherent.lookup.mp living

/-- The keys that a document claims once it has its seat are those that it claimed before. -/
theorem Settled.target_of_claimed (settling : Settled before document choice id settled) {registry : Registry}
    (seat : registry.lookup (choice.seat document) = some id) {key : ContextKey}
    (claimed : key ∈ choice.claims registry document) :
    settled.target? key = some id ∧ ∀ configuration, key ≠ .synthesized configuration := by
  rw [settling.target]
  cases choice with
  | own inputs =>
    refine ⟨if_pos claimed, ?_⟩
    rintro configuration rfl
    simp [Choice.claims] at claimed
  | declared configuration =>
    refine ⟨if_pos claimed, ?_⟩
    rintro other rfl
    simp [Choice.claims] at claimed
  | generated configuration =>
    simp only [Choice.seat, Choice.kind, Choice.configuration] at seat
    simp [Choice.claims, seat] at claimed

theorem Settled.seated_stayed (coherent : before.Coherent) (settling : Settled before document choice id settled)
    (previous : ∀ old, before.target? (.input document) = some old → old = id) :
    (settled.hold id document).Seated document choice id := by
  have held := (coherent.settled settling).hold id document
  have seat : (settled.hold id document).lookup (choice.seat document) = some id :=
    held.lookup.mpr ((target?_hold settled id document _).trans (settling.target_seat coherent))
  refine ⟨seat, fun key member => ?_, fun key claimed => ?_, ?_, fun other found => ?_⟩
  · exact tracks_hold.mpr (.inl (settling.tracks.mpr (.inr ⟨rfl, member⟩)))
  · rw [target?_hold]
    exact (settling.target_of_claimed seat claimed).1
  · exact tracks_hold.mpr (.inr ⟨rfl, rfl, settling.lives⟩)
  · rw [held.lookup, target?_hold, settling.target] at found
    split at found
    · exact (Option.some.inj found).symm
    · exact previous other found

/-- A document that moves from one context to another has its seat there, if it is open and the key of a generated
context that it leaves led to that one. -/
theorem Settled.seated_moved (coherent : before.Coherent) (settling : Settled before document choice id settled)
    (previous : before.target? (.input document) = some old) (apart : old ≠ id)
    (keyed : ∀ configuration, before.Sits old .synthesized configuration →
      before.lookup (.synthesized configuration) = some old)
    {active : Uri → Bool} (open' : active document) :
    ((((settled.release old document).hold id document).prune active).2.hold id document).Seated document choice id := by
  have settled' := coherent.settled settling
  have held := (settled'.release old document).hold id document
  have final := (held.prune active).hold id document
  have seat := settling.target_seat coherent
  -- the context that the document leaves has not the seat of the document
  have free : ∀ configuration, settled.Sits old .synthesized configuration →
      choice.seat document ≠ .synthesized configuration := by
    intro configuration sits same
    have leads : before.lookup (choice.seat document) = some old := by
      rw [same]
      refine keyed configuration (settling.sits.mp sits |>.resolve_right fun ⟨equal, _⟩ => apart equal)
    have number := settling.seat
    rw [leads, Option.getD_some] at number
    exact apart number.symm
  have kept : ∀ {key}, settled.target? key = some id →
      (∀ configuration, settled.Sits old .synthesized configuration → key ≠ .synthesized configuration) →
      ((settled.release old document).hold id document).target? key = some id := by
    intro key target spared
    rw [target?_hold, target?_release settled']
    exact ⟨target, fun left => apart left.2.symm, fun ⟨configuration, sits, same⟩ => spared configuration sits same⟩
  have tracks : ((settled.release old document).hold id document).Tracks id document :=
    tracks_hold.mpr (.inr ⟨rfl, rfl, (sits_release settled old document).mpr
      (settling.sits_seat coherent).choose_spec.1 |>.lives⟩)
  have lives : (((settled.release old document).hold id document).prune active).2.Lives id := by
    obtain ⟨configuration, sits, own⟩ := settling.sits_seat coherent
    have stays := (@sits_hold (settled.release old document) id id document _ _).mpr
      ((sits_release settled old document).mpr sits)
    cases kind : choice.kind with
    | real =>
      rw [kind] at stays
      exact held.outlives_real active stays tracks open'
    | synthesized =>
      have named : choice.seat document = .synthesized (choice.configuration document) := by rw [Choice.seat, kind]
      exact held.outlives_synthesized active (named ▸ kept seat free)
  have stays : ∀ {key}, settled.target? key = some id →
      (∀ configuration, settled.Sits old .synthesized configuration → key ≠ .synthesized configuration) →
      ((((settled.release old document).hold id document).prune active).2.hold id document).target? key = some id := by
    intro key target spared
    rw [target?_hold, target?_prune_iff held]
    exact ⟨kept target spared, lives⟩
  have seated := final.lookup.mpr (stays seat free)
  refine ⟨seated, fun key member => ?_, fun key claimed => ?_, ?_, fun other found => ?_⟩
  · have takes : settled.Tracks id key := settling.tracks.mpr (.inr ⟨rfl, member⟩)
    have stayed : (settled.release old document).Tracks id key :=
      (tracks_release settled').mpr ⟨takes, fun left => apart left.1.symm⟩
    exact tracks_hold.mpr (.inl ((tracks_prune held.formed active).mpr ⟨tracks_hold.mpr (.inl stayed), lives⟩))
  · obtain ⟨target, plain⟩ := settling.target_of_claimed seated claimed
    exact stays target fun configuration _ => plain configuration
  · exact tracks_hold.mpr (.inr ⟨rfl, rfl, lives⟩)
  · rw [final.lookup, target?_hold, target?_prune_iff held, target?_hold, target?_release settled', settling.target] at found
    obtain ⟨⟨target, gone, -⟩, -⟩ := found
    split at target
    · exact (Option.some.inj target).symm
    · exact absurd ⟨rfl, Option.some.inj (target.symm.trans previous)⟩ gone

end SpecServer.Registry
