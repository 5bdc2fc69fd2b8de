import SpecServer.Proofs.Registry.Survival
import SpecServer.Proofs.Workspace.Coherence
set_option autoImplicit false

/-!
When the context that the search for a document gives outlives the search. Where the document moves to it from
another context the registry is pruned, and with it goes the successor if nothing keeps it alive by then.
-/

namespace SpecServer

namespace Registry

variable {before settled : Registry} {document : Uri} {id old : Nat}

/-- A document that moves to a real context finds it alive after the pruning if any of its documents is open. -/
theorem Settled.outlives_real {choice : Choice} (coherent : before.Coherent)
    (settling : Settled before document choice id settled) (real : choice.kind = .real) (apart : old ≠ id)
    (active : Uri → Bool) (key : Uri) :
    (((settled.release old document).hold id key).prune active).2.Lives id ↔
      ∃ held, (before.Tracks id held ∨ held ∈ choice.taken ∨ held = key) ∧ active held := by
  have settled' := coherent.settled settling
  have released := settled'.release old document
  obtain ⟨configuration, sits, -⟩ := settling.sits_seat coherent
  rw [real, ← sits_release settled old document] at sits
  rw [(released.hold id key).outlives_real_iff active ((sits_hold _ _ _ _ _).mpr sits)]
  refine exists_congr fun held => and_congr_left fun _ => ?_
  rw [tracks_hold, tracks_release settled', settling.tracks]
  have lives := sits.lives
  constructor
  · rintro (⟨tracks | ⟨-, taken⟩, -⟩ | ⟨-, same, -⟩)
    · exact .inl tracks
    · exact .inr (.inl taken)
    · exact .inr (.inr same)
  · rintro (tracks | taken | same)
    · exact .inl ⟨.inl tracks, fun left => apart left.1.symm⟩
    · exact .inl ⟨.inr ⟨rfl, taken⟩, fun left => apart left.1.symm⟩
    · exact .inr ⟨rfl, same, lives⟩

/-- A document that moves to its generated context finds it alive after the pruning, unless the only key of that
context goes with the context before. -/
theorem Settled.outlives_generated {configuration : Uri} (coherent : before.Coherent)
    (settling : Settled before document (.generated configuration) id settled) (apart : old ≠ id) (active : Uri → Bool)
    (key : Uri) :
    (((settled.release old document).hold id key).prune active).2.Lives id ↔
      ¬(before.target? (.synthesized configuration) = some id ∧ before.Sits old .synthesized configuration ∧
        ∀ key, before.target? key = some id → key = .synthesized configuration) := by
  have settled' := coherent.settled settling
  have released := settled'.release old document
  have stays : ∀ configuration, settled.Sits old .synthesized configuration ↔ before.Sits old .synthesized configuration := by
    intro other
    rw [settling.sits, or_iff_left]
    rintro ⟨same, -⟩
    exact apart same
  obtain ⟨_, sits, own⟩ := settling.sits_seat coherent
  rw [own rfl, ← sits_release settled old document] at sits
  rw [outlives_synthesized_iff (released.hold id key).formed active ((sits_hold _ _ _ _ _).mpr sits)]
  simp only [target?_hold, target?_release settled', stays]
  constructor
  · rintro ⟨key, target, -, kept⟩ ⟨leads, shares, only⟩
    rw [settling.target] at target
    have none' : key ∉ (Choice.generated configuration).claims before document := by
      simp [Choice.claims, coherent.lookup.mpr leads]
    rw [if_neg none'] at target
    exact kept ⟨configuration, shares, only key target⟩
  · intro kept
    cases living : before.lookup (.synthesized configuration) with
    | none =>
      refine ⟨.input document, ?_, fun left => apart left.2.symm, by simp⟩
      rw [settling.target, if_pos]
      simp [Choice.claims, living]
    | some held =>
      have target : ∀ key, settled.target? key = before.target? key := by
        intro key
        rw [settling.target, if_neg]
        simp [Choice.claims, living]
      have seat := settling.seat
      simp only [Choice.seat, Choice.kind, Choice.configuration, living, Option.getD_some] at seat
      obtain rfl := seat
      -- without a key of its own besides, the context would be lost with that of its configuration
      refine Classical.byContradiction fun lost => kept ⟨coherent.lookup.mp living, ?_⟩
      have shared : ∀ key, before.target? key = some id →
          ∃ configuration, before.Sits old .synthesized configuration ∧ key = .synthesized configuration := by
        intro key leads
        refine Classical.byContradiction fun free => lost ⟨key, (target key).trans leads, fun left => apart left.2.symm, free⟩
      obtain ⟨_, shares, same⟩ := shared _ (coherent.lookup.mp living)
      cases same
      refine ⟨shares, fun key leads => ?_⟩
      obtain ⟨_, shares', same⟩ := shared key leads
      rw [same, (shares'.unique shares).2]

end Registry

namespace Workspace

-- the model's parser must not be unfolded to compare two keys
attribute [local irreducible] Uri.normalize

variable {workspace before after : Workspace} {document : Uri}

/-- Whether a context is lost by the move of a document to it. -/
inductive Forfeits (before : Workspace) (document : Uri) (id : Nat) : Prop
  /-- The context is real, and neither what it tracks nor the document is open. -/
  | shut (old : Nat) (choice : Choice) (previous : before.registry.lookup (.input document) = some old) (apart : old ≠ id)
      (chosen : before.choice? document = some choice) (real : choice.kind = .real)
      (idle : ∀ key, before.registry.Tracks id key ∨ key ∈ choice.taken ∨ key = document.normalize →
        ¬ before.store.isActive key) : Forfeits before document id
  /-- The context is the one generated for the document. Its only key is that of the configuration, which the
  context before has as well and takes with it. -/
  | keyless (old : Nat) (configuration : Uri) (previous : before.registry.lookup (.input document) = some old)
      (apart : old ≠ id) (chosen : before.choice? document = some (.generated configuration))
      (leads : before.registry.lookup (.synthesized configuration) = some id)
      (shares : before.registry.Sits old .synthesized configuration)
      (only : ∀ key, before.registry.lookup key = some id → key = .synthesized configuration) : Forfeits before document id

/-! ## What a search opens -/

theorem governing?_of_real {choice : Choice} (chosen : workspace.choice? document = some choice) (real : choice.kind = .real) :
    ∃ governs, workspace.governing? document = some governs := by
  cases governed : workspace.governing? document with
  | some governs => exact ⟨governs, rfl⟩
  | none =>
    simp only [choice?, governed, Option.map_eq_some_iff] at chosen
    obtain ⟨configuration, -, rfl⟩ := chosen
    cases real

/-- Only a generated configuration is opened by the search for a context. -/
theorem isActive_choose (formed : workspace.registry.WellFormed) {choice : Choice}
    (chosen : workspace.choice? document = some choice) (real : choice.kind = .real) :
    (workspace.choose document).2.store.isActive = workspace.store.isActive := by
  obtain ⟨governs, governed⟩ := governing?_of_real chosen real
  -- what the search in the folders gives opens nothing, and a search that gives nothing is not meant here
  have settles : ∀ {noted configuration result after}, Noted workspace noted →
      noted.resolveReal document configuration = (result, after) → after.store.isActive = workspace.store.isActive := by
    intro noted configuration result after note done
    have resolved := resolveReal_spec (note.alike.formed formed) document configuration
    rw [done] at resolved
    cases resolved with
    | failed _ _ alike => exact Store.isActive_congr (note.alike.trans alike).status
    | foreign _ _ _ alike _ _ => exact Store.isActive_congr (note.alike.trans alike).status
    | settled _ _ _ _ _ _ _ grows => exact (grows fun _ => False).isActive_eq.trans (Store.isActive_congr note.status)
  have searched := choose_cases formed document
  generalize workspace.choose document = outcome at searched
  cases searched with
  | undetected _ _ note => exact Store.isActive_congr note.status
  | alone _ _ nothing => cases governed.symm.trans nothing
  | unloaded _ _ _ _ note failed => exact settles note failed
  | governed _ _ _ _ note settled => exact settles note settled
  | foreign _ _ _ _ _ nothing => cases governed.symm.trans nothing

private theorem isActive_resolve (sound : workspace.Sound) {uri : Uri} {choice : Choice}
    (chosen : workspace.choice? uri.normalize = some choice) (real : choice.kind = .real) :
    (workspace.resolve uri).2.store.isActive = workspace.store.isActive := by
  have kept := isActive_choose sound.formed chosen real
  have searched := choose_spec sound.formed uri.normalize
  have resolves := resolve_cases workspace uri
  generalize workspace.resolve uri = outcome at resolves ⊢
  cases resolves with
  | failed error after done => simpa only [done] using kept
  | stayed id after done _ => simpa only [done] using kept
  | left id settled old done _ _ =>
    rw [done] at kept searched
    cases searched with
    | settled _ _ _ _ _ grows =>
      exact (Store.isActive_congr (release_spec (grows.keyed sound.keyed) old _ id).2).trans kept

/-! ## The successor -/

private theorem lives_resolved {id : Nat} (coherent : before.registry.outline.Coherent)
    (resolved : Resolved before document (.ok id) after)
    (still : ∀ choice, before.choice? document = some choice → choice.kind = .real →
      after.store.isActive = before.store.isActive) :
    after.registry.Lives id ↔ ¬ before.Forfeits document id := by
  cases resolved with
  | stayed choice _ _ chosen moved previous grows =>
    have settling := Registry.settled_of_settle coherent.formed moved
    refine iff_of_true (Registry.lives_outline.mp settling.lives) fun forfeits => ?_
    cases forfeits with
    | shut old _ found apart => exact apart (previous old found)
    | keyless old _ found apart => exact apart (previous old found)
  | left choice _ settled old _ chosen moved previous apart outline grows =>
    have settling := Registry.settled_of_settle coherent.formed moved
    have formed := ((coherent.settled settling).release old document).formed
    have held : (after.registry.outline.Lives id ↔
        (((settled.release old document).hold id document.normalize).prune after.store.isActive).2.Lives id) := by
      rw [outline]
      split
      next => rfl
      next unknown =>
        have shut : ¬ after.store.isActive document.normalize := fun active => unknown (Store.known_of_isActive active)
        exact (Registry.lives_prune_hold formed shut).symm
    rw [← Registry.lives_outline, held]
    cases kind : choice.kind with
    | real =>
      rw [settling.outlives_real coherent kind apart, still choice chosen kind]
      constructor
      · rintro ⟨key, keeps, active⟩ forfeits
        rw [Registry.tracks_outline] at keeps
        cases forfeits with
        | shut _ _ _ _ chosen' _ idle =>
          cases chosen.symm.trans chosen'
          exact idle key keeps active
        | keyless _ _ _ _ chosen' =>
          cases chosen.symm.trans chosen'
          cases kind
      · intro kept
        refine Classical.byContradiction fun none => kept (.shut old choice previous apart chosen kind ?_)
        intro key keeps active
        rw [← Registry.tracks_outline] at keeps
        exact none ⟨key, keeps, active⟩
    | synthesized =>
      cases choice with
      | own inputs => cases kind
      | declared configuration => cases kind
      | generated configuration =>
        rw [settling.outlives_generated coherent apart]
        refine not_congr ?_
        simp only [← coherent.lookup, Registry.lookup_outline, Registry.sits_outline]
        constructor
        · rintro ⟨leads, shares, only⟩
          exact .keyless old configuration previous apart chosen leads shares only
        · intro forfeits
          cases forfeits with
          | shut _ _ _ _ chosen' real =>
            cases chosen.symm.trans chosen'
            cases real
          | keyless other _ previous' _ chosen' leads shares only =>
            cases chosen.symm.trans chosen'
            cases previous.symm.trans previous'
            exact ⟨leads, shares, only⟩

/-- In whatever state the server is, the context that the search for a document gives lives afterwards, unless the
move of the document forfeits it. -/
theorem lives_resolved_iff (disk : Disk) (events : List Event) (uri : Uri) (id : Nat)
    (chosen : ((reached disk events).resolve uri).1 = .ok id) :
    ((reached disk events).resolve uri).2.registry.Lives id ↔ ¬ (reached disk events).Forfeits uri.normalize id := by
  have sound := sound_reached disk events
  have resolved := resolve_spec sound.formed sound.keyed uri
  rw [chosen] at resolved
  exact lives_resolved (coherent_reached disk events) resolved fun _ => isActive_resolve sound

/-- A folder whose configuration declares a document in it. -/
def nestedDisk : Disk :=
  ⟨[(["s".toUTF8.toList], .folder),
    (["s".toUTF8.toList, "readme.md".toUTF8.toList], .file "#see https://aka.ms/autorest\ninput-file: x".toUTF8.toList)]⟩

def nestedDocument : Uri := ⟨"file".toList, some ⟨[], [], none⟩, "/s/x".toList, none, none⟩

/-- The configuration above is open, and declares the document as well. -/
def nestedRun : List Event :=
  [.edit topConfiguration "markdown" "#see https://aka.ms/autorest\ninput-file: s/x"]

private theorem resolve_nestedDocument :
    ((reached nestedDisk nestedRun).resolve nestedDocument).1.toOption = some 1 ∧
      ((reached nestedDisk nestedRun).resolve nestedDocument).2.registry.contexts.has 1 = false := by
  decide +kernel

theorem lives_resolved_iff_sample :
    ((reached nestedDisk nestedRun).resolve nestedDocument).1 = .ok 1 ∧
      (((reached nestedDisk nestedRun).resolve nestedDocument).2.registry.Lives 1 ↔
        ¬ (reached nestedDisk nestedRun).Forfeits nestedDocument.normalize 1) := by
  have chosen := ok_of_toOption resolve_nestedDocument.1
  exact ⟨chosen, lives_resolved_iff nestedDisk nestedRun nestedDocument 1 chosen⟩

/-- A search may give a context that lives no longer. -/
theorem not_always_living :
    ¬ ∀ (disk : Disk) (events : List Event) (uri : Uri) (id : Nat),
      ((reached disk events).resolve uri).1 = .ok id → ((reached disk events).resolve uri).2.registry.Lives id := by
  intro always
  obtain ⟨context, found⟩ := always nestedDisk nestedRun nestedDocument 1 (ok_of_toOption resolve_nestedDocument.1)
  have lost : (((reached nestedDisk nestedRun).resolve nestedDocument).2.registry.get? 1).isSome = false :=
    resolve_nestedDocument.2
  rw [found] at lost
  cases lost

end Workspace

end SpecServer
