import SpecServer.Proofs.Registry.Tracking
import SpecServer.Proofs.Workspace.Coherence
set_option autoImplicit false

/-!
When a document is tracked by one context at most. Only an edit can end that: the context that the edited
document settles in takes documents without asking whether another context tracks them, and only the edited
document itself is released by the context it was an input of.
-/

namespace SpecServer.Workspace

/-- Whether no two living contexts track a document. -/
def Exclusive (workspace : Workspace) (document : Uri) : Prop :=
  ∀ id other, workspace.registry.Tracks id document → workspace.registry.Tracks other document → id = other

/-- Whether an edit makes a context take a document that another one tracks and does not let go of. The edited
document comes under the form that its context is looked for. -/
structure Contest (before : Workspace) (uri : Uri) (language text : String) (choice : Choice) (other : Nat)
    (document : Uri) : Prop where
  /-- The edit is handled to its end, and the edited document settles by this choice. -/
  analysed : isAnalysed language = true
  done : (before.edit uri language text).1 = .ok ()
  chosen : (before.opened uri text).choice? uri.normalize.normalize = some choice
  /-- The document is the edited one or one that its context takes with it. -/
  takes : document = uri.normalize.normalize.normalize ∨ document ∈ choice.taken
  /-- Another context tracks the document already. -/
  apart : other ≠ (before.registry.seat uri.normalize.normalize choice).1
  held : before.registry.Tracks other document
  /-- That is not the context which the edited document was an input of, or the document is not the edited one. -/
  keeps : ¬(before.registry.lookup (.input uri.normalize.normalize) = some other ∧ document = uri.normalize.normalize)
  /-- Both contexts outlive the edit. -/
  outlives : (before.edit uri language text).2.registry.Lives other
  settles : (before.edit uri language text).2.registry.Lives (before.registry.seat uri.normalize.normalize choice).1

/-- Whether an event makes a second context track a document. -/
def Contested (before : Workspace) (document : Uri) : Event → Prop
  | .edit uri language text => ∃ choice other, Contest before uri language text choice other document
  | _ => False

/-! ## One step -/

private theorem seat_outline (registry : Registry) (document : Uri) (choice : Choice) :
    (registry.outline.seat document choice).1 = (registry.seat document choice).1 := by
  rw [Registry.seat_id, Registry.seat_id, Registry.lookup_outline, Registry.outline_nextId]

private theorem tracks_settled {before settled : Registry} {document : Uri} {choice : Choice} {id : Nat}
    (coherent : before.Coherent) (settles : before.settle document choice = (id, settled)) :
    id = (before.seat document choice).1 ∧ settled.Lives id ∧
      ∀ other key, settled.Tracks other key ↔ before.Tracks other key ∨ (other = id ∧ key ∈ choice.taken) := by
  have settling := Registry.settled_of_settle coherent.formed settles
  refine ⟨?_, settling.lives, fun _ _ => settling.tracks⟩
  rw [Registry.seat_id]
  exact settling.seat

/-- After an edit that was handled to its end, the context of the document tracks it and what it takes with it;
the context it was an input of tracks it no longer, and all else is as before as far as contexts outlive it. -/
theorem tracks_edited {before after : Workspace} {document : Uri} {analysed : Bool} {choice? : Option Choice}
    (coherent : before.registry.outline.Coherent) (edited : Edited before document analysed choice? (.ok ()) after)
    (analyses : analysed = true) :
    ∃ choice, choice? = some choice ∧ ∀ other key, after.registry.Tracks other key ↔ after.registry.Lives other ∧
      ((before.registry.Tracks other key ∧
          ¬(other ≠ (before.registry.seat document choice).1 ∧ before.registry.lookup (.input document) = some other ∧
            key = document)) ∨
        (other = (before.registry.seat document choice).1 ∧ (key = document.normalize ∨ key ∈ choice.taken))) := by
  cases edited with
  | ignored _ unanalysed _ => cases analyses.symm.trans unanalysed
  | stayed choice id settled _ _ chosen settles previous outline _ _ =>
    obtain ⟨number, lives, tracks⟩ := tracks_settled coherent settles
    rw [seat_outline] at number
    refine ⟨choice, chosen, fun other key => ?_⟩
    rw [← number, ← Registry.tracks_outline, ← Registry.lives_outline, outline, Registry.tracks_hold, tracks,
      Registry.hold, Registry.lives_modify, Registry.tracks_outline]
    constructor
    · rintro ((held | ⟨rfl, taken⟩) | ⟨rfl, same, -⟩)
      · have living : settled.Lives other := ((tracks other key).mpr (.inl (Registry.tracks_outline.mpr held))).lives
        refine ⟨living, .inl ⟨held, ?_⟩⟩
        rintro ⟨apart, found, -⟩
        exact apart (previous other found)
      · exact ⟨lives, .inr ⟨rfl, .inr taken⟩⟩
      · exact ⟨lives, .inr ⟨rfl, .inl same⟩⟩
    · rintro ⟨-, ⟨held, -⟩ | ⟨rfl, same | taken⟩⟩
      · exact .inl (.inl held)
      · exact .inr ⟨rfl, same, lives⟩
      · exact .inl (.inr ⟨rfl, taken⟩)
  | left choice id settled old _ _ chosen settles previous apart outline _ _ =>
    obtain ⟨number, lives, tracks⟩ := tracks_settled coherent settles
    have released := (coherent_settled coherent settles).release old document
    rw [seat_outline] at number
    refine ⟨choice, chosen, fun other key => ?_⟩
    rw [← number, ← Registry.tracks_outline, ← Registry.lives_outline, outline, Registry.hold, Registry.lives_modify,
      ← Registry.hold, Registry.tracks_hold, Registry.tracks_prune (released.hold _ _).formed, Registry.tracks_hold,
      Registry.tracks_release (coherent_settled coherent settles), tracks, Registry.tracks_outline]
    generalize (((settled.release old document).hold id document.normalize).prune after.store.isActive).2 = pruned
    constructor
    · rintro (⟨⟨held | ⟨rfl, taken⟩, kept⟩ | ⟨rfl, same, -⟩, outlives⟩ | ⟨rfl, same, outlives⟩)
      · refine ⟨outlives, .inl ⟨held, ?_⟩⟩
        rintro ⟨-, found, same⟩
        exact kept ⟨Option.some.inj (found.symm.trans previous), same⟩
      · exact ⟨outlives, .inr ⟨rfl, .inr taken⟩⟩
      · exact ⟨outlives, .inr ⟨rfl, .inl same⟩⟩
      · exact ⟨outlives, .inr ⟨rfl, .inl same⟩⟩
    · rintro ⟨outlives, ⟨held, kept⟩ | ⟨rfl, same | taken⟩⟩
      · refine .inl ⟨.inl ⟨.inl held, ?_⟩, outlives⟩
        rintro ⟨rfl, same⟩
        exact kept ⟨apart, previous, same⟩
      · exact .inr ⟨rfl, same, outlives⟩
      · refine .inl ⟨.inl ⟨.inr ⟨rfl, taken⟩, ?_⟩, outlives⟩
        rintro ⟨same, -⟩
        exact apart same.symm

private theorem tracks_of_closed {before after : Workspace} {document : Uri}
    (coherent : before.registry.outline.Coherent)
    (closed : Closed before document after) {id : Nat} {key : Uri} (tracks : after.registry.Tracks id key) :
    before.registry.Tracks id key := by
  cases closed with
  | unknown _ same => exact same ▸ tracks
  | unowned _ outline _ =>
    rw [← Registry.tracks_outline, outline, Registry.tracks_outline] at tracks
    exact tracks
  | owned owner context inputs _ _ outline _ =>
    rw [← Registry.tracks_outline, outline] at tracks
    split at tracks
    · have dropped := coherent.foldl_drop owner (isShut before.store) inputs
      have left := ((Registry.tracks_prune (dropped.leave owner context document document.normalize).formed _).mp tracks).1
      exact Registry.tracks_outline.mp (Registry.tracks_of_foldl_drop (Registry.tracks_of_leave left))
    · have left := ((Registry.tracks_prune (coherent.leave owner context document document.normalize).formed _).mp tracks).1
      exact Registry.tracks_outline.mp (Registry.tracks_of_leave left)

private theorem exclusive_of_fewer {before after : Workspace} {document : Uri} (exclusive : before.Exclusive document)
    (fewer : ∀ id, after.registry.Tracks id document → before.registry.Tracks id document) : after.Exclusive document :=
  fun id other tracks tracks' => exclusive id other (fewer id tracks) (fewer other tracks')

private theorem tracks_of_outline_eq {before after : Workspace}
    (same : after.registry.outline = before.registry.outline)
    {id : Nat} {key : Uri} (tracks : after.registry.Tracks id key) : before.registry.Tracks id key := by
  rw [← Registry.tracks_outline, same, Registry.tracks_outline] at tracks
  exact tracks

private theorem exclusive_edited_iff {before after : Workspace} {uri : Uri} {language text : String}
    {result : Except WorkspaceError Unit} (coherent : before.registry.outline.Coherent)
    (done : before.edit uri language text = (result, after))
    (edited : Edited before uri.normalize.normalize (isAnalysed language)
      ((before.opened uri text).choice? uri.normalize.normalize) result after)
    {document : Uri} (exclusive : before.Exclusive document) :
    after.Exclusive document ↔ ¬ Contested before document (.edit uri language text) := by
  by_cases handled : result = .ok () ∧ isAnalysed language = true
  · obtain ⟨rfl, analysed⟩ := handled
    obtain ⟨choice, chosen, tracks⟩ := tracks_edited coherent edited analysed
    constructor
    · rintro alone ⟨picked, other, contest⟩
      have same : picked = choice := Option.some.inj (contest.chosen.symm.trans chosen)
      subst same
      have outlives := contest.outlives
      have settles := contest.settles
      rw [done] at outlives settles
      refine contest.apart (alone other _ ((tracks _ _).mpr ⟨outlives, .inl ⟨contest.held, ?_⟩⟩)
        ((tracks _ _).mpr ⟨settles, .inr ⟨rfl, contest.takes⟩⟩))
      rintro ⟨-, found, same⟩
      exact contest.keeps ⟨found, same⟩
    · intro calm id other first second
      -- of two contexts that track the document, one is new to it: the one where the edited document settles
      have fresh : ∀ rival, after.registry.Tracks (before.registry.seat uri.normalize.normalize choice).1 document →
          after.registry.Tracks rival document → rival = (before.registry.seat uri.normalize.normalize choice).1 := by
        intro rival here there
        refine Decidable.byContradiction fun apart => ?_
        obtain ⟨outlives, ⟨held, keeps⟩ | ⟨same, -⟩⟩ := (tracks rival document).mp there
        · obtain ⟨settles, ⟨before', -⟩ | ⟨-, takes⟩⟩ := (tracks _ document).mp here
          · exact apart (exclusive _ _ held before')
          · refine calm ⟨choice, rival, analysed, by rw [done], chosen, takes, apart, held, ?_, ?_, ?_⟩
            · rintro ⟨found, same⟩
              exact keeps ⟨apart, found, same⟩
            · rw [done]
              exact outlives
            · rw [done]
              exact settles
        · exact apart same
      by_cases here : id = (before.registry.seat uri.normalize.normalize choice).1
      · subst here
        exact (fresh other first second).symm
      · by_cases there : other = (before.registry.seat uri.normalize.normalize choice).1
        · subst there
          exact fresh id second first
        · obtain ⟨-, ⟨held, -⟩ | ⟨same, -⟩⟩ := (tracks id document).mp first
          · obtain ⟨-, ⟨held', -⟩ | ⟨same, -⟩⟩ := (tracks other document).mp second
            · exact exclusive _ _ held held'
            · exact absurd same there
          · exact absurd same here
  · have calm : ¬ Contested before document (.edit uri language text) := by
      rintro ⟨choice, other, contest⟩
      exact handled ⟨by simpa only [done] using contest.done, contest.analysed⟩
    refine iff_of_true (exclusive_of_fewer exclusive fun id tracks => ?_) calm
    cases edited with
    | ignored _ _ alike => exact tracks_of_outline_eq alike.outline tracks
    | failed _ _ outline _ => exact tracks_of_outline_eq outline tracks
    | stayed _ _ _ _ analysed _ _ _ _ _ _ => exact absurd ⟨rfl, analysed⟩ handled
    | left _ _ _ _ _ analysed _ _ _ _ _ _ _ => exact absurd ⟨rfl, analysed⟩ handled

/-- Of all steps but savings, exactly the contested edits end exclusiveness. -/
theorem exclusive_step_iff {before after : Workspace} {event : Event} (coherent : before.registry.outline.Coherent)
    (silent : event.isSave = false) (stepped : Stepped before event after) {document : Uri}
    (exclusive : before.Exclusive document) : after.Exclusive document ↔ ¬ Contested before document event := by
  cases stepped with
  | quiet _ _ still alike =>
    refine iff_of_true (exclusive_of_fewer exclusive fun _ => tracks_of_outline_eq alike.outline) ?_
    cases event with
    | edit _ _ _ => cases still
    | _ => exact not_false
  | edited _ _ _ _ _ done edited => exact exclusive_edited_iff coherent done edited exclusive
  | closed _ _ closed =>
    exact iff_of_true (exclusive_of_fewer exclusive fun _ => tracks_of_closed coherent closed) not_false
  | saved => cases silent

/-! ## Runs -/

/-- The states of a run are all exclusive, its start being so, exactly if no step of it is contested. -/
theorem exclusive_run_iff {workspace : Workspace} (sound : workspace.Sound)
    (coherent : workspace.registry.outline.Coherent) {document : Uri} (exclusive : workspace.Exclusive document)
    {events : List Event} (silent : ∀ event ∈ events, event.isSave = false) :
    (∀ front, front <+: events → (workspace.run front).Exclusive document) ↔
      ∀ front event back, events = front ++ event :: back → ¬ (workspace.run front).Contested document event := by
  induction events generalizing workspace with
  | nil =>
    refine iff_of_true (fun front shorter => ?_) fun front event back split => ?_
    · rw [List.prefix_nil.mp shorter]
      exact exclusive
    · simp at split
  | cons event rest ih =>
    obtain ⟨quiet, later⟩ := List.forall_mem_cons.mp silent
    have stepped := step_spec sound event
    have single := exclusive_step_iff coherent quiet stepped exclusive
    by_cases contested : workspace.Contested document event
    · refine iff_of_false (fun all => ?_) fun calm => ?_
      · exact single.mp (all [event] (List.cons_prefix_cons.mpr ⟨rfl, List.nil_prefix⟩)) contested
      · exact calm [] event rest rfl contested
    · have next := ih (sound.stepped stepped) (coherent_stepped stepped coherent) (single.mpr contested) later
      constructor
      · intro all front other back split
        cases front with
        | nil =>
          obtain ⟨rfl, -⟩ := List.cons.inj split
          exact contested
        | cons first front =>
          obtain ⟨rfl, tail⟩ := List.cons.inj split
          exact next.mp (fun front shorter => all (event :: front) (List.cons_prefix_cons.mpr ⟨rfl, shorter⟩))
            front other back tail
      · intro calm front shorter
        cases front with
        | nil => exact exclusive
        | cons first front =>
          obtain ⟨rfl, inside⟩ := List.cons_prefix_cons.mp shorter
          refine next.mpr (fun front other back split => ?_) front inside
          exact calm (first :: front) other back (congrArg (List.cons first) split)

/-- In every state of a run without savings at most one living context tracks a document exactly if no edit of
the run is contested for it. -/
theorem exclusive_reached_iff (disk : Disk) (events : List Event) (silent : ∀ event ∈ events, event.isSave = false)
    (document : Uri) :
    (∀ front, front <+: events → (reached disk front).Exclusive document) ↔
      ∀ front event back, events = front ++ event :: back → ¬ (reached disk front).Contested document event := by
  refine exclusive_run_iff (sound_start disk) Registry.coherent_empty ?_ silent
  rintro id other ⟨context, found, -⟩
  cases found

theorem exclusive_reached_iff_sample :
    (∀ event ∈ sampleRun, event.isSave = false) ∧
      ((∀ front, front <+: sampleRun → (reached Disk.empty front).Exclusive sampleDocument) ↔
        ∀ front event back, sampleRun = front ++ event :: back →
          ¬ (reached Disk.empty front).Contested sampleDocument event) :=
  ⟨by decide, exclusive_reached_iff Disk.empty sampleRun (by decide) sampleDocument⟩

/-- A document that is the configuration of no context may still be tracked by two. -/
theorem not_always_exclusive :
    ¬ ∀ (disk : Disk) (events : List Event) (document : Uri),
      (∀ event ∈ events, event.isOfDocuments = true) →
      (∀ entry ∈ (reached disk events).registry.contexts, entry.2.configuration ≠ document) →
      (reached disk events).Exclusive document := by
  intro always
  have runs : (∀ entry ∈ (reached Disk.empty sampleRun).registry.contexts, entry.2.configuration ≠ sampleDocument) ∧
      (reached Disk.empty sampleRun).registry.Tracks 0 sampleDocument ∧
      (reached Disk.empty sampleRun).registry.Tracks 1 sampleDocument := by
    decide +kernel
  exact absurd (always Disk.empty sampleRun sampleDocument (by decide) runs.1 0 1 runs.2.1 runs.2.2) (by decide)

end SpecServer.Workspace
