import SpecServer.Proofs.Registry.Seated
import SpecServer.Proofs.Store.Still
import SpecServer.Proofs.Workspace.Refreshing
set_option autoImplicit false

/-!
Steps that change nothing but what is counted, shown and told: tracking what is tracked, letting a key lead to where it
leads, loading a configuration that is kept, and passes that read nothing new.
-/

namespace SpecServer

-- neither the model's parser nor the disk must be unfolded
attribute [local irreducible] Uri.normalize Store.load

/-- A context without the record of its last pass. -/
def Context.face (context : Context) : Context :=
  { context with processed := none }

private theorem Context.eq_of_face {context later : Context} (same : later.face = context.face) :
    ∃ processed, later = { context with processed := processed } := by
  refine ⟨later.processed, ?_⟩
  simp only [Context.face, Context.mk.injEq, and_true] at same
  obtain ⟨configuration, kind, session, tracked, activated⟩ := same
  rw [← configuration, ← kind, ← session, ← tracked, ← activated]

theorem Context.track_of_tracked {context : Context} {key : Uri} (tracked : key ∈ context.tracked) :
    context.track key = context := by
  have tracking : context.isTracking key = true := List.contains_iff_mem.mpr tracked
  rw [Context.track, if_pos tracking]

theorem Session.addInput_of_known {session : Session} {uri : Uri} (known : uri.normalize ∈ session.known) :
    session.addInput uri = session := by
  rw [Session.addInput, if_pos (List.contains_iff_mem.mpr known)]

/-- Whether a pass over a session reads nothing new and finds what the session holds already. -/
def Session.Rests (store : Store) (session : Session) : Prop :=
  ∀ kept, store.Still kept → (session.process Store.source kept).2 = (session, kept)

theorem Session.Rests.still {store later : Store} {session : Session} (rests : session.Rests store)
    (still : store.Still later) : session.Rests later :=
  fun kept same => rests kept (still.trans same)

namespace Workspace

variable {workspace before after : Workspace}

/-- Whether a workspace has the same contexts but for the records of passes, the same keys, and the same documents but
for what is counted and shown. -/
structure Idles (before after : Workspace) : Prop where
  contexts : ∀ id, (after.registry.get? id).map Context.face = (before.registry.get? id).map Context.face
  targets : ∀ key, after.registry.target? key = before.registry.target? key
  store : before.store.Still after.store
  formed : before.registry.WellFormed → after.registry.WellFormed

theorem Idles.rfl : Idles workspace workspace := ⟨fun _ => .refl _, fun _ => .refl _, .rfl, id⟩

theorem Idles.trans {first second third : Workspace} (left : Idles first second) (right : Idles second third) :
    Idles first third :=
  ⟨fun id => (right.contexts id).trans (left.contexts id), fun key => (right.targets key).trans (left.targets key),
    left.store.trans right.store, right.formed ∘ left.formed⟩

theorem Idles.find (idles : Idles before after) {id : Nat} {context : Context}
    (found : before.registry.get? id = some context) :
    ∃ processed, after.registry.get? id = some { context with processed := processed } := by
  have same := idles.contexts id
  rw [found, Option.map_some] at same
  obtain ⟨later, stored, alike⟩ := Option.map_eq_some_iff.mp same
  obtain ⟨processed, rfl⟩ := Context.eq_of_face alike
  exact ⟨processed, stored⟩

theorem Idles.found (idles : Idles before after) {id : Nat} {later : Context}
    (found : after.registry.get? id = some later) :
    ∃ processed, before.registry.get? id = some { later with processed := processed } := by
  have same := idles.contexts id
  rw [found, Option.map_some] at same
  obtain ⟨context, stored, alike⟩ := Option.map_eq_some_iff.mp same.symm
  obtain ⟨processed, rfl⟩ := Context.eq_of_face alike
  exact ⟨processed, stored⟩

theorem Idles.lookup (idles : Idles before after) (key : ContextKey) :
    after.registry.lookup key = before.registry.lookup key := by
  have same : after.registry.contexts.has = before.registry.contexts.has := by
    funext id
    have here := congrArg Option.isSome (idles.contexts id)
    rwa [Option.isSome_map, Option.isSome_map] at here
  rw [Registry.lookup, Registry.lookup, idles.targets key, same]

theorem Idles.tracks (idles : Idles before after) {id : Nat} {key : Uri} (tracks : before.registry.Tracks id key) :
    after.registry.Tracks id key := by
  obtain ⟨context, found, member⟩ := tracks
  obtain ⟨processed, stored⟩ := idles.find found
  exact ⟨_, stored, member⟩

/-! ## Single steps -/

theorem idles_of_store (registry : after.registry = workspace.registry) (still : workspace.store.Still after.store) :
    Idles workspace after := by
  refine ⟨fun id => ?_, fun key => ?_, still, fun formed => registry.symm ▸ formed⟩
  · rw [registry]
  · rw [registry]

theorem idles_log (workspace : Workspace) (level : LogLevel) (text : String) :
    Idles workspace (workspace.log level text) :=
  idles_of_store rfl .rfl

theorem idles_modifyContext {id : Nat} {change : Context → Context}
    (same : ∀ context, workspace.registry.get? id = some context → (change context).face = context.face) :
    Idles workspace (workspace.modifyContext id change) := by
  refine ⟨fun other => ?_, fun _ => rfl, .rfl, fun formed => formed.modify id change⟩
  simp only [modifyContext, Registry.get?_modify]
  split
  next here =>
    subst here
    cases found : workspace.registry.get? other with
    | none => rfl
    | some context => exact congrArg some (same context found)
  next => rfl

theorem idles_index {key : ContextKey} {id : Nat} (leads : workspace.registry.target? key = some id) :
    Idles workspace (workspace.index key id) := by
  refine ⟨fun other => ?_, fun other => ?_, .rfl, fun formed => formed.index key id⟩
  · rw [index, Registry.get?_index]
  · rw [index, Registry.target?_index]
    split
    next here => rw [← here, leads]
    next => rfl

theorem idles_track {id : Nat} {key : Uri} (tracks : workspace.registry.Tracks id key) :
    Idles workspace (workspace.modifyContext id fun context => context.track key) := by
  obtain ⟨held, found, member⟩ := tracks
  refine idles_modifyContext fun context stored => ?_
  obtain rfl := Option.some.inj (found.symm.trans stored)
  rw [Context.track_of_tracked member]

theorem idles_acquire {uri : Uri} (known : (workspace.store.file? uri.normalize.normalize).isSome)
    (content : Option String) : Idles workspace (workspace.acquire uri content).2 := by
  obtain ⟨-, registry, store⟩ := acquire_spec workspace uri content
  refine idles_of_store registry ?_
  rw [store, Store.acquire_of_known known]
  exact .rfl

theorem idles_open {key : Uri} (open' : workspace.store.isActive key) :
    Idles workspace (workspace.modifyFile key fun file => file.setActive true) := by
  have still : workspace.store.Still (workspace.store.modify key fun file => file.setActive true) := by
    refine Store.still_modify fun document found => ?_
    rw [Store.isActive, found, Option.any_some] at open'
    simp only [Document.setActive, Document.bare, open']
  exact idles_of_store rfl still

/-! ## Passes -/

theorem retains_runPass (workspace : Workspace) (id : Nat) (context : Context) : ∃ cleared,
    workspace.store.Retains cleared ∧
      (context.process cleared).2.2.Retains (workspace.runPass id context).2.store := by
  obtain ⟨cleared, last, keys, processed, clears, annotates, ended⟩ := runPass_course workspace id context
  refine ⟨cleared.store, clears.store, ?_⟩
  rw [ended]
  exact annotates.store.trans (retains_published last keys)

private theorem idles_runPass (keyed : workspace.store.Keyed) {id : Nat} {context : Context}
    (found : workspace.registry.get? id = some context) (rests : context.session.Rests workspace.store) :
    Idles workspace (workspace.runPass id context).2 := by
  obtain ⟨cleared, clears, publishes⟩ := retains_runPass workspace id context
  have still : workspace.store.Still (workspace.runPass id context).2.store := by
    have read : (context.process cleared).2.2 = cleared := congrArg Prod.snd (rests cleared clears.still)
    exact clears.still.trans (read ▸ publishes).still
  have session := congrArg Prod.fst (rests workspace.store .rfl)
  obtain ⟨seen, -, processed, -⟩ := process_replay keyed context
  have kept : ∀ {changed : Context}, changed.face = context.face →
      (workspace.runPass id context).2.registry = workspace.registry.set id changed →
      Idles workspace (workspace.runPass id context).2 := by
    intro changed same registry
    have sets : Idles workspace (workspace.modifyContext id fun _ => changed) := by
      refine idles_modifyContext fun other stored => ?_
      rw [same, Option.some.inj (found.symm.trans stored)]
    refine ⟨fun other => ?_, fun key => ?_, still, fun formed => ?_⟩ <;> rw [registry]
    · exact sets.contexts other
    · exact sets.targets key
    · exact sets.formed formed
  have ended := runPass_spec keyed id context
  generalize (workspace.runPass id context).1 = result at ended
  cases ended with
  | failed error _ loads registry reads => exact kept rfl registry
  | done view _ loads registry reads cached =>
    refine kept ?_ registry
    have same : (context.process workspace.store).2.1.session = context.session := session
    rw [processed, loads] at same
    simp only at same
    simp only [Context.face, Context.passed] at same ⊢
    rw [same]

private theorem idles_validated (keyed : workspace.store.Keyed) {id : Nat}
    (rests : ∀ context, workspace.registry.get? id = some context → context.session.Rests workspace.store) :
    Idles workspace (workspace.validated id) := by
  have validates : Idles workspace (workspace.revalidate id).2 := by
    simp only [revalidate]
    cases found : workspace.registry.get? id with
    | none => exact .rfl
    | some context =>
      simp only
      split
      · exact .rfl
      · exact idles_runPass keyed found (rests context found)
  simp only [validated]
  split
  next passed => simpa only [passed] using validates
  next failed =>
    rw [failed] at validates
    exact validates.trans (idles_log _ _ _)

private theorem idles_revalidateAll (keyed : workspace.store.Keyed) {ids : List Nat}
    (rests : ∀ id ∈ ids, ∀ context, workspace.registry.get? id = some context → context.session.Rests workspace.store) :
    Idles workspace (workspace.revalidateAll ids) := by
  rw [revalidateAll_eq]
  induction ids generalizing workspace with
  | nil => exact .rfl
  | cons id rest ih =>
    obtain ⟨here, later⟩ := List.forall_mem_cons.mp rests
    have first := idles_validated keyed here
    refine first.trans (ih (first.store.keyed keyed) fun other member context found => ?_)
    obtain ⟨processed, stood⟩ := first.found found
    exact (later other member _ stood).still first.store

/-! ## The end of an edit -/

private theorem idles_enlisted {id : Nat} {key : Uri} {context : Context}
    (found : workspace.registry.get? id = some context)
    (tracked : key ∈ context.tracked) (working : context.activated = true) : Idles workspace (workspace.enlisted id key) := by
  have held : (workspace.modifyContext id fun context => context.track key).registry.get? id = some context := by
    rw [modifyContext, Registry.get?_modify, if_pos rfl, found, Option.map_some, Context.track_of_tracked tracked]
  simp only [enlisted, held, working, ↓reduceIte]
  exact idles_track ⟨context, found, tracked⟩

/-- An edit ends idly if the context of the document holds it already and all passes that the edit asks for find what
they found before. -/
theorem idles_engage (keyed : workspace.store.Keyed) (formed : workspace.registry.WellFormed) {id : Nat}
    {document : Uri} {context : Context} (found : workspace.registry.get? id = some context)
    (tracked : document ∈ context.tracked) (working : context.activated = true)
    (rests : ∀ other rival, workspace.registry.get? other = some rival → rival.concerns document →
      rival.session.Rests workspace.store) :
    Idles workspace (workspace.engage id document document) := by
  have enlists := idles_enlisted found tracked working
  rw [engage_eq]
  refine enlists.trans (idles_revalidateAll (enlists.store.keyed keyed) fun other member rival met => ?_)
  obtain ⟨processed, stood⟩ := enlists.found met
  refine (rests other _ stood ?_).still enlists.store
  have concerned : other ∈ (workspace.enlisted id document).registry.concerned document ∨ other = id := by
    simp only [affected] at member
    split at member
    · exact .inl member
    · exact (List.mem_append.mp member).imp_right List.mem_singleton.mp
  rcases concerned with member | rfl
  · exact (Registry.mem_concerned (enlists.formed formed) met).mp member
  · rw [Option.some.inj (stood.symm.trans found)]
    simp only [Context.concerns, working, Context.isTracking, List.contains_iff_mem.mpr tracked, Bool.true_or,
      Bool.and_true]

end Workspace

end SpecServer
