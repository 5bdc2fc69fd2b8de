import SpecServer.Proofs.Registry.Tracking
import SpecServer.Proofs.Store.Content
import SpecServer.Proofs.Workspace.Closing
import SpecServer.Proofs.Workspace.Failure
set_option autoImplicit false

/-!
What happens to contexts between two passes. Whatever the editor does, a context keeps what it merged and what its
last pass saw, and it is told of no inputs but those that its configuration declares at the time; and documents age.
-/

namespace SpecServer

-- neither the model's parser nor the disk must be unfolded
attribute [local irreducible] Uri.normalize Store.load

/-! ## One context -/

namespace Session

/-- A declared input that is told of adds nothing to the inputs of a pass. -/
theorem inputsOf_addInput {session : Session} {view : View} {uri : Uri} (declared : uri.normalize ∈ view.inputs) :
    (session.addInput uri).inputsOf view = session.inputsOf view := by
  have member : uri.normalize ∈ session.inputsOf view := mem_inputsOf.mpr (.inl declared)
  simp only [addInput]
  split
  · rfl
  · simp only [inputsOf, List.foldl_append, List.foldl_cons, List.foldl_nil] at member ⊢
    rw [if_pos (List.contains_iff_mem.mpr member)]

private theorem inputsOf_foldl_addInput {session : Session} {view : View} {inputs : List Uri}
    (declared : ∀ input ∈ inputs, input.normalize ∈ view.inputs) :
    (inputs.foldl addInput session).inputsOf view = session.inputsOf view := by
  induction inputs generalizing session with
  | nil => rfl
  | cons input rest ih =>
    obtain ⟨first, later⟩ := List.forall_mem_cons.mp declared
    rw [List.foldl_cons, ih later, inputsOf_addInput first]

private theorem foldl_addInput_eq (session : Session) (inputs : List Uri) :
    ∃ known, inputs.foldl addInput session = { session with known := known } := by
  induction inputs generalizing session with
  | nil => exact ⟨session.known, rfl⟩
  | cons input rest ih =>
    obtain ⟨first, added⟩ : ∃ known, session.addInput input = { session with known := known } := by
      simp only [addInput]
      split <;> exact ⟨_, rfl⟩
    obtain ⟨known, later⟩ := ih (session.addInput input)
    exact ⟨known, by rw [List.foldl_cons, later, added]⟩

end Session

namespace Context

/-- Whether a context has the configuration, the inputs and the results of another one. -/
structure SameWork (earlier later : Context) : Prop where
  configuration : later.session.configuration = earlier.session.configuration
  additions : later.session.additions = earlier.session.additions
  known : later.session.known = earlier.session.known
  definition : later.session.definition = earlier.session.definition
  processed : later.processed = earlier.processed

theorem SameWork.rfl {context : Context} : SameWork context context :=
  ⟨.refl _, .refl _, .refl _, .refl _, .refl _⟩

private theorem sameWork_track (context : Context) (key : Uri) : SameWork context (context.track key) := by
  simp only [track]
  split <;> exact ⟨rfl, rfl, rfl, rfl, rfl⟩

private theorem sameWork_withView (context : Context) (view : Option View) : SameWork context (context.withView view) :=
  ⟨rfl, rfl, rfl, rfl, rfl⟩

private theorem SameWork.viewOf {earlier later : Context} (same : SameWork earlier later) (text : String) :
    later.session.viewOf text = earlier.session.viewOf text := by
  simp only [Session.viewOf, same.configuration, same.additions]

private theorem SameWork.viewIn {earlier later : Context} (same : SameWork earlier later) (texts : Texts) :
    later.session.viewIn texts = earlier.session.viewIn texts := by
  simp only [Session.viewIn, same.configuration, same.viewOf]

/-- Whether a context is another one later on, while documents aged and no pass went over it. As long as its
configuration was not replaced, it processes the same inputs. -/
structure Follows (before after : Store) (earlier later : Context) : Prop where
  configuration : later.session.configuration = earlier.session.configuration
  additions : later.session.additions = earlier.session.additions
  definition : later.session.definition = earlier.session.definition
  processed : later.processed = earlier.processed
  inputs : ∀ old new text view, before.file? earlier.session.configuration.normalize = some old →
    after.file? earlier.session.configuration.normalize = some new → new.generation = old.generation →
    old.content = some text → earlier.session.viewOf text = .ok view → (∀ input ∈ view.inputs, input.normalize = input) →
    later.session.inputsOf view = earlier.session.inputsOf view

theorem SameWork.follows {earlier later : Context} (same : SameWork earlier later) (before after : Store) :
    Follows before after earlier later := by
  refine ⟨same.configuration, same.additions, same.definition, same.processed, fun _ _ _ _ _ _ _ _ _ _ => ?_⟩
  simp only [Session.inputsOf, same.known]

theorem Follows.viewOf {before after : Store} {earlier later : Context} (follows : Follows before after earlier later)
    (text : String) : later.session.viewOf text = earlier.session.viewOf text := by
  simp only [Session.viewOf, follows.configuration, follows.additions]

private theorem Follows.trans {first second third : Store} {held replaced : Uri → Prop} {earlier middle later : Context}
    (left : Follows first second earlier middle) (right : Follows second third middle later)
    (ages : Store.Elapses held replaced first second) (ages' : Store.Elapses held replaced second third) :
    Follows first third earlier later := by
  refine ⟨right.configuration.trans left.configuration, right.additions.trans left.additions,
    right.definition.trans left.definition, right.processed.trans left.processed, ?_⟩
  intro old new text view found found' same content loads normal
  obtain ⟨between, met, elapsed⟩ := ages.documents _ old found
  obtain ⟨last, met', elapsed'⟩ := ages'.documents _ between met
  obtain rfl : last = new := Option.some.inj (met'.symm.trans found')
  have now : between.generation = old.generation := by
    have := elapsed.generation
    have := elapsed'.generation
    omega
  rw [right.inputs between last text view (left.configuration ▸ met) (left.configuration ▸ met') (by omega)
    (elapsed.kept now text content) ((left.viewOf text).trans loads) normal]
  exact left.inputs old between text view found met now content loads normal

def adopt (context : Context) (input : Uri) : Context :=
  (context.addInput input).track input.normalize.normalize

theorem session_foldl_adopt (context : Context) (inputs : List Uri) :
    (inputs.foldl adopt context).session = inputs.foldl Session.addInput context.session := by
  induction inputs generalizing context with
  | nil => rfl
  | cons input rest ih =>
    rw [List.foldl_cons, List.foldl_cons, ih]
    congr 1
    simp only [adopt, track]
    split <;> rfl

private theorem processed_foldl_adopt (context : Context) (inputs : List Uri) :
    (inputs.foldl adopt context).processed = context.processed := by
  induction inputs generalizing context with
  | nil => rfl
  | cons input rest ih => exact (ih _).trans (sameWork_track (context.addInput input) _).processed

private theorem mem_foldl_adopt {context : Context} {inputs : List Uri} {key : Uri} :
    key ∈ (inputs.foldl adopt context).tracked ↔
      key ∈ context.tracked ∨ ∃ input ∈ inputs, key = input.normalize.normalize := by
  induction inputs generalizing context with
  | nil => simp
  | cons input rest ih =>
    rw [List.foldl_cons, ih, adopt, mem_track, or_assoc]
    simp only [List.mem_cons, or_and_right, exists_or, exists_eq_left]
    rfl

/-- A context may be told of the inputs that its configuration declares. -/
theorem follows_foldl_adopt {before after : Store} {context : Context} {view : View}
    (loads : context.session.viewIn before.reading = .ok view) :
    Follows before after context (view.inputs.foldl adopt context) := by
  obtain ⟨known, told⟩ := Session.foldl_addInput_eq context.session view.inputs
  have session := context.session_foldl_adopt view.inputs
  have shown := session.trans told
  refine ⟨?_, ?_, ?_, context.processed_foldl_adopt view.inputs, ?_⟩
  · rw [shown]
  · rw [shown]
  · rw [shown]
  · intro old new text other found _ _ content loads' normal
    have read : before.reading context.session.configuration = .ok (some text) := by
      rw [Store.reading_eq, found]
      simp only [Document.reading, content]
    rw [Session.viewIn, read] at loads
    obtain rfl : view = other := Except.ok.inj (loads.symm.trans loads')
    rw [session]
    exact Session.inputsOf_foldl_addInput fun input member => (normal input member).symm ▸ member

end Context

namespace Workspace

/-! ## All contexts -/

/-- Whether a workspace is another one later on, while no pass ran and the disk was as it is. -/
structure Turned (held replaced : Uri → Prop) (before after : Workspace) : Prop where
  store : Store.Elapses held replaced before.store after.store
  contexts : ∀ id later, after.registry.get? id = some later → later.processed = none ∨
    ∃ earlier, before.registry.get? id = some earlier ∧ Context.Follows before.store after.store earlier later
  tracked : ∀ id later, after.registry.get? id = some later → ∀ key ∈ later.tracked,
    (after.store.file? key).isSome ∨ ∃ earlier, before.registry.get? id = some earlier ∧ key ∈ earlier.tracked

variable {held replaced : Uri → Prop} {workspace before after : Workspace}

theorem Turned.trans {first second third : Workspace} (left : Turned held replaced first second)
    (right : Turned held replaced second third) :
    Turned held replaced first third := by
  refine ⟨left.store.trans right.store, fun id later found => ?_, fun id later found key member => ?_⟩
  · rcases right.contexts id later found with new | ⟨middle, met, follows⟩
    · exact .inl new
    · rcases left.contexts id middle met with new | ⟨earlier, stood, follows'⟩
      · exact .inl (follows.processed.trans new)
      · exact .inr ⟨earlier, stood, follows'.trans follows left.store right.store⟩
  · rcases right.tracked id later found key member with known | ⟨middle, met, tracks⟩
    · exact .inl known
    · rcases left.tracked id middle met key tracks with known | before'
      · exact .inl (right.store.known known)
      · exact .inr before'

/-- A turn in which contexts go on as they are, but for what they track. -/
theorem turned_of_same (ages : Store.Elapses held replaced before.store after.store)
    (contexts : ∀ id later, after.registry.get? id = some later → ∃ earlier, before.registry.get? id = some earlier ∧
      Context.SameWork earlier later ∧ ∀ key ∈ later.tracked, key ∈ earlier.tracked ∨ (after.store.file? key).isSome) :
    Turned held replaced before after := by
  refine ⟨ages, fun id later found => ?_, fun id later found key member => ?_⟩
  · obtain ⟨earlier, stood, same, -⟩ := contexts id later found
    exact .inr ⟨earlier, stood, same.follows _ _⟩
  · obtain ⟨earlier, stood, -, tracks⟩ := contexts id later found
    exact (tracks key member).symm.imp_right fun tracked => ⟨earlier, stood, tracked⟩

theorem turned_of_store (ages : Store.Elapses held replaced before.store after.store)
    (same : ∀ id, after.registry.get? id = before.registry.get? id) : Turned held replaced before after :=
  turned_of_same ages fun id later found => ⟨later, (same id).symm.trans found, .rfl, fun _ => .inl⟩

theorem Turned.rfl : Turned held replaced workspace workspace :=
  turned_of_store .rfl fun _ => .refl _

private theorem turned_of_reads (reads : before.store.Reads after.store) (same : after.registry = before.registry) :
    Turned held replaced before after :=
  turned_of_store (reads.elapses held replaced) fun _ => by rw [same]

theorem Passive.turned {dropped : Uri → Prop} (passive : Passive dropped before after) (keyed : before.store.Keyed)
    (replaces : ∀ key, dropped key → replaced key) : Turned held replaced before after :=
  turned_of_store (passive.store.elapses keyed replaces) fun _ => by rw [passive.registry]

theorem turned_modifyContext (workspace : Workspace) (id : Nat) {change : Context → Context}
    (same : ∀ context, Context.SameWork context (change context))
    (tracks : ∀ context, ∀ key ∈ (change context).tracked, key ∈ context.tracked ∨ (workspace.store.file? key).isSome) :
    Turned held replaced workspace (workspace.modifyContext id change) := by
  refine turned_of_same .rfl fun other later found => ?_
  rw [modifyContext, Registry.get?_modify] at found
  split at found
  · obtain ⟨earlier, stood, rfl⟩ := Option.map_eq_some_iff.mp found
    exact ⟨earlier, stood, same earlier, tracks earlier⟩
  · exact ⟨later, found, .rfl, fun _ => .inl⟩

theorem turned_track (workspace : Workspace) (id : Nat) {key : Uri} (known : (workspace.store.file? key).isSome) :
    Turned held replaced workspace (workspace.modifyContext id fun context => context.track key) := by
  refine turned_modifyContext workspace id (fun context => context.sameWork_track key) fun context other member => ?_
  rcases Context.mem_track.mp member with before | rfl
  · exact .inl before
  · exact .inr known

theorem turned_untrack (workspace : Workspace) (id : Nat) (key : Uri) :
    Turned held replaced workspace (workspace.modifyContext id fun context => context.untrack key) :=
  turned_modifyContext workspace id (fun _ => ⟨rfl, rfl, rfl, rfl, rfl⟩) fun _ _ member =>
    .inl (List.mem_of_mem_erase member)

theorem turned_modifyFile {key : Uri} {change : Document → Document}
    (ages : Store.Elapses held replaced workspace.store (workspace.store.modify key change)) :
    Turned held replaced workspace (workspace.modifyFile key change) :=
  turned_of_store ages fun _ => .refl _

theorem turned_hide (workspace : Workspace) (key : Uri) : Turned held replaced workspace (workspace.hide key) :=
  turned_of_store (Store.retains_hide _ _).elapses fun _ => rfl

theorem turned_forward (workspace : Workspace) : Turned held replaced workspace workspace.forward := by
  have same : workspace.store.Retains workspace.forward.store := ⟨rfl, fun _ => rfl⟩
  exact turned_of_store same.elapses fun _ => rfl

theorem turned_log (workspace : Workspace) (level : LogLevel) (text : String) :
    Turned held replaced workspace (workspace.log level text) :=
  turned_of_store .rfl fun _ => rfl

theorem turned_acquire (workspace : Workspace) (uri : Uri) (content : Option String) :
    Turned held replaced workspace (workspace.acquire uri content).2 := by
  obtain ⟨-, registry, store⟩ := acquire_spec workspace uri content
  exact turned_of_store (store ▸ Store.elapses_acquire _ _ _) fun _ => by rw [registry]

theorem known_acquired (workspace : Workspace) (uri : Uri) (content : Option String) :
    ((workspace.acquire uri content).2.store.file? uri.normalize.normalize).isSome := by
  rw [(acquire_spec workspace uri content).2.2, Store.file?_acquire, if_pos rfl]
  cases workspace.store.file? uri.normalize.normalize <;> rfl

private theorem turned_acquire_track (workspace : Workspace) (id : Nat) (uri : Uri) (content : Option String) :
    Turned held replaced workspace ((workspace.acquire uri content).2.modifyContext id fun context =>
      context.track (workspace.acquire uri content).1) := by
  have known := known_acquired workspace uri content
  rw [(acquire_spec workspace uri content).1]
  exact (turned_acquire workspace uri content).trans (turned_track _ id known)

theorem turned_acquire_open (workspace : Workspace) {uri : Uri} (content : Option String)
    (own : held uri.normalize.normalize) :
    Turned held replaced workspace ((workspace.acquire uri content).2.modifyFile (workspace.acquire uri content).1
        fun file => file.setActive true) ∧
      (((workspace.acquire uri content).2.modifyFile (workspace.acquire uri content).1
        fun file => file.setActive true).store.file? (workspace.acquire uri content).1).isSome := by
  have known := known_acquired workspace uri content
  rw [(acquire_spec workspace uri content).1]
  constructor
  · exact (turned_acquire workspace uri content).trans
      (turned_modifyFile (Store.elapses_setActive (workspace.acquire uri content).2.store fun _ => own))
  · rw [modifyFile, Store.file?_modify, if_pos rfl, Option.isSome_map]
    exact known

private theorem turned_insert (workspace : Workspace) (context : Context) (fresh : context.processed = none)
    (known : ∀ key ∈ context.tracked, (workspace.store.file? key).isSome) :
    Turned held replaced workspace { workspace with registry := (workspace.registry.insert context).2 } := by
  have shown : ∀ {id later}, (workspace.registry.insert context).2.get? id = some later →
      workspace.registry.get? id = some later ∨ later = context := by
    intro id later found
    rw [Registry.get?_insert] at found
    cases stood : workspace.registry.get? id with
    | some earlier =>
      rw [stood, Option.some_or] at found
      exact .inl found
    | none =>
      rw [stood, Option.none_or] at found
      split at found
      · exact .inr (Option.some.inj found).symm
      · cases found
  refine ⟨.rfl, fun id later found => ?_, fun id later found key member => ?_⟩
  · rcases shown found with stood | rfl
    · exact .inr ⟨later, stood, Context.SameWork.rfl.follows _ _⟩
    · exact .inl fresh
  · rcases shown found with stood | rfl
    · exact .inr ⟨later, stood, member⟩
    · exact .inl (known key member)

theorem retains_prune (workspace : Workspace) : workspace.store.Retains workspace.prune.store := by
  have disposed : ∀ (removed : List Context) (freed : Workspace),
      freed.store.Retains (removed.foldl dispose freed).store := by
    intro removed
    induction removed with
    | nil => exact fun _ => .rfl
    | cons context rest ih =>
      intro freed
      have hidden : freed.store.Retains (freed.dispose context).store := Store.retains_foldl_hide _ _
      exact hidden.trans (ih _)
  have shown := disposed (workspace.registry.prune workspace.store.isActive).1
    { workspace with registry := (workspace.registry.prune workspace.store.isActive).2 }
  exact ⟨shown.disk, shown.documents⟩

theorem turned_prune (formed : workspace.registry.WellFormed) : Turned held replaced workspace workspace.prune := by
  refine turned_of_same (retains_prune workspace).elapses fun id later found => ⟨later, ?_, .rfl, fun _ => .inl⟩
  rw [registry_prune, Registry.get?_prune formed, Option.filter_eq_some_iff] at found
  exact found.1

/-! ## The search for a context -/

private theorem turned_vacate (workspace : Workspace) (previous : Nat) (document : Uri) :
    Turned held replaced workspace (workspace.vacate previous document) := by
  simp only [vacate]
  split
  · exact .rfl
  · split
    · exact (turned_untrack workspace previous document).trans (turned_of_store .rfl fun _ => rfl)
    · exact turned_untrack workspace previous document

private theorem turned_disclaim (workspace : Workspace) (previous : Nat) (document : Uri) :
    Turned held replaced workspace (workspace.disclaim previous document) := by
  simp only [disclaim]
  split
  · exact turned_of_store .rfl fun _ => rfl
  · exact .rfl

private theorem turned_endorse (keyed : workspace.store.Keyed) (document : Uri) (successor : Nat) :
    Turned held replaced workspace (workspace.endorse document successor) := by
  simp only [endorse]
  split
  · exact .rfl
  next file found =>
    refine turned_track workspace successor ?_
    have stored : workspace.store.file? document.normalize = some file := found
    rw [keyed.uri_of_get? found, stored]
    rfl

private theorem turned_release (sound : workspace.Sound) (previous : Nat) (document : Uri) (successor : Nat) :
    Turned held replaced workspace (workspace.release previous document successor) := by
  obtain ⟨vacated, stored⟩ := vacate_spec workspace previous document
  obtain ⟨disclaimed, stored'⟩ := disclaim_spec (workspace.vacate previous document) previous document
  have kept := stored'.trans stored
  have endorsed := (endorse_spec ((workspace.vacate previous document).disclaim previous document)
    (kept.symm ▸ sound.keyed) document successor).1
  have freed : (((workspace.vacate previous document).disclaim previous document).endorse document
      successor).registry.WellFormed := by
    rw [← Registry.wellFormed_outline, endorsed, disclaimed, vacated]
    have released := (Registry.wellFormed_outline.mpr sound.formed).release previous document
    split
    · exact released.modify _ _
    · exact released
  rw [release_eq]
  refine (turned_vacate workspace previous document).trans ((turned_disclaim _ previous document).trans
    ((turned_endorse (kept.symm ▸ sound.keyed) document successor).trans ((turned_log _ _ _).trans (turned_prune ?_))))
  exact freed

theorem loadView_replay {store : Store} (keyed : store.Keyed) (context : Context) :
    ∃ after, store.Reads after ∧ context.loadView store =
      match context.session.viewIn store.reading with
      | .error error => (.error error, context, after)
      | .ok view => (.ok view, context.withView (some view), after) := by
  obtain ⟨after, reads, loaded⟩ := Session.loadView_replay store.source_repeats context.session (.rfl keyed)
  refine ⟨after, reads, ?_⟩
  simp only [Context.loadView, loaded]
  cases context.session.viewIn store.reading <;> rfl

private theorem turned_set {id : Nat} {context changed : Context} {store : Store}
    (found : workspace.registry.get? id = some context) (same : Context.SameWork context changed)
    (tracks : changed.tracked = context.tracked) (reads : workspace.store.Reads store) :
    Turned held replaced workspace { workspace with store := store, registry := workspace.registry.set id changed } := by
  refine turned_of_same (reads.elapses held replaced) fun other later found' => ?_
  simp only [Registry.set, Registry.get?_modify] at found'
  split at found'
  next equal =>
    rw [equal, found, Option.map_some] at found'
    obtain rfl := Option.some.inj found'
    exact ⟨context, equal ▸ found, same, fun key member => .inl (tracks ▸ member)⟩
  next => exact ⟨later, found', .rfl, fun _ => .inl⟩

/-- Whether a candidate is about to be told of the inputs that its configuration declares. -/
inductive Declares (workspace : Workspace) (inputs : List Uri) : Candidate → Prop
  | living (id : Nat) (context : Context) (view : View) (found : workspace.registry.get? id = some context)
      (loads : context.session.viewIn workspace.store.reading = .ok view) (declared : inputs = view.inputs) :
    Declares workspace inputs (.living id)
  | fresh (context : Context) (new : context.processed = none) (bare : context.tracked = []) :
    Declares workspace inputs (.fresh context)

theorem turned_candidate (sound : workspace.Sound) (configuration : Uri) :
    Turned held replaced workspace (workspace.candidate configuration).2 ∧
      ∀ candidate inputs, (workspace.candidate configuration).1 = .ok (candidate, inputs) →
        Declares (workspace.candidate configuration).2 inputs candidate := by
  simp only [candidate]
  cases living : workspace.registry.lookup (.folder configuration.folder) with
  | none =>
    obtain ⟨after, reads, loaded⟩ := loadView_replay sound.keyed (Context.start .real (Session.start configuration))
    simp only [Option.bind_none, loaded]
    cases (Context.start .real (Session.start configuration)).session.viewIn workspace.store.reading with
    | error error => exact ⟨turned_of_reads reads rfl, fun _ _ returned => by cases returned⟩
    | ok view =>
      refine ⟨turned_of_reads reads rfl, fun candidate inputs returned => ?_⟩
      cases returned
      exact .fresh _ rfl rfl
  | some id =>
    obtain ⟨-, context, found⟩ := Registry.lookup_eq_some_iff.mp living
    obtain ⟨after, reads, loaded⟩ := loadView_replay sound.keyed context
    simp only [Option.bind_some, found, Option.map_some, loaded]
    cases loads : context.session.viewIn workspace.store.reading with
    | error error =>
      exact ⟨turned_set found .rfl rfl reads, fun _ _ returned => by cases returned⟩
    | ok view =>
      refine ⟨turned_set found (context.sameWork_withView _) rfl reads, fun candidate inputs returned => ?_⟩
      cases returned
      have kept : (workspace.registry.set id (context.withView (some view))).get? id =
          some (context.withView (some view)) := by
        rw [Registry.set, Registry.get?_modify, if_pos rfl, found, Option.map_some]
      refine .living id _ view kept ?_ rfl
      rw [(context.sameWork_withView _).viewIn]
      simp only [reads.reading, loads]

private theorem turned_retain (formed : workspace.registry.WellFormed) {candidate : Candidate} {inputs : List Uri}
    (declares : Declares workspace inputs candidate) :
    Turned held replaced workspace (workspace.retain candidate).2 ∧
      (workspace.retain candidate).2.store = workspace.store ∧
      ∀ context, (workspace.retain candidate).2.registry.get? (workspace.retain candidate).1 = some context →
        context.processed = none ∨
          ∃ view, context.session.viewIn workspace.store.reading = .ok view ∧ inputs = view.inputs := by
  cases declares with
  | living id context view found loads declared =>
    refine ⟨.rfl, rfl, fun other found' => .inr ⟨view, ?_, declared⟩⟩
    obtain rfl : context = other := Option.some.inj (found.symm.trans found')
    exact loads
  | fresh context new bare =>
    refine ⟨turned_insert workspace context new (by simp [bare]), rfl, fun other found => .inl ?_⟩
    simp only [retain, Registry.insert] at found
    have inserted := Registry.get?_insert workspace.registry context workspace.registry.nextId
    simp only [Registry.insert] at inserted
    rw [inserted, Registry.get?_nextId formed, Option.none_or, if_pos trivial] at found
    exact Option.some.inj found ▸ new

theorem get?_foldl_adoptInput (id : Nat) (workspace : Workspace) (inputs : List Uri) (other : Nat) :
    (inputs.foldl (adoptInput id) workspace).registry.get? other =
      if other = id then (workspace.registry.get? other).map fun context => inputs.foldl Context.adopt context
      else workspace.registry.get? other := by
  induction inputs generalizing workspace with
  | nil => simp
  | cons input rest ih =>
    obtain ⟨key, registry, -⟩ := acquire_spec workspace input none
    have adopted : (adoptInput id workspace input).registry.get? other =
        if other = id then (workspace.registry.get? other).map fun context => context.adopt input
        else workspace.registry.get? other := by
      simp only [adoptInput, index, Registry.get?_index, modifyContext, Registry.get?_modify, registry, key]
      rfl
    rw [List.foldl_cons, ih, adopted]
    split
    · cases workspace.registry.get? other <;> rfl
    · rfl

theorem store_adoptInput (id : Nat) (workspace : Workspace) (input : Uri) :
    (adoptInput id workspace input).store = workspace.store.acquire input.normalize none :=
  (acquire_spec workspace input none).2.2

private theorem elapses_foldl_adoptInput (id : Nat) (workspace : Workspace) (inputs : List Uri) :
    Store.Elapses held replaced workspace.store (inputs.foldl (adoptInput id) workspace).store ∧
      ∀ input ∈ inputs, ((inputs.foldl (adoptInput id) workspace).store.file? input.normalize.normalize).isSome := by
  induction inputs generalizing workspace with
  | nil => exact ⟨.rfl, by simp⟩
  | cons input rest ih =>
    obtain ⟨ages, known⟩ := ih (adoptInput id workspace input)
    have first : Store.Elapses held replaced workspace.store (adoptInput id workspace input).store :=
      store_adoptInput id workspace input ▸ Store.elapses_acquire _ _ _
    refine ⟨first.trans ages, List.forall_mem_cons.mpr ⟨?_, known⟩⟩
    have stored := known_acquired workspace input none
    rw [(acquire_spec workspace input none).2.2, ← store_adoptInput id] at stored
    exact ages.known stored

private theorem turned_foldl_adoptInput (id : Nat) (workspace : Workspace) (inputs : List Uri)
    (declares : ∀ context, workspace.registry.get? id = some context → context.processed = none ∨
      ∃ view, context.session.viewIn workspace.store.reading = .ok view ∧ inputs = view.inputs) :
    Turned held replaced workspace (inputs.foldl (adoptInput id) workspace) := by
  obtain ⟨ages, known⟩ := elapses_foldl_adoptInput id workspace inputs
  have shown := get?_foldl_adoptInput id workspace inputs
  refine ⟨ages, fun other later found => ?_, fun other later found key member => ?_⟩
  · rw [shown] at found
    split at found
    next same =>
      obtain ⟨context, stood, rfl⟩ := Option.map_eq_some_iff.mp found
      rcases declares context (same ▸ stood) with new | ⟨view, loads, rfl⟩
      · exact .inl ((context.processed_foldl_adopt inputs).trans new)
      · exact .inr ⟨context, stood, Context.follows_foldl_adopt loads⟩
    next => exact .inr ⟨later, found, Context.SameWork.rfl.follows _ _⟩
  · rw [shown] at found
    split at found
    next =>
      obtain ⟨context, stood, rfl⟩ := Option.map_eq_some_iff.mp found
      rcases Context.mem_foldl_adopt.mp member with before | ⟨input, among, rfl⟩
      · exact .inr ⟨context, stood, before⟩
      · exact .inl (known input among)
    next => exact .inr ⟨later, found, member⟩

theorem turned_resolveReal (sound : workspace.Sound) (document configuration : Uri) :
    Turned held replaced workspace (workspace.resolveReal document configuration).2 := by
  obtain ⟨loading, declares⟩ : Turned held replaced workspace _ ∧ _ := turned_candidate sound configuration
  have formed := (candidate_spec sound.formed configuration).1.formed sound.formed
  simp only [resolveReal]
  generalize workspace.candidate configuration = outcome at loading declares formed ⊢
  obtain ⟨result, middle⟩ := outcome
  cases result with
  | error error => exact loading
  | ok found =>
    obtain ⟨candidate, inputs⟩ := found
    obtain ⟨kept, stored, told⟩ : Turned held replaced middle _ ∧ _ := turned_retain formed (declares candidate inputs rfl)
    simp only at loading kept stored told ⊢
    generalize middle.retain candidate = seated at kept stored told ⊢
    obtain ⟨id, seated⟩ := seated
    simp only at kept stored told ⊢
    split
    · have adopted : Turned held replaced seated _ := turned_foldl_adoptInput id seated inputs (stored ▸ told)
      exact (loading.trans kept).trans (adopted.trans (turned_of_store .rfl fun _ => rfl))
    · split
      · have indexed : Turned held replaced seated
            ((seated.index (.folder configuration.folder) id).index (.input document) id) :=
          turned_of_store .rfl fun _ => rfl
        exact (loading.trans kept).trans (indexed.trans (turned_acquire_track _ id configuration none))
      · exact loading

private theorem turned_resolveSynthesized (sound : workspace.Sound) (document : Uri)
    (holds : ∀ key, IsPlaceholder document key → held key) :
    Turned held replaced workspace (workspace.resolveSynthesized document).2 := by
  simp only [resolveSynthesized]
  cases generated : document.generated with
  | error error => exact .rfl
  | ok configuration =>
    simp only
    cases living : workspace.registry.lookup (.synthesized configuration) with
    | some id => exact turned_acquire_track workspace id configuration none
    | none =>
      obtain ⟨opened, known⟩ : Turned held replaced workspace _ ∧ _ :=
        turned_acquire_open workspace (some (placeholder document)) (holds _ ⟨configuration, generated, rfl⟩)
      simp only
      generalize (workspace.acquire configuration (some (placeholder document))).2.modifyFile _ _ = shown
        at opened known ⊢
      obtain ⟨after, reads, loaded⟩ := loadView_replay (opened.store.keyed sound.keyed)
        (Context.start .synthesized ((Session.start configuration).addConfiguration (generatedEntries document)))
      simp only [loaded]
      have read : Turned held replaced shown { shown with store := after } := turned_of_reads reads rfl
      cases (Context.start .synthesized
        ((Session.start configuration).addConfiguration (generatedEntries document))).session.viewIn shown.store.reading with
      | error error => exact opened.trans read
      | ok view =>
        refine (opened.trans read).trans (.trans (turned_insert { shown with store := after } _ ?_ ?_)
          (turned_of_store .rfl fun _ => rfl))
        · exact (Context.sameWork_track _ _).processed
        · intro key member
          rcases Context.mem_track.mp member with before | rfl
          · cases before
          · exact (reads.elapses held replaced).known known

theorem turned_choose (sound : workspace.Sound) (document : Uri) (holds : ∀ key, IsPlaceholder document key → held key) :
    Turned held replaced workspace (workspace.choose document).2 := by
  have searched := Discovery.find_keeps workspace.store.source_repeats.keeps document.folder (.rfl sound.keyed)
  simp only [choose]
  generalize Discovery.find Store.source document.folder workspace.store = found at searched ⊢
  obtain ⟨detected, store⟩ := found
  have reading : Turned held replaced workspace { workspace with store := store } := turned_of_reads searched rfl
  have sound' : ({ workspace with store := store } : Workspace).Sound := ⟨sound.formed, searched.keyed⟩
  cases detected with
  | error error => exact reading
  | ok configuration? =>
    cases configuration? with
    | none => exact reading.trans (turned_resolveSynthesized sound' document holds)
    | some configuration =>
      have sound'' : (({ workspace with store := store } : Workspace).log .debug
          ("Configuration File Selected: " ++ configuration.render)).Sound := ⟨sound'.formed, sound'.keyed⟩
      have resolved : Turned held replaced _ _ := turned_resolveReal sound'' document configuration
      have keyed := resolved.store.keyed sound''.keyed
      have formed := resolveReal_spec sound''.formed document configuration
      simp only
      generalize Workspace.resolveReal _ document configuration = outcome at resolved keyed formed ⊢
      obtain ⟨result, after⟩ := outcome
      have settled := (reading.trans (turned_log _ .debug ("Configuration File Selected: " ++ configuration.render))).trans
        resolved
      cases result with
      | error error => exact settled
      | ok id? =>
        cases id? with
        | some id => exact settled
        | none =>
          cases formed with
          | foreign _ _ _ alike _ _ =>
            exact settled.trans (turned_resolveSynthesized ⟨alike.formed sound''.formed, keyed⟩ document holds)

theorem turned_resolve (sound : workspace.Sound) (uri : Uri)
    (holds : ∀ key, IsPlaceholder uri.normalize key → held key) :
    Turned held replaced workspace (workspace.resolve uri).2 := by
  have chosen : Turned held replaced workspace (workspace.choose uri.normalize).2 := turned_choose sound _ holds
  have searched := choose_spec sound.formed uri.normalize
  have resolves := resolve_cases workspace uri
  generalize workspace.resolve uri = outcome at resolves ⊢
  cases resolves with
  | failed error after done => simpa only [done] using chosen
  | stayed id after done _ => simpa only [done] using chosen
  | left id settled old done _ _ =>
    rw [done] at chosen searched
    cases searched with
    | settled choice _ _ _ moved grows =>
      have sound' : settled.Sound :=
        ⟨formed_of_outline rfl (settled_formed sound.formed moved), grows.keyed sound.keyed⟩
      exact chosen.trans (turned_release sound' old _ id)

end Workspace

end SpecServer
