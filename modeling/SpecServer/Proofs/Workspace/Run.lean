import SpecServer.Proofs.Workspace.Events
set_option autoImplicit false

/-!
Runs of the server: events of the editor, and changes of the disk behind it, one after another. Every state
reached is sound; what one step keeps, a run keeps.
-/

namespace SpecServer

/-- What the editor does or asks, and what happens to the disk meanwhile. -/
inductive Event where
  | edit (uri : Uri) (language text : String)
  | close (uri : Uri)
  | changedOnDisk (uris : List Uri)
  | save (uri : Uri) (text : String)
  | configure (payload : Json)
  | setRoot (text : Option String)
  | hover (uri : Uri) (position : Text.Position)
  | definitions (uri : Uri) (position : Text.Position)
  | definition (uri : Uri)
  | take
  | replaceDisk (disk : Disk)

/-- Whether an event is the saving of a document. -/
def Event.isSave : Event → Bool
  | .save _ _ => true
  | _ => false

/-- Whether an event is the opening, a change or the closing of a document, or a change on the disk. -/
def Event.isOfDocuments : Event → Bool
  | .edit _ _ _ => true
  | .close _ => true
  | .changedOnDisk _ => true
  | _ => false

/-- Whether an event may move documents between contexts. -/
def Event.moves : Event → Bool
  | .edit _ _ _ => true
  | .close _ => true
  | .save _ _ => true
  | _ => false

namespace Workspace

/-- Handles an event. A failure is no reason to stop. -/
def step (workspace : Workspace) : Event → Workspace
  | .edit uri language text => (workspace.edit uri language text).2
  | .close uri => workspace.close uri
  | .changedOnDisk uris => workspace.changedOnDisk uris
  | .save uri text => (workspace.save uri text).2
  | .configure payload => workspace.configure payload
  | .setRoot text => (workspace.setRoot text).2
  | .hover uri position => (workspace.hover uri position).2
  | .definitions uri position => (workspace.definitions uri position).2
  | .definition uri => (workspace.definition? uri).2
  | .take => workspace.takeEvents.2
  | .replaceDisk disk => { workspace with store := { workspace.store with disk := disk } }

/-- Handles events one after another. -/
def run (workspace : Workspace) (events : List Event) : Workspace :=
  events.foldl step workspace

/-- The state after events, from the start of the server. -/
def reached (disk : Disk) (events : List Event) : Workspace :=
  (start disk).run events

/-- What holds of every state reached: the tables are in order. -/
structure Sound (workspace : Workspace) : Prop where
  formed : workspace.registry.WellFormed
  keyed : workspace.store.Keyed

/-- What a step does: it moves documents as an edit, a closing or a saving does, or it moves nothing. -/
inductive Stepped (before : Workspace) : Event → Workspace → Prop
  | quiet (event : Event) (after : Workspace) (still : event.moves = false) (alike : Alike before after) :
    Stepped before event after
  | edited (uri : Uri) (language text : String) (result : Except WorkspaceError Unit) (after : Workspace)
      (done : before.edit uri language text = (result, after))
      (edited : Edited before uri.normalize.normalize (isAnalysed language)
        ((before.opened uri text).choice? uri.normalize.normalize) result after) :
    Stepped before (.edit uri language text) after
  | closed (uri : Uri) (after : Workspace) (closed : Closed before uri.normalize after) :
    Stepped before (.close uri) after
  | saved (uri : Uri) (text : String) (after : Workspace) (saved : Saved before uri.normalize.normalize after) :
    Stepped before (.save uri text) after

variable {workspace : Workspace}

theorem step_spec (sound : workspace.Sound) (event : Event) : Stepped workspace event (workspace.step event) := by
  cases event with
  | edit uri language text => exact .edited _ _ _ _ _ rfl (edit_spec sound.formed sound.keyed uri language text)
  | close uri => exact .closed _ _ (close_spec sound.formed sound.keyed uri)
  | changedOnDisk uris => exact .quiet _ _ rfl (alike_changedOnDisk sound.formed uris)
  | save uri text => exact .saved _ _ _ (save_spec sound.formed sound.keyed uri text)
  | configure payload => exact .quiet _ _ rfl (passive_configure workspace payload).alike
  | setRoot text => exact .quiet _ _ rfl (passive_setRoot workspace text).alike
  | hover uri position => exact .quiet _ _ rfl (asked_hover workspace uri position).alike
  | definitions uri position => exact .quiet _ _ rfl (asked_definitions workspace uri position).alike
  | definition uri => exact .quiet _ _ rfl (asked_definition? workspace uri).alike
  | take => exact .quiet _ _ rfl ⟨rfl, rfl⟩
  | replaceDisk disk => exact .quiet _ _ rfl ⟨rfl, rfl⟩

/-! ## Soundness -/

theorem formed_of_outline {registry shown : Registry} (same : registry.outline = shown) (formed : shown.WellFormed) :
    registry.WellFormed := by
  rw [← Registry.wellFormed_outline, same]
  exact formed

theorem Sound.edited {before after : Workspace} {document : Uri} {analysed : Bool} {choice? : Option Choice}
    {result : Except WorkspaceError Unit} (sound : before.Sound)
    (edited : Edited before document analysed choice? result after) : after.Sound := by
  cases edited with
  | ignored _ _ alike => exact ⟨alike.formed sound.formed, alike.keyed sound.keyed⟩
  | failed _ _ outline grows =>
    exact ⟨formed_of_outline outline (Registry.wellFormed_outline.mpr sound.formed), grows.keyed sound.keyed⟩
  | stayed choice id settled _ _ _ settles _ outline grows =>
    exact ⟨formed_of_outline outline ((settled_formed sound.formed settles).modify _ _), grows.keyed sound.keyed⟩
  | left choice id settled old _ _ _ settles _ _ outline grows =>
    have released := (settled_formed sound.formed settles).release old document
    exact ⟨formed_of_outline outline (((released.modify _ _).prune _).modify _ _), grows.keyed sound.keyed⟩

private theorem Sound.closed {before after : Workspace} {document : Uri} (sound : before.Sound)
    (closed : Closed before document after) : after.Sound := by
  cases closed with
  | unknown _ same => exact same ▸ sound
  | unowned _ outline shuts =>
    exact ⟨formed_of_outline outline (Registry.wellFormed_outline.mpr sound.formed), shuts.keyed sound.keyed⟩
  | owned id context inputs _ _ outline shuts =>
    refine ⟨formed_of_outline outline (Registry.WellFormed.prune ?_ _), shuts.keyed sound.keyed⟩
    have formed := Registry.wellFormed_outline.mpr sound.formed
    split
    · exact (formed.foldl_drop id _ inputs).leave _ _ _ _
    · exact formed.leave _ _ _ _

theorem Sound.resolved {before after : Workspace} {document : Uri} {result : Except WorkspaceError Nat}
    (sound : before.Sound) (resolved : Resolved before document result after) : after.Sound := by
  cases resolved with
  | failed _ _ outline grows =>
    exact ⟨formed_of_outline outline (Registry.wellFormed_outline.mpr sound.formed), grows.keyed sound.keyed⟩
  | stayed choice id _ _ moved _ grows =>
    exact ⟨formed_of_outline rfl (settled_formed sound.formed moved), grows.keyed sound.keyed⟩
  | left choice id settled old _ _ moved _ _ outline grows =>
    have released := (settled_formed sound.formed moved).release old document
    refine ⟨formed_of_outline outline (Registry.WellFormed.prune ?_ _), grows.keyed sound.keyed⟩
    split
    · exact released.modify _ _
    · exact released

theorem Sound.stepped {before after : Workspace} {event : Event} (sound : before.Sound)
    (stepped : Stepped before event after) : after.Sound := by
  cases stepped with
  | quiet _ _ _ alike => exact ⟨alike.formed sound.formed, alike.keyed sound.keyed⟩
  | edited _ _ _ _ _ _ edited => exact sound.edited edited
  | closed _ _ closed => exact sound.closed closed
  | saved _ _ _ saved =>
    cases saved with
    | ignored alike => exact ⟨alike.formed sound.formed, alike.keyed sound.keyed⟩
    | resolved _ _ resolved alike =>
      have middle := sound.resolved resolved
      exact ⟨alike.formed middle.formed, alike.keyed middle.keyed⟩

theorem sound_start (disk : Disk) : (start disk).Sound :=
  ⟨Registry.wellFormed_empty, fun _ _ found => by cases found⟩

/-- What every step keeps that events of a kind make, a run of such events keeps. -/
theorem run_keeps {allowed : Event → Prop} {holds : Workspace → Prop}
    (keeps : ∀ before event after, before.Sound → allowed event → Stepped before event after → holds before → holds after)
    {events : List Event} (all : ∀ event ∈ events, allowed event) (sound : workspace.Sound) (start : holds workspace) :
    (workspace.run events).Sound ∧ holds (workspace.run events) := by
  induction events generalizing workspace with
  | nil => exact ⟨sound, start⟩
  | cons event rest ih =>
    have stepped := step_spec sound event
    have allowing := List.forall_mem_cons.mp all
    exact ih allowing.2 (sound.stepped stepped) (keeps workspace event _ sound allowing.1 stepped start)

private theorem Sound.run (sound : workspace.Sound) (events : List Event) : (workspace.run events).Sound := by
  induction events generalizing workspace with
  | nil => exact sound
  | cons event rest ih => exact ih (sound.stepped (step_spec sound event))

theorem sound_reached (disk : Disk) (events : List Event) : (reached disk events).Sound :=
  (sound_start disk).run events

theorem run_append (workspace : Workspace) (front back : List Event) :
    workspace.run (front ++ back) = (workspace.run front).run back :=
  List.foldl_append

/-! ## A run -/

theorem ok_of_toOption {ε α : Type} {result : Except ε α} {value : α} (found : result.toOption = some value) :
    result = .ok value := by
  cases result with
  | error error => cases found
  | ok other => exact congrArg Except.ok (Option.some.inj found)

theorem error_of_toOption {ε α : Type} {result : Except ε α} (failed : result.toOption = none) :
    ∃ error, result = .error error := by
  cases result with
  | error error => exact ⟨error, rfl⟩
  | ok value => cases failed

/-- A document of a folder. -/
def sampleDocument : Uri := ⟨"file".toList, some ⟨[], [], none⟩, "/w/x.json".toList, none, none⟩

/-- The configuration of its folder. -/
def sampleConfiguration : Uri := ⟨"file".toList, some ⟨[], [], none⟩, "/w/readme.md".toList, none, none⟩

/-- A document of the top folder. -/
def topDocument : Uri := ⟨"file".toList, some ⟨[], [], none⟩, "/x".toList, none, none⟩

/-- The configuration of the top folder. -/
def topConfiguration : Uri := ⟨"file".toList, some ⟨[], [], none⟩, "/readme.md".toList, none, none⟩

/-- The document is opened alone, and then the configuration, which declares it. -/
def sampleRun : List Event :=
  [.edit sampleDocument "json" "\x7b\x7d",
    .edit sampleConfiguration "markdown"
      "> see https://aka.ms/autorest\n\x60\x60\x60 yaml\ninput-file: x.json\n\x60\x60\x60\n"]

end Workspace

end SpecServer
