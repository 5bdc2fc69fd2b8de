import SpecServer.Proofs.Workspace.Alike
import SpecServer.Workspace.Editing
import SpecServer.Workspace.Questions
import SpecServer.Workspace.Setup
set_option autoImplicit false

/-!
What changes no context: the questions of the editor, settings, and reports of changes on the disk until contexts are
validated. A question looks documents up, and a report drops the contents of documents that are not open.
-/

namespace SpecServer

-- neither the model's parser nor the disk must be unfolded
attribute [local irreducible] Uri.normalize Store.load

namespace Store

/-- Whether documents were looked up one after another, and the contents of some that are not open were dropped. -/
inductive Consulted (dropped : Uri → Prop) (before : Store) : Store → Prop
  | same : Consulted dropped before before
  | fetched {after : Store} {uri : Uri} {document : Document} (earlier : Consulted dropped before after)
      (found : after.get? uri = some document) : Consulted dropped before (after.contentOf document).2
  | read {after : Store} (earlier : Consulted dropped before after) (uri : Uri) :
    Consulted dropped before (after.read uri).2
  | dropped {after : Store} {uri : Uri} {document : Document} (earlier : Consulted dropped before after)
      (found : after.get? uri = some document) (shut : document.active = false) (drops : dropped uri.normalize) :
    Consulted dropped before (after.modify document.uri fun document => document.setContent none)

variable {held replaced dropped : Uri → Prop} {before after : Store}

private theorem Consulted.trans {first second third : Store} (left : Consulted dropped first second)
    (right : Consulted dropped second third) : Consulted dropped first third := by
  induction right with
  | same => exact left
  | fetched _ found ih => exact ih.fetched found
  | read _ uri ih => exact ih.read uri
  | dropped _ found shut drops ih => exact ih.dropped found shut drops

private theorem Consulted.status (consulted : Consulted dropped before after) : after.status? = before.status? := by
  induction consulted with
  | same => rfl
  | fetched _ _ ih => exact (status?_contentOf _ _).trans ih
  | read _ uri ih => exact (status?_read _ uri).trans ih
  | dropped _ _ _ _ ih =>
    rw [← ih]
    exact status?_modify _ _ fun _ => ⟨rfl, rfl⟩

private theorem Consulted.quiet (consulted : Consulted dropped before after) : before.Quiet after := by
  induction consulted with
  | same => exact .rfl
  | fetched _ _ ih => exact ih.trans (quiet_contentOf _ _)
  | read _ uri ih => exact ih.trans (quiet_read _ uri)
  | dropped _ _ _ _ ih => exact ih.trans (quiet_modify _ _ fun _ => ⟨rfl, rfl⟩)

theorem Consulted.elapses (consulted : Consulted dropped before after) (keyed : before.Keyed)
    (replaces : ∀ key, dropped key → replaced key) : Elapses held replaced before after := by
  induction consulted with
  | same => exact .rfl
  | @fetched after uri document _ found ih =>
    have named := (ih.keyed keyed).uri_of_get? found
    have stored : after.file? document.uri = some document := named ▸ found
    exact ih.trans (((fetched_contentOf stored).reads (ih.keyed keyed)).elapses held replaced)
  | read _ uri ih => exact ih.trans (((Reads.rfl (ih.keyed keyed)).read uri).elapses held replaced)
  | @dropped after uri document _ found shut drops ih =>
    have named := (ih.keyed keyed).uri_of_get? found
    refine ih.trans (elapses_drop (replaces _ (named ▸ drops)) fun other stored => ?_)
    rw [named] at stored
    obtain rfl : document = other := Option.some.inj (found.symm.trans stored)
    exact shut

end Store

namespace Workspace

variable {dropped : Uri → Prop} {workspace before after : Workspace}

/-- Whether contexts and keys are as they were, documents were at most consulted, and nothing was published. -/
structure Passive (dropped : Uri → Prop) (before after : Workspace) : Prop where
  store : before.store.Consulted dropped after.store
  registry : after.registry = before.registry
  told : publications after.events = publications before.events

private theorem Passive.trans {first second third : Workspace} (left : Passive dropped first second)
    (right : Passive dropped second third) : Passive dropped first third :=
  ⟨left.store.trans right.store, right.registry.trans left.registry, right.told.trans left.told⟩

theorem Passive.alike (passive : Passive dropped before after) : Alike before after :=
  alike_of_store passive.registry passive.store.status

theorem Passive.silent (passive : Passive dropped before after) : Silent before after :=
  ⟨passive.told, passive.store.quiet⟩

/-- Whether besides nothing changed that is set. -/
structure Asked (dropped : Uri → Prop) (before after : Workspace) : Prop extends Passive dropped before after where
  beside : Beside before after

private theorem Asked.rfl : Asked dropped workspace workspace := ⟨⟨.same, .refl _, .refl _⟩, .rfl⟩

private theorem Asked.trans {first second third : Workspace} (left : Asked dropped first second)
    (right : Asked dropped second third) : Asked dropped first third :=
  ⟨left.toPassive.trans right.toPassive, left.beside.trans right.beside⟩

private theorem asked_log (workspace : Workspace) (level : LogLevel) (text : String) :
    Asked dropped workspace (workspace.log level text) :=
  ⟨⟨.same, rfl, (tacit_log workspace level text).told⟩, ⟨rfl, rfl, rfl, rfl⟩⟩

private theorem asked_of_store {store : Store} (consulted : workspace.store.Consulted dropped store) :
    Asked dropped workspace { workspace with store := store } :=
  ⟨⟨consulted, rfl, rfl⟩, ⟨rfl, rfl, rfl, rfl⟩⟩

/-! ## Questions -/

private theorem asked_content? (workspace : Workspace) (uri : Uri) :
    Asked (fun _ => False) workspace (workspace.content? uri).2 := by
  unfold content?
  cases found : workspace.store.get? uri with
  | none => exact asked_log _ _ _
  | some document =>
    have read : Asked (fun _ => False) workspace { workspace with store := (workspace.store.contentOf document).2 } :=
      asked_of_store (.fetched .same found)
    simp only
    cases (workspace.store.contentOf document).1.toOption with
    | some text => exact read
    | none => exact read.trans (asked_log _ _ _)

theorem asked_definition? (workspace : Workspace) (uri : Uri) :
    Asked (fun _ => False) workspace (workspace.definition? uri).2 := by
  simp only [definition?]
  split
  · exact asked_log _ _ _
  · split
    · exact .rfl
    · exact asked_log _ _ _

private theorem asked_subject? (workspace : Workspace) (uri : Uri) :
    Asked (fun _ => False) workspace (workspace.subject? uri).2 := by
  have asked : Asked (fun _ => False) workspace _ := asked_definition? workspace uri.normalize
  simp only [subject?]
  generalize workspace.definition? uri.normalize = found at asked ⊢
  obtain ⟨definition, defined⟩ := found
  cases definition with
  | none => exact asked
  | some definition =>
    have read := asked.trans (asked_content? defined uri.normalize)
    simp only
    split
    next absent => simpa only [absent] using read
    next found => simpa only [found] using read

theorem asked_hover (workspace : Workspace) (uri : Uri) (position : Text.Position) :
    Asked (fun _ => False) workspace (workspace.hover uri position).2 := by
  have asked : Asked (fun _ => False) workspace _ := asked_subject? workspace uri
  simp only [hover]
  split
  next absent => simpa only [absent] using asked
  next found => simpa only [found] using asked

private theorem asked_locate (workspace : Workspace) (targets : List (Uri × Path)) :
    Asked (fun _ => False) workspace (workspace.locate targets).2 := by
  induction targets generalizing workspace with
  | nil => exact .rfl
  | cons target rest ih =>
    have read : Asked (fun _ => False) workspace { workspace with store := (workspace.store.read target.1).2 } :=
      asked_of_store (.read .same target.1)
    have searched (endless : Bool) : Asked (fun _ => False) workspace
        { workspace with store := (workspace.store.read target.1).2, endless := endless } :=
      ⟨⟨.read .same target.1, rfl, rfl⟩, ⟨rfl, rfl, rfl, rfl⟩⟩
    simp only [locate]
    split
    · exact (read.trans (asked_log _ _ _)).trans (ih _)
    · exact read.trans (ih _)
    · exact (searched _).trans (ih _)

theorem asked_definitions (workspace : Workspace) (uri : Uri) (position : Text.Position) :
    Asked (fun _ => False) workspace (workspace.definitions uri position).2 := by
  have asked : Asked (fun _ => False) workspace _ := asked_subject? workspace uri
  simp only [definitions]
  split
  next absent => simpa only [absent] using asked
  next found =>
    rw [found] at asked
    exact asked.trans (asked_locate _ _)

/-! ## Reports -/

theorem asked_noteChange (affected : List Nat) (workspace : Workspace) (uri : Uri) :
    Asked (fun key => workspace.store.isActive key = false) workspace (noteChange affected workspace uri).2 := by
  unfold noteChange
  generalize uri.normalize = document
  simp only
  split
  · refine (asked_log workspace .debug ("Changed On Disk: " ++ document.render)).trans ?_
    split
    · exact .rfl
    next file found =>
      split
      · exact .rfl
      next open' =>
        have shut : file.active = false := Bool.not_eq_true _ ▸ open'
        have stored : workspace.store.file? document.normalize = some file := found
        refine asked_of_store (.dropped .same found shut ?_)
        rw [Store.isActive, stored, Option.any_some, shut]
  · exact .rfl

theorem asked_noteChanges (affected : List Nat) (workspace : Workspace) (uris : List Uri) :
    Asked (fun key => workspace.store.isActive key = false) workspace (noteChanges affected workspace uris).2 := by
  induction uris generalizing affected workspace with
  | nil => exact .rfl
  | cons uri rest ih =>
    have noted := asked_noteChange affected workspace uri
    have later := ih (noteChange affected workspace uri).1 (noteChange affected workspace uri).2
    rw [Store.isActive_congr noted.store.status] at later
    exact noted.trans later

/-! ## Settings and roots -/

theorem passive_configure (workspace : Workspace) (payload : Json) :
    Passive (fun _ => False) workspace (workspace.configure payload) := by
  have applied : Passive (fun _ => False) workspace (workspace.applySettings payload) := by
    simp only [applySettings]
    split
    · exact ⟨.same, rfl, rfl⟩
    · exact ⟨.same, rfl, (tacit_log workspace _ _).told⟩
  simp only [configure]
  split
  · refine applied.trans ?_
    simp only [acquireEngine]
    split
    · exact ⟨.same, rfl, (tacit_log _ _ _).told⟩
    · exact ⟨.same, rfl, (tacit_log _ _ _).told⟩
  · exact applied

theorem passive_setRoot (workspace : Workspace) (text : Option String) :
    Passive (fun _ => False) workspace (workspace.setRoot text).2 := by
  simp only [setRoot]
  split
  · exact (asked_log _ _ _).toPassive
  · split
    · exact Asked.rfl.toPassive
    · split
      · exact Asked.rfl.toPassive
      · exact ⟨.same, rfl, (tacit_log workspace _ _).told⟩

end Workspace

end SpecServer
