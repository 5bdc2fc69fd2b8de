import SpecServer.Proofs.Registry.Coherence
import SpecServer.Proofs.Workspace.Run
set_option autoImplicit false

/-!
The registry of every state that the server reaches is coherent, whatever the editor does, whatever stands in
the documents and on the disk, and whichever events fail.
-/

namespace SpecServer.Workspace

/-- What the keys and the contexts of a workspace promise each other. -/
structure Orderly (workspace : Workspace) : Prop where
  /-- Every key leads to a living context. -/
  living : ∀ key id, (key, id) ∈ workspace.registry.keys → ∃ context, workspace.registry.get? id = some context
  /-- The key of a folder leads to a real context whose configuration is in the folder. -/
  folder : ∀ folder id, (.folder folder, id) ∈ workspace.registry.keys → ∃ context,
    workspace.registry.get? id = some context ∧ context.kind = .real ∧ context.configuration.folder = folder
  /-- A real context is the one that the folder of its configuration leads to. -/
  anchored : ∀ id context, workspace.registry.get? id = some context → context.kind = .real →
    workspace.registry.lookup (.folder context.configuration.folder) = some id
  /-- There is at most one real context in a folder. -/
  only : ∀ id other context rival, workspace.registry.get? id = some context → context.kind = .real →
    workspace.registry.get? other = some rival → rival.kind = .real →
    context.configuration.folder = rival.configuration.folder → id = other
  /-- The key of a configuration leads to a real context. -/
  configuration : ∀ configuration id, (.configuration configuration, id) ∈ workspace.registry.keys → ∃ context,
    workspace.registry.get? id = some context ∧ context.kind = .real
  /-- The key of a generated configuration leads to the context generated with it. -/
  synthesized : ∀ configuration id, (.synthesized configuration, id) ∈ workspace.registry.keys → ∃ context,
    workspace.registry.get? id = some context ∧ context.kind = .synthesized ∧ context.configuration = configuration
  /-- A context tracks no document twice, and no two documents with one URI. -/
  single : ∀ id context, workspace.registry.get? id = some context → context.tracked.Nodup ∧
    ((context.tracked.filterMap workspace.store.file?).map Document.uri).Nodup

variable {workspace : Workspace}

theorem coherent_settled {before settled : Registry} {document : Uri} {choice : Choice} {id : Nat}
    (coherent : before.Coherent) (settles : before.settle document choice = (id, settled)) : settled.Coherent := by
  have settling := Registry.settled_of_settle coherent.formed settles
  exact coherent.settled settling

private theorem coherent_edited {before after : Workspace} {document : Uri} {analysed : Bool} {choice? : Option Choice}
    {result : Except WorkspaceError Unit} (edited : Edited before document analysed choice? result after)
    (coherent : before.registry.outline.Coherent) :
    after.registry.outline.Coherent := by
  cases edited with
  | ignored _ _ alike => exact alike.outline ▸ coherent
  | failed _ _ outline _ => exact outline ▸ coherent
  | stayed choice id settled _ _ _ settles _ outline _ _ =>
    rw [outline]
    exact (coherent_settled coherent settles).hold _ _
  | left choice id settled old _ _ _ settles _ _ outline _ _ =>
    rw [outline]
    exact ((((coherent_settled coherent settles).release old document).hold _ _).prune _).hold _ _

theorem coherent_closed {before after : Workspace} {document : Uri} (closed : Closed before document after)
    (coherent : before.registry.outline.Coherent) : after.registry.outline.Coherent := by
  cases closed with
  | unknown _ same => exact same ▸ coherent
  | unowned _ outline _ => exact outline ▸ coherent
  | owned id context inputs _ _ outline _ =>
    rw [outline]
    refine Registry.Coherent.prune (Registry.Coherent.leave ?_ _ _ _ _) _
    split
    · exact coherent.foldl_drop id _ inputs
    · exact coherent

theorem coherent_resolved {before after : Workspace} {document : Uri} {result : Except WorkspaceError Nat}
    (resolved : Resolved before document result after) (coherent : before.registry.outline.Coherent) :
    after.registry.outline.Coherent := by
  cases resolved with
  | failed _ _ outline _ => exact outline ▸ coherent
  | stayed choice id _ _ moved _ _ => exact coherent_settled coherent moved
  | left choice id settled old _ _ moved _ _ outline _ =>
    have released := (coherent_settled coherent moved).release old document
    rw [outline]
    refine Registry.Coherent.prune ?_ _
    split
    · exact released.hold _ _
    · exact released

/-- Each step keeps the registry coherent, also one that fails. -/
theorem coherent_stepped {before after : Workspace} {event : Event} (stepped : Stepped before event after)
    (coherent : before.registry.outline.Coherent) : after.registry.outline.Coherent := by
  cases stepped with
  | quiet _ _ _ alike => exact alike.outline ▸ coherent
  | edited _ _ _ _ _ _ edited => exact coherent_edited edited coherent
  | closed _ _ closed => exact coherent_closed closed coherent
  | saved _ _ _ saved =>
    cases saved with
    | ignored alike => exact alike.outline ▸ coherent
    | resolved _ _ resolved alike => exact alike.outline ▸ coherent_resolved resolved coherent

theorem coherent_reached (disk : Disk) (events : List Event) : (reached disk events).registry.outline.Coherent :=
  (run_keeps (fun _ _ _ _ _ stepped coherent => coherent_stepped stepped coherent) (fun _ _ => trivial)
    (sound_start disk) Registry.coherent_empty).2

/-- Tracked documents stand under their own URIs, so different keys mean different URIs. -/
theorem nodup_uris {store : Store} (keyed : store.Keyed) {keys : List Uri} (single : keys.Nodup) :
    ((keys.filterMap store.file?).map Document.uri).Nodup := by
  have shown : (keys.filterMap store.file?).map Document.uri = keys.filter fun key => (store.file? key).isSome := by
    induction keys with
    | nil => rfl
    | cons key rest ih =>
      have later := ih (List.nodup_cons.mp single).2
      cases held : store.file? key with
      | none => simp [held, later]
      | some document =>
        have own : document.uri = key := keyed key (document.uri, document.active) (by simp [Store.status?, held])
        simp [held, later, own]
  rw [shown]
  exact single.sublist List.filter_sublist

private theorem orderly_of_coherent (sound : workspace.Sound) (coherent : workspace.registry.outline.Coherent) :
    workspace.Orderly := by
  have leads : ∀ key id, (key, id) ∈ workspace.registry.keys → ∃ context,
      workspace.registry.get? id = some context ∧ key.Fits context := by
    intro key id member
    obtain ⟨shape, found, fits⟩ := coherent.fits key id ((Registry.target?_eq_some_iff sound.formed).mpr member)
    rw [Registry.get?_outline, Option.map_eq_some_iff] at found
    obtain ⟨context, held, rfl⟩ := found
    exact ⟨context, held, fits.congr rfl rfl⟩
  have shaped : ∀ id context, workspace.registry.get? id = some context →
      workspace.registry.outline.get? id = some context.outline := by
    intro id context found
    rw [Registry.get?_outline, found, Option.map_some]
  refine ⟨?living, fun folder => leads (.folder folder), ?anchored, ?only,
    fun configuration => leads (.configuration configuration), fun configuration => leads (.synthesized configuration),
    ?single⟩
  case living =>
    intro key id member
    obtain ⟨context, found, -⟩ := leads key id member
    exact ⟨context, found⟩
  case anchored =>
    intro id context found real
    rw [← Registry.lookup_outline]
    exact coherent.lookup.mpr (coherent.anchored id context.outline (shaped id context found) real)
  case only =>
    intro id other context rival found real met real' same
    exact coherent.only (shaped id context found) real (shaped other rival met) real' same
  case single =>
    intro id context found
    have single := coherent.single id context.outline (shaped id context found)
    exact ⟨single, nodup_uris sound.keyed single⟩

/-- Whatever happens, keys and contexts keep what they promise each other. -/
theorem orderly_reached (disk : Disk) (events : List Event) : (reached disk events).Orderly :=
  orderly_of_coherent (sound_reached disk events) (coherent_reached disk events)

end SpecServer.Workspace
