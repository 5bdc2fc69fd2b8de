import SpecServer.Proofs.Workspace.Refreshing
set_option autoImplicit false

/-!
The editor's text of an open document. Once the store has it, it stays there as long as the document is neither edited
nor closed, whatever else the editor does and whatever is on the disk.
-/

namespace SpecServer

-- neither the model's parser nor the disk must be unfolded
attribute [local irreducible] Uri.normalize Store.load

/-- Whether the document under a key is open and has a text. -/
def Store.Holds (key : Uri) (text : String) (store : Store) : Prop :=
  ∃ document, store.file? key = some document ∧ document.content = some text ∧ document.active = true

variable {key : Uri} {text : String}

private theorem Store.Holds.isActive {store : Store} (holds : store.Holds key text) : store.isActive key = true := by
  obtain ⟨document, found, -, active⟩ := holds
  rw [Store.isActive, found, Option.any_some, active]

/-- A text that is held stays while documents age, unless its document is replaced or shut. -/
theorem Store.Holds.elapses {held replaced : Uri → Prop} {before after : Store} (holds : before.Holds key text)
    (ages : Elapses held replaced before after) (lasts : ¬replaced key)
    (active : before.isActive key → after.isActive key) : after.Holds key text := by
  obtain ⟨document, found, content, -⟩ := id holds
  obtain ⟨later, found', aged⟩ := ages.documents key document found
  have open' := active holds.isActive
  rw [Store.isActive, found', Option.any_some] at open'
  exact ⟨later, found', aged.lasting lasts text content, open'⟩

private theorem Store.Holds.withDisk {store : Store} (holds : store.Holds key text) (disk : Disk) :
    ({ store with disk := disk } : Store).Holds key text := holds

/-- Whether an event is an edit or the closing of the document under a key. Documents of other languages are kept under
a URI that is normalized less often. -/
def Event.disturbs (key : Uri) : Event → Prop
  | .edit uri _ _ => uri.normalize.normalize.normalize = key ∨ uri.normalize.normalize = key
  | .close uri => uri.normalize.normalize = key
  | _ => False

namespace Workspace

variable {workspace before after : Workspace}

/-! ## Edits -/

private theorem holds_opened (workspace : Workspace) (uri : Uri) (text : String) :
    (workspace.opened uri text).store.Holds uri.normalize.normalize.normalize text := by
  obtain ⟨document, found, content⟩ := content_opened workspace uri text
  have active := (opened_spec workspace uri text).2.2
  rw [Store.isActive, found, Option.any_some] at active
  exact ⟨document, found, content, active⟩

private theorem Sound.resolve (sound : workspace.Sound) (uri : Uri) : (workspace.resolve uri).2.Sound :=
  sound.resolved (resolve_spec sound.formed sound.keyed uri)

private theorem grows_resolve (sound : workspace.Sound) (uri : Uri) :
    Store.Grows (IsPlaceholder uri.normalize) workspace.store (workspace.resolve uri).2.store := by
  have resolved := resolve_spec sound.formed sound.keyed uri
  generalize workspace.resolve uri = outcome at resolved ⊢
  obtain ⟨result, after⟩ := outcome
  cases resolved with
  | failed _ _ _ grows => exact grows
  | stayed _ _ _ _ _ _ grows => exact grows
  | left _ _ _ _ _ _ _ _ _ _ grows => exact grows

private theorem holds_resolve (sound : workspace.Sound) (holds : workspace.store.Holds key text) (uri : Uri) :
    (workspace.resolve uri).2.store.Holds key text := by
  have turned : Turned (fun _ => True) (fun _ => False) workspace (workspace.resolve uri).2 :=
    turned_resolve sound uri fun _ _ => trivial
  exact holds.elapses turned.store not_false ((grows_resolve sound uri).active key)

private theorem holds_revalidateAll (sound : workspace.Sound) (holds : workspace.store.Holds key text)
    (ids : List Nat) :
    (workspace.revalidateAll ids).store.Holds key text := by
  have ages := (validates_revalidateAll sound.keyed ids).reads.elapses (fun _ => True) fun _ => False
  refine holds.elapses ages not_false fun active => ?_
  rwa [Store.isActive_congr (alike_revalidateAll sound.formed ids).status]

private theorem holds_engage (sound : workspace.Sound) (holds : workspace.store.Holds key text) (id : Nat)
    (tracked document : Uri) :
    (workspace.engage id tracked document).store.Holds key text := by
  have kept := store_enlisted workspace id tracked
  have sound' : (workspace.enlisted id tracked).Sound := ⟨formed_enlisted sound.formed id tracked, kept.symm ▸ sound.keyed⟩
  rw [engage_eq]
  exact holds_revalidateAll sound' (kept.symm ▸ holds) _

/-- What is held when the text of an edit is in place is held when the edit is done, whether or not it failed. -/
theorem holds_edit_of_opened (sound : workspace.Sound) {uri : Uri} {language edited : String}
    (analysed : isAnalysed language = true) (holds : (workspace.opened uri edited).store.Holds key text) :
    (workspace.edit uri language edited).2.store.Holds key text := by
  have sound' := sound_opened sound uri edited
  have resolved := holds_resolve sound' holds uri.normalize
  have sound'' := sound'.resolve uri.normalize
  rw [edit_of_analysed workspace uri edited analysed]
  generalize (workspace.opened uri edited).resolve uri.normalize = outcome at resolved sound''
  obtain ⟨result, middle⟩ := outcome
  cases result with
  | error error => exact resolved
  | ok id => exact holds_engage sound'' resolved id _ _

theorem holds_edited (sound : workspace.Sound) (uri : Uri) {language : String} (text : String)
    (analysed : isAnalysed language = true) :
    (workspace.edit uri language text).2.store.Holds uri.normalize.normalize.normalize text :=
  holds_edit_of_opened sound analysed (holds_opened workspace uri text)

/-- An edit of a document that is not analysed replaces its text, too, if the document was tracked before. -/
theorem holds_replaced (sound : workspace.Sound) (uri : Uri) {language former : String} (text : String)
    (unanalysed : ¬isAnalysed language = true) (holds : workspace.store.Holds uri.normalize.normalize former) :
    (workspace.edit uri language text).2.store.Holds uri.normalize.normalize text := by
  obtain ⟨document, found, -, active⟩ := holds
  have edits := edit_cases workspace uri language text
  generalize workspace.edit uri language text = outcome at edits ⊢
  cases edits with
  | failed _ _ analysed _ => exact absurd analysed unanalysed
  | engaged _ _ analysed _ => exact absurd analysed unanalysed
  | unknown _ absent => cases found.symm.trans absent
  | replaced file _ known =>
    obtain rfl : document = file := Option.some.inj (found.symm.trans known)
    rw [sound.keyed.uri_of_get? known]
    have replaced : (workspace.modifyFile uri.normalize.normalize fun file => file.setContent (some text)).store.Holds
        uri.normalize.normalize text := by
      refine ⟨document.setContent (some text), ?_, rfl, active⟩
      rw [modifyFile, Store.file?_modify, if_pos rfl, found, Option.map_some]
    have hidden : Turned (fun _ => True) (fun _ => False)
        (workspace.modifyFile uri.normalize.normalize fun file => file.setContent (some text)) _ :=
      (turned_hide _ uri.normalize.normalize).trans (turned_forward _)
    have alike := (alike_hide (workspace.modifyFile uri.normalize.normalize fun file => file.setContent (some text))
      uri.normalize.normalize).trans (alike_forward _)
    exact replaced.elapses hidden.store not_false fun active => by rwa [Store.isActive_congr alike.status]

theorem holds_edit (sound : workspace.Sound) (holds : workspace.store.Holds key text) {uri : Uri}
    (language edited : String)
    (apart : ¬Event.disturbs key (.edit uri language edited)) :
    (workspace.edit uri language edited).2.store.Holds key text := by
  obtain ⟨apart, apart'⟩ := not_or.mp apart
  by_cases analysed : isAnalysed language = true
  · have opened : Turned (fun _ => True) (uri.normalize.normalize.normalize = ·) workspace (workspace.opened uri edited) :=
      turned_opened workspace uri edited rfl
    exact holds_edit_of_opened sound analysed
      (holds.elapses opened.store apart ((opened_spec workspace uri edited).2.1.active key))
  · have turned : Turned (fun _ => True) (uri.normalize.normalize = ·) workspace (workspace.edit uri language edited).2 :=
      turned_unanalysed sound.keyed uri edited analysed rfl
    refine holds.elapses turned.store apart' fun active => ?_
    rwa [Store.isActive_congr (edit_of_unanalysed workspace uri edited analysed).2.status]

/-! ## Other events -/

theorem holds_close (sound : workspace.Sound) (holds : workspace.store.Holds key text) {uri : Uri}
    (apart : uri.normalize.normalize ≠ key) : (workspace.close uri).store.Holds key text := by
  have turned : Turned (fun _ => True) (fun _ => False) workspace (workspace.close uri) := turned_close sound uri
  refine holds.elapses turned.store not_false fun active => ?_
  cases close_spec sound.formed sound.keyed uri with
  | unknown _ same => rwa [same]
  | unowned _ _ shuts => exact (shuts.isActive key).mpr ⟨Ne.symm apart, active⟩
  | owned _ _ _ _ _ _ shuts => exact (shuts.isActive key).mpr ⟨Ne.symm apart, active⟩

/-- Reported changes drop the content of documents only that are not open. -/
theorem holds_changedOnDisk (sound : workspace.Sound) (holds : workspace.store.Holds key text) (uris : List Uri) :
    (workspace.changedOnDisk uris).store.Holds key text := by
  have asked := asked_noteChanges [] workspace uris
  have alike := asked.alike
  have noted : Turned (fun _ => True) (fun other => workspace.store.isActive other = false) workspace
      (noteChanges [] workspace uris).2 := asked.turned sound.keyed fun _ => id
  have stays := holds.elapses noted.store (by simp [holds.isActive]) fun active => by
    rwa [Store.isActive_congr alike.status]
  exact holds_revalidateAll ⟨alike.formed sound.formed, alike.keyed sound.keyed⟩ stays _

private theorem holds_writeShadow (holds : workspace.store.Holds key text) (path : List UInt8) (content : String) :
    (workspace.writeShadow path content).2.store.Holds key text := by
  simp only [writeShadow]
  split
  next => exact holds
  next disk _ => exact holds.withDisk disk

private theorem holds_save (sound : workspace.Sound) (holds : workspace.store.Holds key text) (uri : Uri)
    (saved : String) :
    (workspace.save uri saved).2.store.Holds key text := by
  have resolved := holds_resolve sound holds uri.normalize
  have saves := save_cases workspace uri saved
  generalize workspace.save uri saved = outcome at saves ⊢
  cases saves with
  | ignored => exact holds
  | failed error after done => simpa only [done] using resolved
  | kept id settled done => simpa only [done] using resolved
  | written id settled path content done =>
    rw [done] at resolved
    exact holds_writeShadow resolved path content

private theorem holds_passive (sound : before.Sound) (holds : before.store.Holds key text)
    (passive : Passive (fun _ => False) before after) : after.store.Holds key text := by
  have turned : Turned (fun _ => True) (fun _ => False) before after := passive.turned sound.keyed nofun
  exact holds.elapses turned.store not_false fun active => by rwa [Store.isActive_congr passive.alike.status]

/-- What every event keeps: the text of an open document, unless it is about this document. -/
theorem holds_step (sound : workspace.Sound) (holds : workspace.store.Holds key text) {event : Event}
    (apart : ¬event.disturbs key) : (workspace.step event).store.Holds key text := by
  cases event with
  | edit uri language edited => exact holds_edit sound holds language edited apart
  | close uri => exact holds_close sound holds apart
  | changedOnDisk uris => exact holds_changedOnDisk sound holds uris
  | save uri saved => exact holds_save sound holds uri saved
  | configure payload => exact holds_passive sound holds (passive_configure workspace payload)
  | setRoot root => exact holds_passive sound holds (passive_setRoot workspace root)
  | hover uri position => exact holds_passive sound holds (asked_hover workspace uri position).toPassive
  | definitions uri position => exact holds_passive sound holds (asked_definitions workspace uri position).toPassive
  | definition uri => exact holds_passive sound holds (asked_definition? workspace uri).toPassive
  | take => exact holds
  | replaceDisk disk => exact holds.withDisk disk

end Workspace

end SpecServer
