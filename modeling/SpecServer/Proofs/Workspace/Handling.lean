import SpecServer.Proofs.Workspace.Turns
set_option autoImplicit false

/-!
Each event of the editor is a turn, up to the passes that it runs: an edit until its contexts are validated, and a report
of changes on the disk likewise; the closing of a document and all questions altogether.
-/

namespace SpecServer

-- neither the model's parser nor the disk must be unfolded
attribute [local irreducible] Uri.normalize Store.load

/-- Whether an event reports a change on the disk. -/
def Event.reports : Event → Uri → Bool
  | .changedOnDisk uris, key => uris.any fun uri => uri.normalize.kind == .file && uri.normalize.normalize == key
  | _, _ => false

namespace Workspace

variable {held replaced : Uri → Prop} {workspace before after : Workspace}

/-! ## Edits -/

theorem turned_opened (workspace : Workspace) (uri : Uri) (text : String)
    (replaces : replaced uri.normalize.normalize.normalize) :
    Turned held replaced workspace (workspace.opened uri text) := by
  have key := (acquire_spec workspace uri.normalize none).1
  have acquired : Turned held replaced workspace (workspace.acquire uri.normalize none).2 := turned_acquire workspace _ none
  exact acquired.trans (turned_modifyFile (Store.elapses_setContent _ (key ▸ replaces) text fun _ => ⟨rfl, rfl, rfl⟩))

private theorem turned_enlisted (workspace : Workspace) (id : Nat) {key : Uri}
    (known : (workspace.store.file? key).isSome) :
    Turned held replaced workspace (workspace.enlisted id key) := by
  have tracks : Turned held replaced workspace (workspace.modifyContext id fun context => context.track key) :=
    turned_track workspace id known
  simp only [enlisted]
  split
  · exact tracks
  · split
    · exact tracks
    · have activates : Turned held replaced _ (Workspace.modifyContext _ id Context.activate) :=
        turned_modifyContext (workspace.modifyContext id fun context => context.track key) id
          (fun _ => ⟨rfl, rfl, rfl, rfl, rfl⟩) fun _ _ => .inl
      exact tracks.trans (activates.trans (turned_log _ _ _))

theorem known_opened (workspace : Workspace) (uri : Uri) (text : String) :
    ((workspace.opened uri text).store.file? uri.normalize.normalize.normalize).isSome := by
  have known := known_acquired workspace uri.normalize none
  have key := (acquire_spec workspace uri.normalize none).1
  simp only [opened, modifyFile, key, Store.file?_modify, ↓reduceIte, Option.isSome_map]
  exact known

theorem sound_opened (sound : workspace.Sound) (uri : Uri) (text : String) : (workspace.opened uri text).Sound := by
  have opened : Turned (fun _ => True) (fun _ => True) workspace (workspace.opened uri text) :=
    turned_opened workspace uri text trivial
  exact ⟨(opened_spec workspace uri text).1 ▸ sound.formed, opened.store.keyed sound.keyed⟩

theorem turned_search (sound : workspace.Sound) (uri : Uri) (text : String)
    (holds : ∀ key, IsPlaceholder uri.normalize.normalize key → held key) :
    Turned held replaced (workspace.opened uri text) ((workspace.opened uri text).resolve uri.normalize).2 :=
  turned_resolve (sound_opened sound uri text) uri.normalize holds

theorem turned_ready (sound : workspace.Sound) (uri : Uri) (text : String)
    (holds : ∀ key, IsPlaceholder uri.normalize.normalize key → held key) {id : Nat}
    (resolved : (workspace.opened uri text).resolve uri.normalize = (.ok id, after)) :
    Turned held replaced (workspace.opened uri text) (after.enlisted id uri.normalize.normalize.normalize) := by
  have searched : Turned held replaced (workspace.opened uri text) after := by
    have found : Turned held replaced (workspace.opened uri text) _ := turned_search sound uri text holds
    rwa [resolved] at found
  exact searched.trans (turned_enlisted after id (searched.store.known (known_opened workspace uri text)))

theorem turned_unanalysed (keyed : workspace.store.Keyed) (uri : Uri) {language : String} (text : String)
    (unanalysed : ¬ isAnalysed language = true) (replaces : replaced uri.normalize.normalize) :
    Turned held replaced workspace (workspace.edit uri language text).2 := by
  have edits := edit_cases workspace uri language text
  generalize workspace.edit uri language text = outcome at edits ⊢
  cases edits with
  | unknown _ _ => exact .rfl
  | failed _ _ analysed _ => exact absurd analysed unanalysed
  | engaged _ _ analysed _ => exact absurd analysed unanalysed
  | replaced file _ found =>
    rw [← keyed.uri_of_get? found] at replaces
    have replaced : Turned held replaced workspace (workspace.modifyFile file.uri fun file => file.setContent (some text)) :=
      turned_modifyFile (Store.elapses_setContent _ replaces text fun _ => ⟨rfl, rfl, rfl⟩)
    exact replaced.trans ((turned_hide _ _).trans (turned_forward _))

/-! ## Closings -/

private theorem turned_untrackAndHide (workspace : Workspace) (id : Nat) (key : Uri) :
    Turned held replaced workspace (workspace.untrackAndHide id key) :=
  (turned_untrack workspace id key).trans (turned_hide _ key)

private theorem turned_removeKey (workspace : Workspace) (key : ContextKey) :
    Turned held replaced workspace (workspace.removeKey key) :=
  turned_of_store .rfl fun _ => .refl _

private theorem turned_foldl_dropInput (workspace : Workspace) (id : Nat) (inputs : List Uri) :
    Turned held replaced workspace (inputs.foldl (dropInput id) workspace) :=
  foldl_dropInput_keeps (Turned held replaced workspace) (fun _ _ kept => kept.trans (turned_removeKey _ _))
    (fun _ _ _ kept => kept.trans (turned_untrackAndHide _ _ _)) .rfl id inputs

private theorem turned_depart (workspace : Workspace) (id : Nat) (context : Context) (document key : Uri) :
    Turned held replaced workspace (workspace.depart id context document key) :=
  depart_keeps (Turned held replaced workspace) (fun _ _ kept => kept.trans (turned_removeKey _ _))
    (fun _ _ _ kept => kept.trans (turned_untrackAndHide _ _ _)) .rfl id context document key

private theorem turned_shut (workspace : Workspace) (key : Uri) :
    Turned held replaced workspace (workspace.modifyFile key fun file => file.setActive false) :=
  turned_modifyFile (Store.elapses_setActive _ fun opens => nomatch opens)

private theorem turned_withdraw (workspace : Workspace) (id : Nat) (owner : Context) (document : Uri) :
    Turned held replaced workspace (workspace.withdraw id owner document) := by
  have left : ∀ freed : Workspace, Turned held replaced freed
      ((freed.modifyFile document.normalize fun file => file.setActive false).depart id owner document
        document.normalize) :=
    fun freed => (turned_shut freed _).trans (turned_depart _ id owner _ _)
  simp only [withdraw]
  split
  · exact (turned_foldl_dropInput workspace id _).trans (left _)
  · exact left workspace

theorem turned_close (sound : workspace.Sound) (uri : Uri) : Turned held replaced workspace (workspace.close uri) := by
  have closes := close_cases workspace uri
  generalize workspace.close uri = after at closes ⊢
  cases closes with
  | unknown _ => exact .rfl
  | gone _ _ _ _ _ => exact .rfl
  | unowned file _ _ => exact (turned_shut workspace _).trans ((turned_hide _ _).trans (turned_forward _))
  | owned file id owner found _ _ =>
    rw [withdraw_eq sound.keyed found]
    exact (turned_withdraw workspace id owner _).trans (turned_prune (formed_withdraw sound id owner _))

/-! ## Reports -/

/-- A document that is not open gets a new generation when a change of it is reported. -/
theorem noteChange_renews (affected : List Nat) (keyed : workspace.store.Keyed) {uri : Uri}
    (filed : uri.normalize.kind = .file)
    {document : Document} (found : workspace.store.file? uri.normalize.normalize = some document)
    (shut : document.active = false) :
    ∃ later, (noteChange affected workspace uri).2.store.file? uri.normalize.normalize = some later ∧
      document.generation < later.generation := by
  unfold noteChange
  generalize uri.normalize = named at filed found
  have named' : document.uri = named.normalize := keyed.uri_of_get? found
  have stored : (workspace.log .debug ("Changed On Disk: " ++ named.render)).store.get? named = some document := found
  simp only [filed, ↓reduceIte, stored, shut, Bool.false_eq_true]
  refine ⟨document.setContent none, ?_, Nat.lt_succ_self _⟩
  simp only [modifyFile, Store.file?_modify, named', ↓reduceIte]
  rw [show (workspace.log .debug ("Changed On Disk: " ++ named.render)).store = workspace.store from rfl, found,
    Option.map_some]

theorem noteChanges_renews (affected : List Nat) (sound : workspace.Sound) {uris : List Uri} {key : Uri}
    (reported : Event.reports (.changedOnDisk uris) key = true) {document : Document}
    (found : workspace.store.file? key = some document) (shut : document.active = false) :
    ∃ later, (noteChanges affected workspace uris).2.store.file? key = some later ∧
      document.generation < later.generation := by
  obtain ⟨uri, member, both⟩ := List.any_eq_true.mp reported
  obtain ⟨filed, named⟩ := Bool.and_eq_true_iff.mp both
  rw [beq_iff_eq] at filed named
  clear reported both
  induction uris generalizing affected workspace document with
  | nil => cases member
  | cons first rest ih =>
    have asked := asked_noteChange affected workspace first
    have sound' : (noteChange affected workspace first).2.Sound :=
      ⟨asked.alike.formed sound.formed, asked.alike.keyed sound.keyed⟩
    have noted : Turned (fun _ => False) (fun _ => True) workspace (noteChange affected workspace first).2 :=
      asked.turned sound.keyed fun _ _ => trivial
    have later : Turned (fun _ => False) (fun _ => True) (noteChange affected workspace first).2
        (noteChanges affected workspace (first :: rest)).2 :=
      (asked_noteChanges _ _ rest).turned sound'.keyed fun _ _ => trivial
    rcases List.mem_cons.mp member with rfl | member
    · obtain ⟨next, found', newer⟩ := noteChange_renews affected sound.keyed filed (named ▸ found) shut
      obtain ⟨last, found'', ages⟩ := later.store.documents _ next found'
      exact ⟨last, named ▸ found'', Nat.lt_of_lt_of_le newer ages.generation⟩
    · obtain ⟨next, found', ages⟩ := noted.store.documents key document found
      rcases Nat.lt_or_eq_of_le ages.generation with newer | same
      · obtain ⟨last, found'', ages'⟩ := later.store.documents key next found'
        exact ⟨last, found'', Nat.lt_of_lt_of_le newer ages'.generation⟩
      · have shut' : next.active = false := by
          refine Bool.eq_false_iff.mpr fun active => ?_
          rcases ages.active same.symm active with sooner | none'
          · cases shut.symm.trans sooner
          · exact none'
        obtain ⟨last, found'', newer⟩ := ih (noteChange affected workspace first).1 sound' found' shut' member
        exact ⟨last, found'', same ▸ newer⟩

end Workspace

end SpecServer
