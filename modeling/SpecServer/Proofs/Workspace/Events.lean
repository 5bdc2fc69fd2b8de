import SpecServer.Proofs.Workspace.Asking
import SpecServer.Proofs.Workspace.Resolution
set_option autoImplicit false

/-!
What each event does to the outline of the registry and to the status of documents. Opening and closing are
the only events that move documents between contexts.
-/

namespace SpecServer.Workspace

variable {workspace : Workspace}

-- the model's parser must not be unfolded to compare two keys
attribute [local irreducible] Uri.normalize

/-! ## Pruning -/

private theorem dispose_spec (workspace : Workspace) (context : Context) :
    (workspace.dispose context).registry = workspace.registry ∧
      (workspace.dispose context).store.status? = workspace.store.status? := by
  refine ⟨rfl, ?_⟩
  simp only [dispose, Context.teardown]
  exact Store.status?_foldl_hide workspace.store context.tracked

private theorem foldl_dispose_spec (workspace : Workspace) (removed : List Context) :
    (removed.foldl dispose workspace).registry = workspace.registry ∧
      (removed.foldl dispose workspace).store.status? = workspace.store.status? := by
  induction removed generalizing workspace with
  | nil => exact ⟨rfl, rfl⟩
  | cons context rest ih =>
    obtain ⟨registry, status⟩ := dispose_spec workspace context
    obtain ⟨registry', status'⟩ := ih (workspace.dispose context)
    exact ⟨registry'.trans registry, status'.trans status⟩

theorem registry_prune (workspace : Workspace) :
    workspace.prune.registry = (workspace.registry.prune workspace.store.isActive).2 :=
  (foldl_dispose_spec { workspace with registry := (workspace.registry.prune workspace.store.isActive).2 } _).1

theorem prune_spec (workspace : Workspace) :
    workspace.prune.registry.outline = (workspace.registry.outline.prune workspace.prune.store.isActive).2 ∧
      workspace.prune.store.status? = workspace.store.status? := by
  have status : workspace.prune.store.status? = workspace.store.status? :=
    (foldl_dispose_spec { workspace with registry := (workspace.registry.prune workspace.store.isActive).2 } _).2
  refine ⟨?_, status⟩
  rw [registry_prune, Store.isActive_congr status, Registry.outline_prune]

/-! ## Releasing -/

private theorem outline_untrack (workspace : Workspace) (id : Nat) (key : Uri) :
    (workspace.modifyContext id fun context => context.untrack key).registry.outline =
      workspace.registry.outline.modify id fun context => context.untrack key :=
  Registry.outline_modify _ id fun context => Context.outline_untrack context key

theorem vacate_spec (workspace : Workspace) (previous : Nat) (document : Uri) :
    (workspace.vacate previous document).registry.outline = workspace.registry.outline.vacate previous document ∧
      (workspace.vacate previous document).store = workspace.store := by
  simp only [vacate, Registry.vacate, Registry.get?_outline]
  cases workspace.registry.get? previous with
  | none => exact ⟨rfl, rfl⟩
  | some context =>
    have untracked := outline_untrack workspace previous document
    simp only [Option.map_some, Context.outline_isSynthesized, Context.outline_configuration]
    by_cases synthesized : context.isSynthesized = true
    · simp only [synthesized, ↓reduceIte, removeKey, Registry.outline_removeKey, untracked]
      exact ⟨trivial, rfl⟩
    · simp only [synthesized]
      exact ⟨untracked, rfl⟩

theorem disclaim_spec (workspace : Workspace) (previous : Nat) (document : Uri) :
    (workspace.disclaim previous document).registry.outline = workspace.registry.outline.disclaim previous document ∧
      (workspace.disclaim previous document).store = workspace.store := by
  simp only [disclaim, Registry.disclaim, Registry.lookup_outline]
  split <;> exact ⟨rfl, rfl⟩

theorem endorse_spec (workspace : Workspace) (keyed : workspace.store.Keyed) (document : Uri) (successor : Nat) :
    (workspace.endorse document successor).registry.outline =
      (if (workspace.store.status? document.normalize).isSome then
        workspace.registry.outline.hold successor document.normalize
      else workspace.registry.outline) ∧
      (workspace.endorse document successor).store = workspace.store := by
  simp only [endorse]
  cases found : workspace.store.get? document with
  | none => simp only [Store.status?_of_get?_eq_none found, Option.isSome_none, Bool.false_eq_true, ↓reduceIte, and_self]
  | some file =>
    simp only [Store.status?_of_get? found, Option.isSome_some, ↓reduceIte, keyed.uri_of_get? found, outline_hold]
    exact ⟨trivial, rfl⟩

theorem release_spec (keyed : workspace.store.Keyed) (previous : Nat) (document : Uri) (successor : Nat) :
    (workspace.release previous document successor).registry.outline =
      ((if (workspace.store.status? document.normalize).isSome then
          (workspace.registry.outline.release previous document).hold successor document.normalize
        else workspace.registry.outline.release previous document).prune
          (workspace.release previous document successor).store.isActive).2 ∧
      (workspace.release previous document successor).store.status? = workspace.store.status? := by
  obtain ⟨vacated, stored⟩ := vacate_spec workspace previous document
  obtain ⟨disclaimed, stored'⟩ := disclaim_spec (workspace.vacate previous document) previous document
  have kept := stored'.trans stored
  obtain ⟨endorsed, stored''⟩ := endorse_spec ((workspace.vacate previous document).disclaim previous document)
    (kept.symm ▸ keyed) document successor
  rw [kept, disclaimed, vacated] at endorsed
  rw [release_eq]
  generalize ((workspace.vacate previous document).disclaim previous document).endorse document successor = moved
    at endorsed stored''
  obtain ⟨pruned, status⟩ := prune_spec (moved.log .debug ("Moved " ++ document.render ++ " to another context"))
  refine ⟨?_, status.trans ?_⟩
  · rw [pruned]
    exact congrArg (fun registry => (Registry.prune registry _).2) endorsed
  · exact congrArg Store.status? (stored''.trans kept)

/-- What the search for a context gives, the release of the one before included. -/
inductive Resolved (before : Workspace) (document : Uri) : Except WorkspaceError Nat → Workspace → Prop
  | failed (error : WorkspaceError) (after : Workspace) (outline : after.registry.outline = before.registry.outline)
      (grows : Store.Grows (IsPlaceholder document) before.store after.store) :
    Resolved before document (.error error) after
  | stayed (choice : Choice) (id : Nat) (after : Workspace) (chosen : before.choice? document = some choice)
      (moved : before.registry.outline.settle document choice = (id, after.registry.outline))
      (previous : ∀ old, before.registry.lookup (.input document) = some old → old = id)
      (grows : Store.Grows (IsPlaceholder document) before.store after.store) :
    Resolved before document (.ok id) after
  | left (choice : Choice) (id : Nat) (settled : Registry) (old : Nat) (after : Workspace)
      (chosen : before.choice? document = some choice)
      (moved : before.registry.outline.settle document choice = (id, settled))
      (previous : before.registry.lookup (.input document) = some old) (apart : old ≠ id)
      (outline : after.registry.outline =
        ((if (after.store.status? document.normalize).isSome then
            (settled.release old document).hold id document.normalize
          else settled.release old document).prune after.store.isActive).2)
      (grows : Store.Grows (IsPlaceholder document) before.store after.store) :
    Resolved before document (.ok id) after

theorem resolve_spec (formed : workspace.registry.WellFormed) (keyed : workspace.store.Keyed) (uri : Uri) :
    Resolved workspace uri.normalize (workspace.resolve uri).1 (workspace.resolve uri).2 := by
  have searched := choose_spec formed uri.normalize
  have resolves := resolve_cases workspace uri
  generalize workspace.resolve uri = outcome at resolves ⊢
  generalize uri.normalize = document at searched resolves ⊢
  cases resolves with
  | failed error after done =>
    rw [done] at searched
    cases searched with
    | failed _ _ outline grows => exact .failed error after outline grows
  | stayed id after done previous =>
    rw [done] at searched
    cases searched with
    | settled choice _ _ chosen moved grows => exact .stayed choice id after chosen moved previous grows
  | left id settled old done previous apart =>
    rw [done] at searched
    cases searched with
    | settled choice _ _ chosen moved grows =>
      obtain ⟨outline, status⟩ := release_spec (grows.keyed keyed) old document id
      rw [← status] at outline
      exact .left choice id settled.registry.outline old _ chosen moved previous apart outline
        (grows.trans (.of_status status))

/-! ## Opening and changing -/

/-- What opens with a document: the document itself, and the configuration generated for it. -/
def Opens (document key : Uri) : Prop :=
  key = document.normalize ∨ IsPlaceholder document key

/-- What the opening or a change of a document leads to. The document comes under the form that its context is
looked for. -/
inductive Edited (before : Workspace) (document : Uri) (analysed : Bool) (choice? : Option Choice) :
    Except WorkspaceError Unit → Workspace → Prop
  | ignored (after : Workspace) (unanalysed : analysed = false) (alike : Alike before after) :
    Edited before document analysed choice? (.ok ()) after
  | failed (error : WorkspaceError) (after : Workspace) (outline : after.registry.outline = before.registry.outline)
      (grows : Store.Grows (Opens document) before.store after.store) :
    Edited before document analysed choice? (.error error) after
  | stayed (choice : Choice) (id : Nat) (settled : Registry) (after : Workspace) (analyses : analysed = true)
      (chosen : choice? = some choice) (settles : before.registry.outline.settle document choice = (id, settled))
      (previous : ∀ old, before.registry.lookup (.input document) = some old → old = id)
      (outline : after.registry.outline = settled.hold id document.normalize)
      (grows : Store.Grows (Opens document) before.store after.store)
      (active : after.store.isActive document.normalize) :
    Edited before document analysed choice? (.ok ()) after
  | left (choice : Choice) (id : Nat) (settled : Registry) (old : Nat) (after : Workspace) (analyses : analysed = true)
      (chosen : choice? = some choice) (settles : before.registry.outline.settle document choice = (id, settled))
      (previous : before.registry.lookup (.input document) = some old) (apart : old ≠ id)
      (outline : after.registry.outline =
        (((settled.release old document).hold id document.normalize).prune after.store.isActive).2.hold id
          document.normalize)
      (grows : Store.Grows (Opens document) before.store after.store)
      (active : after.store.isActive document.normalize) :
    Edited before document analysed choice? (.ok ()) after

theorem opened_spec (workspace : Workspace) (uri : Uri) (text : String) :
    (workspace.opened uri text).registry = workspace.registry ∧
      Store.Grows (Opens uri.normalize.normalize) workspace.store (workspace.opened uri text).store ∧
      (workspace.opened uri text).store.isActive uri.normalize.normalize.normalize := by
  simp only [opened]
  generalize uri.normalize = named
  obtain ⟨key, kept, stored⟩ := acquire_spec workspace named none
  have known := Store.known_acquire workspace.store named.normalize none
  rw [← stored] at known
  generalize workspace.acquire named none = acquired at key kept stored known
  obtain ⟨found, acquired⟩ := acquired
  simp only [modifyFile] at key kept stored known ⊢
  subst key
  refine ⟨kept, ?_, Store.isActive_open (fun _ => ⟨rfl, rfl⟩) known⟩
  have grown : Store.Grows (Opens named.normalize) workspace.store acquired.store :=
    stored.symm ▸ Store.grows_acquire workspace.store _ _
  refine grown.trans (Store.grows_open acquired.store named.normalize.normalize ?_ (Or.inl rfl))
  exact fun _ => ⟨rfl, rfl⟩

private theorem outline_enlisted (workspace : Workspace) (id : Nat) (key : Uri) :
    (workspace.enlisted id key).registry.outline = workspace.registry.outline.hold id key := by
  have tracked := outline_hold workspace id key
  simp only [enlisted]
  split
  · exact tracked
  · split
    · exact tracked
    · have activated : ((workspace.modifyContext id fun context => context.track key).modifyContext id
          Context.activate).registry.outline = _ := Registry.outline_modify_eq _ _ fun _ => rfl
      exact activated.trans tracked

theorem store_enlisted (workspace : Workspace) (id : Nat) (key : Uri) :
    (workspace.enlisted id key).store = workspace.store := by
  simp only [enlisted]
  split
  · rfl
  · split <;> rfl

theorem formed_enlisted (formed : workspace.registry.WellFormed) (id : Nat) (key : Uri) :
    (workspace.enlisted id key).registry.WellFormed := by
  rw [← Registry.wellFormed_outline, outline_enlisted]
  exact (Registry.wellFormed_outline.mpr formed).modify id _

theorem engage_spec (formed : workspace.registry.WellFormed) (id : Nat) (key document : Uri) :
    (workspace.engage id key document).registry.outline = workspace.registry.outline.hold id key ∧
      (workspace.engage id key document).store.status? = workspace.store.status? := by
  have validated := fun ids => alike_revalidateAll (formed_enlisted formed id key) ids
  rw [engage_eq]
  exact ⟨(validated _).outline.trans (outline_enlisted workspace id key),
    (validated _).status.trans (congrArg Store.status? (store_enlisted workspace id key))⟩

/-- A document of another language gets its text and loses its diagnostics. -/
theorem alike_replaced (workspace : Workspace) (key : Uri) (text : String) :
    Alike workspace ((workspace.modifyFile key fun file => file.setContent (some text)).hide key).forward := by
  have replaced : Alike workspace (workspace.modifyFile key fun file => file.setContent (some text)) :=
    alike_modifyFile _ _ fun _ => ⟨rfl, rfl⟩
  exact replaced.trans ((alike_hide _ _).trans (alike_forward _))

theorem edit_of_unanalysed (workspace : Workspace) (uri : Uri) {language : String} (text : String)
    (unanalysed : ¬ isAnalysed language = true) :
    (workspace.edit uri language text).1 = .ok () ∧ Alike workspace (workspace.edit uri language text).2 := by
  have edits := edit_cases workspace uri language text
  generalize workspace.edit uri language text = outcome at edits ⊢
  cases edits with
  | unknown _ _ => exact ⟨rfl, .rfl⟩
  | replaced file _ _ => exact ⟨rfl, alike_replaced workspace file.uri text⟩
  | failed _ _ analysed _ => exact absurd analysed unanalysed
  | engaged _ _ analysed _ => exact absurd analysed unanalysed

theorem settled_formed (formed : workspace.registry.WellFormed) {document : Uri} {choice : Choice} {id : Nat}
    {settled : Registry} (settles : workspace.registry.outline.settle document choice = (id, settled)) :
    settled.WellFormed := by
  have settling := Registry.settled_of_settle (Registry.wellFormed_outline.mpr formed) settles
  exact settling.formed

theorem edit_spec (formed : workspace.registry.WellFormed) (keyed : workspace.store.Keyed) (uri : Uri)
    (language text : String) :
    Edited workspace uri.normalize.normalize (isAnalysed language)
      ((workspace.opened uri text).choice? uri.normalize.normalize) (workspace.edit uri language text).1
      (workspace.edit uri language text).2 := by
  by_cases analysed : isAnalysed language = true
  · obtain ⟨kept, grows, active⟩ := opened_spec workspace uri text
    have formed' : (workspace.opened uri text).registry.WellFormed := kept.symm ▸ formed
    have resolved := resolve_spec formed' (grows.keyed keyed) uri.normalize
    rw [edit_of_analysed workspace uri text analysed]
    generalize workspace.opened uri text = opened at kept grows active formed' resolved ⊢
    generalize uri.normalize = named at *
    generalize opened.resolve named = outcome at resolved
    obtain ⟨result, after⟩ := outcome
    cases resolved with
    | failed error _ outline more =>
      exact .failed error after (outline.trans (congrArg _ kept)) (grows.trans (more.mono fun _ => .inr))
    | stayed choice id _ chosen moved previous more =>
      rw [kept] at moved previous
      have formed'' : after.registry.WellFormed := by
        rw [← Registry.wellFormed_outline]
        exact settled_formed formed moved
      obtain ⟨outline, status⟩ := engage_spec formed'' id named.normalize.normalize named
      have active' := more.active _ active
      rw [← Store.isActive_congr status] at active'
      exact .stayed choice id after.registry.outline _ analysed chosen moved previous outline
        ((grows.trans (more.mono fun _ => .inr)).trans (.of_status status)) active'
    | left choice id settled old _ chosen moved previous apart pruned more =>
      rw [kept] at moved previous
      have active' := more.active _ active
      have known : (after.store.status? named.normalize.normalize).isSome := Store.known_of_isActive active'
      rw [if_pos known] at pruned
      have formed'' : after.registry.WellFormed := by
        rw [← Registry.wellFormed_outline, pruned]
        exact (((settled_formed formed moved).release old _).modify id _).prune _
      obtain ⟨outline, status⟩ := engage_spec formed'' id named.normalize.normalize named
      rw [pruned, ← Store.isActive_congr status] at outline
      rw [← Store.isActive_congr status] at active'
      exact .left choice id settled old _ analysed chosen moved previous apart outline
        ((grows.trans (more.mono fun _ => .inr)).trans (.of_status status)) active'
  · obtain ⟨done, alike⟩ := edit_of_unanalysed workspace uri text analysed
    rw [done]
    exact .ignored _ (Bool.not_eq_true _ ▸ analysed) alike

/-! ## Closing -/

/-- Whether a document is known to the store but not open. -/
def isShut (store : Store) (key : Uri) : Bool :=
  (store.status? key).any fun entry => !entry.2

/-- What the closing of a document leads to. -/
inductive Closed (before : Workspace) (document : Uri) (after : Workspace) : Prop
  | unknown (absent : before.store.status? document.normalize = none) (same : after = before)
  | unowned (unowned : before.registry.ownerOf document = none)
      (outline : after.registry.outline = before.registry.outline)
      (shuts : Store.Shuts document.normalize before.store after.store)
  | owned (id : Nat) (context : Context) (inputs : List Uri) (owned : before.registry.ownerOf document = some id)
      (found : before.registry.outline.get? id = some context)
      (outline : after.registry.outline =
        (((if !context.isSynthesized && context.configuration == document then
            inputs.foldl (Registry.drop id (isShut before.store)) before.registry.outline
          else before.registry.outline).leave id context document document.normalize).prune after.store.isActive).2)
      (shuts : Store.Shuts document.normalize before.store after.store)

private theorem untrackAndHide_spec (workspace : Workspace) (id : Nat) (key : Uri) :
    (workspace.untrackAndHide id key).registry.outline =
        workspace.registry.outline.modify id (fun context => context.untrack key) ∧
      (workspace.untrackAndHide id key).store.status? = workspace.store.status? :=
  ⟨outline_untrack workspace id key, Store.status?_hide _ _⟩

theorem dropInput_spec (keyed : workspace.store.Keyed) (id : Nat) (input : Uri) :
    (dropInput id workspace input).registry.outline =
        workspace.registry.outline.drop id (isShut workspace.store) input ∧
      (dropInput id workspace input).store.status? = workspace.store.status? := by
  simp only [dropInput, Registry.drop]
  cases found : workspace.store.get? input with
  | none =>
    have shut : isShut workspace.store input.normalize = false := by
      rw [isShut, Store.status?_of_get?_eq_none found, Option.any_none]
    simp only [shut]
    exact ⟨rfl, trivial⟩
  | some file =>
    have named := keyed.uri_of_get? found
    have shut : isShut workspace.store input.normalize = !file.active := by
      rw [isShut, Store.status?_of_get? found, Option.any_some]
    simp only [shut, named]
    cases file.active with
    | true => exact ⟨rfl, rfl⟩
    | false => exact untrackAndHide_spec (workspace.removeKey (.input input)) id input.normalize

theorem foldl_dropInput_spec (keyed : workspace.store.Keyed) (id : Nat) (inputs : List Uri) :
    (inputs.foldl (dropInput id) workspace).registry.outline =
        inputs.foldl (Registry.drop id (isShut workspace.store)) workspace.registry.outline ∧
      (inputs.foldl (dropInput id) workspace).store.status? = workspace.store.status? := by
  induction inputs generalizing workspace with
  | nil => exact ⟨rfl, rfl⟩
  | cons input rest ih =>
    obtain ⟨outline, status⟩ := dropInput_spec keyed id input
    obtain ⟨outline', status'⟩ := ih (keyed.congr status)
    have shut : isShut (dropInput id workspace input).store = isShut workspace.store := by
      funext key
      rw [isShut, isShut, status]
    rw [shut, outline] at outline'
    exact ⟨outline', status'.trans status⟩

theorem depart_spec (workspace : Workspace) (id : Nat) (context : Context) (document key : Uri) :
    (workspace.depart id context document key).registry.outline =
        workspace.registry.outline.leave id context.outline document key ∧
      (workspace.depart id context document key).store.status? = workspace.store.status? := by
  simp only [depart, Registry.leave, Context.outline_isSynthesized, Context.outline_configuration]
  by_cases synthesized : context.isSynthesized = true
  · simp only [synthesized, ↓reduceIte]
    exact untrackAndHide_spec _ id key
  · by_cases own : (context.configuration == document) = true
    · simp only [synthesized, own, Bool.false_eq_true, Bool.not_false, Bool.and_self, ↓reduceIte]
      exact untrackAndHide_spec _ id key
    · simp only [synthesized, own, Bool.false_eq_true, Bool.not_false, Bool.and_false, ↓reduceIte]
      exact untrackAndHide_spec _ id key

theorem close_spec (formed : workspace.registry.WellFormed) (keyed : workspace.store.Keyed) (uri : Uri) :
    Closed workspace uri.normalize (workspace.close uri) := by
  have closes := close_cases workspace uri
  generalize workspace.close uri = after at closes ⊢
  generalize uri.normalize = document at closes ⊢
  have shut : ∀ {file : Document}, workspace.store.get? document = some file →
      ∀ store : Store, store.status? = workspace.store.status? → ∀ key,
        (store.modify file.uri fun file => file.setActive false).status? key =
          if key = document.normalize then (workspace.store.status? key).map fun entry => (entry.1, false)
          else workspace.store.status? key := by
    intro file known store same key
    rw [← same, ← keyed.uri_of_get? known]
    exact Store.status?_modify_active store file.uri key false fun _ => ⟨rfl, rfl⟩
  cases closes with
  | unknown absent => exact .unknown (Store.status?_of_get?_eq_none absent) rfl
  | gone file id _ owned absent =>
    obtain ⟨owner, held, -⟩ := Registry.ownerOf_cases formed owned
    cases held.symm.trans absent
  | unowned file known unowned =>
    refine .unowned unowned rfl fun key => ?_
    rw [← shut known workspace.store rfl]
    exact congrFun (Store.status?_hide _ _) key
  | owned file id owner known owned held =>
    have dropped : ∀ own : Bool,
        (if own then owner.inputs.foldl (dropInput id) workspace else workspace).registry.outline =
            (if own then owner.inputs.foldl (Registry.drop id (isShut workspace.store)) workspace.registry.outline
              else workspace.registry.outline) ∧
          (if own then owner.inputs.foldl (dropInput id) workspace else workspace).store.status? =
            workspace.store.status? := by
      intro own
      cases own with
      | true => exact foldl_dropInput_spec keyed id owner.inputs
      | false => exact ⟨rfl, rfl⟩
    have outlined : workspace.registry.outline.get? id = some owner.outline := by
      rw [Registry.get?_outline, held, Option.map_some]
    obtain ⟨outline, status⟩ := dropped (!owner.isSynthesized && owner.configuration == document)
    -- the inputs go first, then the document is closed and leaves
    generalize (if (!owner.isSynthesized && owner.configuration == document) = true then
      owner.inputs.foldl (dropInput id) workspace else workspace) = rest at outline status ⊢
    obtain ⟨left, shown⟩ :=
      depart_spec (rest.modifyFile file.uri fun file => file.setActive false) id owner document file.uri
    obtain ⟨pruned, unchanged⟩ :=
      prune_spec ((rest.modifyFile file.uri fun file => file.setActive false).depart id owner document file.uri)
    refine .owned id owner.outline owner.inputs owned outlined ?_ fun key => ?_
    · rw [pruned, left, keyed.uri_of_get? known]
      exact congrArg (fun registry => ((Registry.leave registry id _ document _).prune _).2) outline
    · rw [unchanged, shown]
      exact shut known rest.store status key

/-! ## Reports and savings -/

theorem alike_changedOnDisk (formed : workspace.registry.WellFormed) (uris : List Uri) :
    Alike workspace (workspace.changedOnDisk uris) := by
  have noted := (asked_noteChanges [] workspace uris).alike
  exact noted.trans (alike_revalidateAll (noted.formed formed) _)

/-- What saving a document leads to: the search for its context, or nothing. -/
inductive Saved (before : Workspace) (document : Uri) (after : Workspace) : Prop
  | ignored (alike : Alike before after)
  | resolved (result : Except WorkspaceError Nat) (middle : Workspace) (resolved : Resolved before document result middle)
      (alike : Alike middle after)

private theorem alike_writeShadow (workspace : Workspace) (path : List UInt8) (content : String) :
    Alike workspace (workspace.writeShadow path content).2 := by
  simp only [writeShadow]
  split
  · exact .rfl
  · exact ⟨rfl, rfl⟩

theorem save_spec (formed : workspace.registry.WellFormed) (keyed : workspace.store.Keyed) (uri : Uri) (text : String) :
    Saved workspace uri.normalize.normalize (workspace.save uri text).2 := by
  have resolved := resolve_spec formed keyed uri.normalize
  have saves := save_cases workspace uri text
  generalize workspace.save uri text = outcome at saves ⊢
  cases saves with
  | ignored => exact .ignored .rfl
  | failed error after done =>
    rw [done] at resolved
    exact .resolved _ after resolved .rfl
  | kept id after done =>
    rw [done] at resolved
    exact .resolved _ after resolved .rfl
  | written id settled path content done =>
    rw [done] at resolved
    exact .resolved _ settled resolved (alike_writeShadow settled path content)

end SpecServer.Workspace
