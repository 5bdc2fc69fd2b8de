import SpecServer.Workspace.Editing
set_option autoImplicit false

/-!
The parts of the handlers, and the ways that a handler can go. What the handling of events keeps and changes is proved
from these, case by case.
-/

namespace SpecServer.Workspace

variable {workspace before : Workspace}

-- the model's parser must not be unfolded to compare two keys
attribute [local irreducible] Uri.normalize

theorem acquire_spec (workspace : Workspace) (uri : Uri) (content : Option String) :
    (workspace.acquire uri content).1 = uri.normalize.normalize ∧
      (workspace.acquire uri content).2.registry = workspace.registry ∧
      (workspace.acquire uri content).2.store = workspace.store.acquire uri.normalize content := by
  simp only [acquire]
  split <;> exact ⟨trivial, rfl, rfl⟩

/-! ## Passes -/

section Passes

variable (holds : Workspace → Prop)
  (passes : ∀ (before : Workspace) (id : Nat) (context : Context), before.registry.get? id = some context →
    holds before → holds (before.runPass id context).2)

include passes

theorem revalidate_keeps (start : holds workspace) (id : Nat) : holds (workspace.revalidate id).2 := by
  simp only [revalidate]
  split
  · exact start
  next context found =>
    split
    · exact start
    · exact passes workspace id context found start

/-- What passes and lines of the log keep, the validation of any contexts keeps. -/
theorem revalidateAll_keeps
    (logs : ∀ (before : Workspace) (level : LogLevel) (text : String), holds before → holds (before.log level text))
    (start : holds workspace) (ids : List Nat) : holds (workspace.revalidateAll ids) := by
  induction ids generalizing workspace with
  | nil => exact start
  | cons id rest ih =>
    have first := revalidate_keeps holds passes start id
    simp only [revalidateAll]
    generalize workspace.revalidate id = outcome at first ⊢
    obtain ⟨result, after⟩ := outcome
    cases result with
    | ok passed => exact ih first
    | error error => exact ih (logs after .error error.message first)

end Passes

/-! ## The search for a context -/

/-- The first step of a release: the context that the document belonged to tracks it no longer. -/
def vacate (workspace : Workspace) (previous : Nat) (document : Uri) : Workspace :=
  match workspace.registry.get? previous with
  | none => workspace
  | some context =>
    let freed := workspace.modifyContext previous fun context => context.untrack document
    if context.isSynthesized then freed.removeKey (.synthesized context.configuration) else freed

/-- The second step of a release: the document is no input of that context. -/
def disclaim (workspace : Workspace) (previous : Nat) (document : Uri) : Workspace :=
  if workspace.registry.lookup (.input document) = some previous then workspace.removeKey (.input document)
  else workspace

/-- The last step of a release before the pruning: another context tracks the document if it is known. -/
def endorse (workspace : Workspace) (document : Uri) (successor : Nat) : Workspace :=
  match workspace.store.get? document with
  | none => workspace
  | some file => workspace.modifyContext successor fun context => context.track file.uri

theorem release_eq (workspace : Workspace) (previous : Nat) (document : Uri) (successor : Nat) :
    workspace.release previous document successor =
      ((((workspace.vacate previous document).disclaim previous document).endorse document successor).log .debug
        ("Moved " ++ document.render ++ " to another context")).prune := rfl

/-- The ways that the search for a context ends. -/
inductive Resolves (before : Workspace) (document : Uri) : Except WorkspaceError Nat × Workspace → Prop
  | failed (error : WorkspaceError) (after : Workspace) (chosen : before.choose document = (.error error, after)) :
    Resolves before document (.error error, after)
  | stayed (id : Nat) (after : Workspace) (chosen : before.choose document = (.ok id, after))
      (previous : ∀ old, before.registry.lookup (.input document) = some old → old = id) :
    Resolves before document (.ok id, after)
  | left (id : Nat) (settled : Workspace) (old : Nat) (chosen : before.choose document = (.ok id, settled))
      (previous : before.registry.lookup (.input document) = some old) (apart : old ≠ id) :
    Resolves before document (.ok id, settled.release old document id)

theorem resolve_cases (workspace : Workspace) (uri : Uri) : Resolves workspace uri.normalize (workspace.resolve uri) := by
  unfold resolve
  generalize uri.normalize = document
  simp only
  generalize chosen : workspace.choose document = outcome
  obtain ⟨result, after⟩ := outcome
  cases result with
  | error error => exact .failed error after chosen
  | ok id =>
    cases previous : workspace.registry.lookup (.input document) with
    | none => exact .stayed id after chosen fun old found => by cases previous.symm.trans found
    | some old =>
      simp only
      split
      next same => exact .stayed id after chosen fun other found => same ▸ Option.some.inj (found.symm.trans previous)
      next apart => exact .left id after old chosen previous apart

/-! ## Opening and changing -/

/-- Whether documents of a language are analysed. -/
def isAnalysed (language : String) : Bool :=
  Engine.isConfigurationLanguage language || Engine.isSpecificationLanguage language

/-- The workspace once the editor's text of a document is in place. -/
def opened (workspace : Workspace) (uri : Uri) (text : String) : Workspace :=
  let (key, workspace) := workspace.acquire uri.normalize none
  workspace.modifyFile key fun file => (file.setActive true).setContent (some text)

/-- The end of an edit: the context tracks the document, is at work, and is validated. -/
def engage (workspace : Workspace) (id : Nat) (key document : Uri) : Workspace :=
  let workspace := workspace.modifyContext id fun context => context.track key
  let workspace :=
    match workspace.registry.get? id with
    | none => workspace
    | some context =>
      if context.activated then workspace
      else
        (workspace.modifyContext id Context.activate).log .debug
          ("Activated context for " ++ context.configuration.render)
  let affected := workspace.registry.concerned document
  workspace.revalidateAll (if affected.contains id then affected else affected ++ [id])

/-- The end of an edit before the passes: the context tracks the document and is at work. -/
def enlisted (workspace : Workspace) (id : Nat) (key : Uri) : Workspace :=
  let workspace := workspace.modifyContext id fun context => context.track key
  match workspace.registry.get? id with
  | none => workspace
  | some context =>
    if context.activated then workspace
    else
      (workspace.modifyContext id Context.activate).log .debug
        ("Activated context for " ++ context.configuration.render)

/-- The contexts that an edit validates: those that the document matters to, and the one found for it. -/
def affected (workspace : Workspace) (id : Nat) (document : Uri) : List Nat :=
  if (workspace.registry.concerned document).contains id then workspace.registry.concerned document
  else workspace.registry.concerned document ++ [id]

theorem engage_eq (workspace : Workspace) (id : Nat) (key document : Uri) : workspace.engage id key document =
    (workspace.enlisted id key).revalidateAll ((workspace.enlisted id key).affected id document) := .refl _

theorem edit_of_analysed (workspace : Workspace) (uri : Uri) {language : String} (text : String)
    (analysed : isAnalysed language = true) :
    workspace.edit uri language text =
      match (workspace.opened uri text).resolve uri.normalize with
      | (.error error, after) => (.error error, after)
      | (.ok id, after) => (.ok (), after.engage id uri.normalize.normalize.normalize uri.normalize) := by
  rw [isAnalysed] at analysed
  unfold edit
  rw [if_pos analysed]
  simp only [opened]
  generalize uri.normalize = named
  have key := (acquire_spec workspace named none).1
  generalize workspace.acquire named none = acquired at key
  obtain ⟨found, acquired⟩ := acquired
  simp only at key
  subst key
  simp only
  generalize (acquired.modifyFile named.normalize.normalize fun file =>
    (file.setActive true).setContent (some text)).resolve named = outcome
  obtain ⟨result, after⟩ := outcome
  cases result with
  | error error => rfl
  | ok id => rfl

/-- The ways that an edit goes. A document of a language that is not analysed gets its text, but loses its
diagnostics. -/
inductive Edits (before : Workspace) (uri : Uri) (language text : String) :
    Except WorkspaceError Unit × Workspace → Prop
  | unknown (unanalysed : ¬isAnalysed language = true) (absent : before.store.get? uri.normalize = none) :
    Edits before uri language text (.ok (), before)
  | replaced (file : Document) (unanalysed : ¬isAnalysed language = true)
      (found : before.store.get? uri.normalize = some file) :
    Edits before uri language text
      (.ok (), ((before.modifyFile file.uri fun file => file.setContent (some text)).hide file.uri).forward)
  | failed (error : WorkspaceError) (after : Workspace) (analysed : isAnalysed language = true)
      (resolved : (before.opened uri text).resolve uri.normalize = (.error error, after)) :
    Edits before uri language text (.error error, after)
  | engaged (id : Nat) (settled : Workspace) (analysed : isAnalysed language = true)
      (resolved : (before.opened uri text).resolve uri.normalize = (.ok id, settled)) :
    Edits before uri language text (.ok (), settled.engage id uri.normalize.normalize.normalize uri.normalize)

theorem edit_cases (workspace : Workspace) (uri : Uri) (language text : String) :
    Edits workspace uri language text (workspace.edit uri language text) := by
  by_cases analysed : isAnalysed language = true
  · rw [edit_of_analysed workspace uri text analysed]
    generalize resolved : (workspace.opened uri text).resolve uri.normalize = outcome
    obtain ⟨result, after⟩ := outcome
    cases result with
    | error error => exact .failed error after analysed resolved
    | ok id => exact .engaged id after analysed resolved
  · have other := analysed
    rw [isAnalysed] at other
    unfold edit
    rw [if_neg other]
    simp only
    split
    next absent => exact .unknown analysed absent
    next file found => exact .replaced file analysed found

/-! ## Closing -/

def depart (workspace : Workspace) (id : Nat) (context : Context) (document key : Uri) : Workspace :=
  let freed :=
    if context.isSynthesized then workspace.removeKey (.synthesized context.configuration)
    else if !context.isSynthesized && context.configuration == document then workspace.removeKey (.configuration document)
    else workspace
  (freed.removeKey (.input document)).untrackAndHide id key

section Leaving

variable (holds : Workspace → Prop)
  (removes : ∀ (before : Workspace) (key : ContextKey), holds before → holds (before.removeKey key))
  (hides : ∀ (before : Workspace) (id : Nat) (key : Uri), holds before → holds (before.untrackAndHide id key))

include removes hides

/-- What outlasts that keys go and that documents leave their contexts, outlasts the dropping of inputs. -/
theorem foldl_dropInput_keeps (start : holds workspace) (id : Nat) (inputs : List Uri) :
    holds (inputs.foldl (dropInput id) workspace) := by
  induction inputs generalizing workspace with
  | nil => exact start
  | cons input rest ih =>
    refine ih ?_
    simp only [dropInput]
    split
    · exact start
    · split
      · exact start
      · exact hides _ id _ (removes workspace _ start)

theorem depart_keeps (start : holds workspace) (id : Nat) (context : Context) (document key : Uri) :
    holds (workspace.depart id context document key) := by
  refine hides _ id key (removes _ _ ?_)
  split
  · exact removes workspace _ start
  · split
    · exact removes workspace _ start
    · exact start

end Leaving

/-- The ways that a closing goes. -/
inductive Closes (before : Workspace) (document : Uri) : Workspace → Prop
  | unknown (absent : before.store.get? document = none) : Closes before document before
  | unowned (file : Document) (found : before.store.get? document = some file)
      (unowned : before.registry.ownerOf document = none) :
    Closes before document ((before.modifyFile file.uri fun file => file.setActive false).hide file.uri).forward
  | gone (file : Document) (id : Nat) (found : before.store.get? document = some file)
      (owned : before.registry.ownerOf document = some id) (absent : before.registry.get? id = none) :
    Closes before document before
  | owned (file : Document) (id : Nat) (owner : Context) (found : before.store.get? document = some file)
      (owned : before.registry.ownerOf document = some id) (held : before.registry.get? id = some owner) :
    Closes before document
      (((if !owner.isSynthesized && owner.configuration == document then owner.inputs.foldl (dropInput id) before
        else before).modifyFile file.uri fun file => file.setActive false).depart id owner document file.uri).prune

theorem close_cases (workspace : Workspace) (uri : Uri) : Closes workspace uri.normalize (workspace.close uri) := by
  unfold close
  generalize uri.normalize = document
  simp only
  split
  next absent => exact .unknown absent
  next file found =>
    split
    next unowned => exact .unowned file found unowned
    next id owned =>
      split
      next absent => exact .gone file id found owned absent
      next owner held => exact .owned file id owner found owned held

/-! ## Saving -/

/-- The ways that the saving of a document goes. -/
inductive Saves (before : Workspace) (uri : Uri) : Except WorkspaceError Unit × Workspace → Prop
  | ignored : Saves before uri (.ok (), before)
  | failed (error : WorkspaceError) (after : Workspace) (resolved : before.resolve uri.normalize = (.error error, after)) :
    Saves before uri (.error error, after)
  | kept (id : Nat) (settled : Workspace) (resolved : before.resolve uri.normalize = (.ok id, settled)) :
    Saves before uri (.ok (), settled)
  | written (id : Nat) (settled : Workspace) (path : List UInt8) (content : String)
      (resolved : before.resolve uri.normalize = (.ok id, settled)) :
    Saves before uri (settled.writeShadow path content)

theorem save_cases (workspace : Workspace) (uri : Uri) (text : String) :
    Saves workspace uri (workspace.save uri text) := by
  unfold save
  simp only
  split
  · split
    · exact .ignored
    · split
      next error after resolved => exact .failed error after resolved
      next id settled resolved =>
        split
        · exact .kept id settled resolved
        next path _ =>
          split
          · exact .written id settled path _ resolved
          · exact .kept id settled resolved
  · exact .ignored

end SpecServer.Workspace
