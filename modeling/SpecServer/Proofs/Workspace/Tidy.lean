import SpecServer.Proofs.Registry.Placement
import SpecServer.Proofs.Workspace.Coherence
set_option autoImplicit false

/-!
Between the events of a run nothing is left to prune, although pruning takes place only where a document moves
or is closed. The documents of the run must each have a generated configuration of their own, which their URIs
tell.
-/

namespace SpecServer

/-- The document that the editor edits, closes or saves. -/
def Event.document? : Event → Option Uri
  | .edit uri _ _ => some uri
  | .close uri => some uri
  | .save uri _ => some uri
  | _ => none

/-- Whether an event is about no document but those named, and saves none of them. -/
def Event.Concerns (named : Uri → Prop) (event : Event) : Prop :=
  event.isSave = false ∧ ∀ uri, event.document? = some uri → named uri.normalize

namespace Workspace

-- the model's parser must not be unfolded to compare two keys
attribute [local irreducible] Uri.normalize

/-- What is asked of the documents of a run. They were read, as the editor's messages are; their normal forms
are normal and end in no slash; and none is the configuration that is generated for another one. -/
structure PlainDocuments (documents : List Uri) : Prop where
  read : ∀ document ∈ documents, ∃ text, Uri.parse text = .ok document
  fixed : ∀ document ∈ documents, document.normalize.normalize = document.normalize
  closed : ∀ document ∈ documents, document.normalize.text.getLast? ≠ some '/'
  apart : ∀ document ∈ documents, ∀ other ∈ documents, document.normalize ≠ other.normalize →
    other.normalize.generated ≠ .ok document.normalize

theorem PlainDocuments.of_subset {documents fewer : List Uri} (plain : PlainDocuments documents)
    (among : ∀ document ∈ fewer, document ∈ documents) : PlainDocuments fewer :=
  ⟨fun document member => plain.read document (among document member),
    fun document member => plain.fixed document (among document member),
    fun document member => plain.closed document (among document member),
    fun document member other member' => plain.apart document (among document member) other (among other member')⟩

/-- Whether a URI is the normal form of a document. -/
def Named (documents : List Uri) (key : Uri) : Prop :=
  ∃ document ∈ documents, document.normalize = key

theorem PlainDocuments.plain {documents : List Uri} (plain : PlainDocuments documents) : Uri.Plain (Named documents) := by
  have legible : ∀ document ∈ documents, document.normalize.Legible := by
    intro document member
    obtain ⟨text, parsed⟩ := plain.read document member
    exact (Uri.legible_parse parsed).normalize
  refine ⟨?_, ?_, ?_, ?_⟩
  · rintro _ ⟨document, member, rfl⟩
    exact legible document member
  · rintro _ ⟨document, member, rfl⟩
    exact plain.fixed document member
  · rintro _ ⟨document, member, rfl⟩
    exact plain.closed document member
  · rintro _ _ ⟨document, member, rfl⟩ ⟨other, member', rfl⟩ made
    by_cases same : document.normalize = other.normalize
    · rw [← same] at made
      exact Uri.generated_ne (legible document member) (plain.fixed document member) (plain.closed document member) made
    · exact plain.apart document member other member' same made

/-- What every state of such a run keeps. -/
structure Tended (named : Uri → Prop) (workspace : Workspace) : Prop where
  coherent : workspace.registry.outline.Coherent
  tidy : workspace.registry.outline.Tidy named fun document => (workspace.store.status? document).isSome
  inUse : workspace.registry.outline.InUse workspace.store.isActive

variable {named : Uri → Prop} {workspace before after : Workspace} {document : Uri}

theorem generated_of_choice? {configuration : Uri} (chosen : workspace.choice? document = some (.generated configuration)) :
    document.generated = .ok configuration := by
  simp only [choice?] at chosen
  cases governed : workspace.governing? document with
  | some found =>
    simp only [governed, Option.some.injEq] at chosen
    split at chosen <;> cases chosen
  | none =>
    simp only [governed] at chosen
    cases made : document.generated with
    | error error => simp [made, Except.toOption] at chosen
    | ok other =>
      simp only [made, Except.toOption, Option.map_some, Option.some.injEq, Choice.generated.injEq] at chosen
      rw [chosen]

/-! ## One step -/

private theorem Tended.alike (tended : before.Tended named) (alike : Alike before after) : after.Tended named := by
  obtain ⟨coherent, tidy, inUse⟩ := tended
  rw [← alike.outline] at coherent tidy inUse
  rw [← Store.isActive_congr alike.status] at inUse
  rw [← alike.status] at tidy
  exact ⟨coherent, tidy, inUse⟩

/-- What an edit makes of the registry and of the store, where the document is normal. -/
theorem Tended.placed (tended : before.Tended named) {analysed : Bool} {choice? : Option Choice}
    {result : Except WorkspaceError Unit} (fixed : document.normalize = document)
    (made : ∀ configuration, choice? = some (.generated configuration) → document.generated = .ok configuration)
    (edited : Edited before document analysed choice? result after) :
    before.registry.outline.Placed document after.store.isActive after.registry.outline ∧
      Store.Grows (Opens document) before.store after.store := by
  cases edited with
  | ignored _ _ alike => exact ⟨alike.outline ▸ .same, .of_status alike.status⟩
  | failed _ _ outline grows => exact ⟨outline ▸ .same, grows⟩
  | stayed choice id settled _ _ chosen settles _ outline grows active =>
    rw [fixed] at outline active
    have settling := Registry.settled_of_settle tended.coherent.formed settles
    refine ⟨outline ▸ .stayed choice id settled active (fun configuration same => ?_) settling, grows⟩
    exact made configuration (chosen.trans (congrArg some same))
  | left choice id settled old _ _ chosen settles previous _ outline grows active =>
    rw [fixed] at outline active
    have settling := Registry.settled_of_settle tended.coherent.formed settles
    have claimed : before.registry.outline.target? (.input document) = some old := by
      rw [← tended.coherent.lookup, Registry.lookup_outline]
      exact previous
    refine ⟨outline ▸ .moved choice id settled old active (fun configuration same => ?_) settling claimed, grows⟩
    exact made configuration (chosen.trans (congrArg some same))

/-- What a closing makes of the registry and of the store, where the document is normal. -/
theorem Tended.withdrawn (tended : before.Tended named) (fixed : document.normalize = document)
    (closed : Closed before document after) :
    (before.store.status? document = none ∧ after = before) ∨
      before.registry.outline.Withdrawn document (isShut before.store) after.store.isActive after.registry.outline ∧
        Store.Shuts document before.store after.store := by
  cases closed with
  | unknown absent same =>
    rw [fixed] at absent
    exact .inl ⟨absent, same⟩
  | unowned unowned outline shuts =>
    rw [fixed] at shuts
    refine .inr ⟨?_, shuts⟩
    rw [outline]
    exact .same ((Registry.ownerOf_outline _ _).trans unowned)
  | owned id context inputs owned found outline shuts =>
    rw [fixed] at outline shuts
    rw [← Registry.ownerOf_outline] at owned
    refine .inr ⟨outline ▸ .left id context _ ?_ owned found, shuts⟩
    split
    · exact tended.coherent.loosened_foldl_drop id _ inputs
    · exact tended.coherent.loosened_refl _

/-- What a step of a run over normal documents does. -/
inductive Effect (named : Uri → Prop) (before : Workspace) : Event → Workspace → Prop
  | quiet (event : Event) (after : Workspace) (still : event.moves = false) (alike : Alike before after) :
    Effect named before event after
  | placed (uri : Uri) (language text : String) (after : Workspace) (name : named uri.normalize)
      (placed : before.registry.outline.Placed uri.normalize after.store.isActive after.registry.outline)
      (grows : Store.Grows (Opens uri.normalize) before.store after.store) :
    Effect named before (.edit uri language text) after
  | unknown (uri : Uri) (name : named uri.normalize) (absent : before.store.status? uri.normalize = none) :
    Effect named before (.close uri) before
  | withdrawn (uri : Uri) (after : Workspace) (name : named uri.normalize)
      (withdrawn : before.registry.outline.Withdrawn uri.normalize (isShut before.store) after.store.isActive
        after.registry.outline)
      (shuts : Store.Shuts uri.normalize before.store after.store) : Effect named before (.close uri) after

theorem Tended.effect (plain : Uri.Plain named) (tended : before.Tended named) {event : Event}
    (concerns : event.Concerns named) (stepped : Stepped before event after) : Effect named before event after := by
  obtain ⟨silent, names⟩ := concerns
  cases stepped with
  | quiet _ _ still alike => exact .quiet event after still alike
  | edited uri language text result _ _ edited =>
    have name := names uri rfl
    rw [plain.fixed _ name] at edited
    obtain ⟨placed, grows⟩ := tended.placed (plain.fixed _ name) (fun _ => generated_of_choice?) edited
    exact .placed uri language text after name placed grows
  | closed uri _ closed =>
    have name := names uri rfl
    rcases tended.withdrawn (plain.fixed _ name) closed with ⟨absent, rfl⟩ | ⟨withdrawn, shuts⟩
    · exact .unknown uri name absent
    · exact .withdrawn uri after name withdrawn shuts
  | saved => cases silent

theorem Effect.tended (plain : Uri.Plain named) {event : Event} (effect : Effect named before event after)
    (tended : before.Tended named) : after.Tended named := by
  cases effect with
  | quiet _ _ _ alike => exact tended.alike alike
  | placed uri _ _ _ name placed grows =>
    refine ⟨placed.coherent tended.coherent, ?_, placed.inUse tended.coherent (tended.inUse.mono grows.active)⟩
    exact placed.tidy plain tended.coherent (tended.tidy.mono grows.known) name fun _ => Store.known_of_isActive
  | unknown _ _ _ => exact tended
  | withdrawn uri _ name withdrawn shuts =>
    refine ⟨withdrawn.coherent tended.coherent, ?_, withdrawn.inUse tended.inUse fun key apart active => ?_⟩
    · exact withdrawn.tidy plain tended.coherent (tended.tidy.mono fun key known => (shuts.known key).trans known) name
    · exact (shuts.isActive key).mpr ⟨apart, active⟩

/-! ## Runs -/

theorem tended_start (disk : Disk) : (start disk).Tended named :=
  ⟨Registry.coherent_empty, Registry.tidy_empty, Registry.inUse_empty _⟩

theorem tended_run (plain : Uri.Plain named) {events : List Event} (concerns : ∀ event ∈ events, event.Concerns named)
    (sound : workspace.Sound) (tended : workspace.Tended named) : (workspace.run events).Tended named :=
  (run_keeps (fun _ _ _ _ allowed stepped tended => (tended.effect plain allowed stepped).tended plain tended) concerns
    sound tended).2

theorem tended_reached (plain : Uri.Plain named) (disk : Disk) {events : List Event}
    (concerns : ∀ event ∈ events, event.Concerns named) : (reached disk events).Tended named :=
  tended_run plain concerns (sound_start disk) (tended_start disk)

/-- Whether nothing is left to prune. -/
structure Swept (workspace : Workspace) : Prop where
  /-- A key leads to every living context. -/
  keyed : ∀ id context, workspace.registry.get? id = some context → ∃ key, workspace.registry.lookup key = some id
  /-- Every real context tracks an open document. -/
  used : ∀ id context, workspace.registry.get? id = some context → context.kind = .real →
    ∃ document ∈ context.tracked, workspace.store.isActive document
  /-- Pruning would remove no context and change nothing. -/
  kept : workspace.registry.prune workspace.store.isActive = ([], workspace.registry)

private theorem Tended.swept (tended : workspace.Tended named) : workspace.Swept := by
  obtain ⟨coherent, tidy, inUse⟩ := tended
  have keyed : ∀ id context, workspace.registry.get? id = some context → ∃ key, workspace.registry.target? key = some id := by
    intro id context found
    cases kind : context.kind with
    | real =>
      have shown : workspace.registry.outline.get? id = some context.outline := by
        rw [Registry.get?_outline, found, Option.map_some]
      exact ⟨_, coherent.anchored id context.outline shown kind⟩
    | synthesized =>
      exact ⟨_, tidy.leads id context.configuration (Registry.sits_outline.mpr ⟨context, found, kind, rfl⟩)⟩
  have used : ∀ id context, workspace.registry.get? id = some context → context.kind = .real →
      ∃ document ∈ context.tracked, workspace.store.isActive document := by
    intro id context found real
    obtain ⟨document, tracks, active⟩ := inUse id context.configuration (Registry.sits_outline.mpr ⟨context, found, real, rfl⟩)
    obtain ⟨other, met, member⟩ := Registry.tracks_outline.mp tracks
    obtain rfl : context = other := Option.some.inj (found.symm.trans met)
    exact ⟨document, member, active⟩
  have formed := Registry.wellFormed_outline.mp coherent.formed
  refine ⟨fun id context found => ?_, used, Registry.prune_eq _ ?_⟩
  · obtain ⟨key, target⟩ := keyed id context found
    exact ⟨key, Registry.lookup_eq_some_iff.mpr ⟨target, context, found⟩⟩
  · rintro ⟨id, context⟩ member
    have found : workspace.registry.get? id = some context := (Entries.get?_eq_some_iff formed.ids).mpr member
    obtain ⟨key, target⟩ := keyed id context found
    have leads : workspace.registry.keys.any (·.2 == id) = true :=
      List.any_eq_true.mpr ⟨_, (Registry.target?_eq_some_iff formed).mp target, beq_self_eq_true id⟩
    cases kind : context.kind with
    | synthesized => simp [Registry.isIdle, leads, Context.isSynthesized, kind]
    | real =>
      have active : context.hasActive workspace.store.isActive = true := List.any_eq_true.mpr (used id context found kind)
      simp [Registry.isIdle, leads, active]

/-- The documents that the events of a run are about. -/
def documents (events : List Event) : List Uri :=
  events.filterMap Event.document?

theorem concerns_documents {events : List Event} (silent : ∀ event ∈ events, event.isSave = false) :
    ∀ event ∈ events, event.Concerns (Named (documents events)) :=
  fun event member => ⟨silent event member, fun uri about => ⟨uri, List.mem_filterMap.mpr ⟨event, member, about⟩, rfl⟩⟩

/-- In every state of a run without savings over plain documents nothing is left to prune, whichever events fail. -/
theorem swept_reached (disk : Disk) (events : List Event) (silent : ∀ event ∈ events, event.isSave = false)
    (plain : PlainDocuments (documents events)) : (reached disk events).Swept :=
  (tended_reached plain.plain disk (concerns_documents silent)).swept

theorem plainDocuments_sampleRun : PlainDocuments (documents sampleRun) := by
  refine ⟨fun document member => ?_, by decide +kernel, by decide +kernel, fun document member other member' _ made => ?_⟩
  · rcases List.mem_cons.mp member with rfl | later
    · exact ⟨"file:///w/x.json", ok_of_toOption (by decide +kernel)⟩
    · obtain rfl := List.mem_singleton.mp later
      exact ⟨"file:///w/readme.md", ok_of_toOption (by decide +kernel)⟩
  · have apart : ∀ document ∈ documents sampleRun, ∀ other ∈ documents sampleRun,
        other.normalize.generated.toOption ≠ some document.normalize := by decide +kernel
    exact apart document member other member' (congrArg Except.toOption made)

theorem swept_reached_sample :
    (∀ event ∈ sampleRun, event.isSave = false) ∧ PlainDocuments (documents sampleRun) ∧
      (reached Disk.empty sampleRun).Swept :=
  ⟨by decide, plainDocuments_sampleRun, swept_reached Disk.empty sampleRun (by decide) plainDocuments_sampleRun⟩

end Workspace

end SpecServer
