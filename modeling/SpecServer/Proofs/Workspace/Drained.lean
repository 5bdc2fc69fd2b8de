import SpecServer.Proofs.Workspace.Tidy
set_option autoImplicit false

/-!
When closing all documents ends all contexts. A context may stay for two reasons: a generated context is not the
owner of its document when that is closed for the last time, or a real context tracks a generated configuration,
which counts as open forever.
-/

namespace SpecServer

/-- Whether an event is about a document. -/
def Event.Touches (document : Uri) (event : Event) : Prop :=
  ∃ uri, event.document? = some uri ∧ uri.normalize = document

namespace Workspace

-- the model's parser must not be unfolded to compare two keys
attribute [local irreducible] Uri.normalize

/-- Whether each document that a run edits is closed later on, and no document is closed that was not edited. -/
structure Disciplined (events : List Event) : Prop where
  closed : ∀ front uri language text back, events = front ++ .edit uri language text :: back →
    ∃ other, .close other ∈ back ∧ other.normalize = uri.normalize
  opened : ∀ front uri back, events = front ++ .close uri :: back →
    ∃ other language text, .edit other language text ∈ front ∧ other.normalize = uri.normalize

/-- Whether there are neither contexts nor keys. -/
def Drained (workspace : Workspace) : Prop :=
  workspace.registry.contexts = [] ∧ workspace.registry.keys = []

/-- Whether the context that was generated for a document lives but does not own it, so that the closing of the
document does not end it. -/
def Strands (workspace : Workspace) (document : Uri) : Prop :=
  ∃ configuration id, document.generated = .ok configuration ∧
    workspace.registry.lookup (.synthesized configuration) = some id ∧ workspace.registry.ownerOf document ≠ some id

/-- Whether a real context tracks the configuration generated for a document while that counts as open. -/
def Pins (workspace : Workspace) (document : Uri) : Prop :=
  ∃ configuration id context, document.generated = .ok configuration ∧ workspace.registry.get? id = some context ∧
    context.kind = .real ∧ configuration ∈ context.tracked ∧ workspace.store.isActive configuration

variable {named : Uri → Prop} {workspace before after : Workspace} {document configuration : Uri} {event : Event}

/-! ## One step -/

/-- What is open is a document of the run or a configuration generated for one. -/
def Openable (named : Uri → Prop) (workspace : Workspace) : Prop :=
  ∀ key, workspace.store.isActive key → named key ∨ ∃ document, named document ∧ document.generated = .ok key

private theorem generated_of_opens (plain : Uri.Plain named) (name : named document) {key : Uri}
    (opens : Opens document key) :
    key = document ∨ document.generated = .ok key := by
  rcases opens with rfl | ⟨configuration, made, rfl⟩
  · exact .inl (plain.fixed document name)
  · have normal := plain.normalize_generated name made
    rw [normal, normal]
    exact .inr made

private theorem Effect.openable (plain : Uri.Plain named) (effect : Effect named before event after)
    (openable : before.Openable named) : after.Openable named := by
  intro key active
  cases effect with
  | quiet _ _ _ alike =>
    rw [Store.isActive_congr alike.status] at active
    exact openable key active
  | placed uri _ _ _ name _ grows =>
    rcases grows.opened key active with old | opens
    · exact openable key old
    · rcases generated_of_opens plain name opens with rfl | made
      · exact .inl name
      · exact .inr ⟨_, name, made⟩
  | unknown _ _ _ => exact openable key active
  | withdrawn uri _ _ _ shuts => exact openable key ((shuts.isActive key).mp active).2

private theorem Effect.shut (plain : Uri.Plain named) (effect : Effect named before event after)
    (spares : ¬ event.Touches document)
    (name : named document) (shut : ¬ before.store.isActive document) : ¬ after.store.isActive document := by
  intro active
  cases effect with
  | quiet _ _ _ alike =>
    rw [Store.isActive_congr alike.status] at active
    exact shut active
  | placed uri _ _ _ name' _ grows =>
    rcases grows.opened document active with old | opens
    · exact shut old
    · rcases generated_of_opens plain name' opens with same | made
      · exact spares ⟨uri, rfl, same.symm⟩
      · exact plain.apart document uri.normalize name name' made
  | unknown _ _ _ => exact shut active
  | withdrawn uri _ _ _ shuts => exact shut ((shuts.isActive document).mp active).2

private theorem Effect.closes {uri : Uri} (effect : Effect named before (.close uri) after) :
    ¬ after.store.isActive uri.normalize := by
  intro active
  cases effect with
  | quiet _ _ still _ => cases still
  | unknown _ _ absent => simp [Store.isActive_eq, absent] at active
  | withdrawn _ _ _ _ shuts => exact ((shuts.isActive uri.normalize).mp active).1 rfl

/-- The context generated for a document keeps its key as long as no event is about the document. -/
theorem Effect.leads (plain : Uri.Plain named) (tended : before.Tended named) (effect : Effect named before event after)
    (spares : ¬ event.Touches document) (name : named document) (made : document.generated = .ok configuration) {id : Nat}
    (target : before.registry.outline.target? (.synthesized configuration) = some id) :
    after.registry.outline.target? (.synthesized configuration) = some id := by
  cases effect with
  | quiet _ _ _ alike =>
    rw [alike.outline]
    exact target
  | placed uri _ _ _ name' placed _ =>
    refine placed.target_of_synthesized tended.coherent tended.tidy target fun made' => ?_
    exact spares ⟨uri, rfl, plain.only name' name made' made⟩
  | unknown _ _ _ => exact target
  | withdrawn uri _ name' withdrawn _ =>
    refine withdrawn.target_of_synthesized tended.tidy target fun owned => ?_
    obtain ⟨context, found, kind, same⟩ := tended.coherent.fits _ id target
    have made' := tended.tidy.owned plain tended.coherent name' owned ⟨context, found, kind, same⟩
    exact spares ⟨uri, rfl, plain.only name' name made' made⟩

/-- No context is generated for a document as long as no event is about it. -/
theorem Effect.founded (plain : Uri.Plain named) (tended : before.Tended named) (effect : Effect named before event after)
    (spares : ¬ event.Touches document) (name : named document) (made : document.generated = .ok configuration) {id : Nat}
    (sits : after.registry.outline.Sits id .synthesized configuration) :
    before.registry.outline.Sits id .synthesized configuration := by
  cases effect with
  | quiet _ _ _ alike =>
    rw [alike.outline] at sits
    exact sits
  | placed uri _ _ _ name' placed _ =>
    rcases placed.sits_of_synthesized tended.coherent sits with there | made'
    · exact there
    · exact absurd ⟨uri, rfl, plain.only name' name made' made⟩ spares
  | unknown _ _ _ => exact sits
  | withdrawn _ _ _ withdrawn _ => exact withdrawn.sits sits

/-- A real context keeps a generated configuration that is open, and that stays open. -/
theorem Effect.pinned (tended : before.Tended named) (effect : Effect named before event after)
    (unnamed : ¬ named configuration) {id : Nat} (pinned : before.registry.outline.Pinned id configuration)
    (active : before.store.isActive configuration) :
    after.registry.outline.Pinned id configuration ∧ after.store.isActive configuration := by
  have apart : ∀ {other}, named other → configuration ≠ other := by
    rintro other name rfl
    exact unnamed name
  cases effect with
  | quiet _ _ _ alike =>
    rw [alike.outline, Store.isActive_congr alike.status]
    exact ⟨pinned, active⟩
  | placed uri _ _ _ name placed grows =>
    have active' := grows.active configuration active
    exact ⟨placed.pinned tended.coherent pinned (apart name) active', active'⟩
  | unknown _ _ _ => exact ⟨pinned, active⟩
  | withdrawn uri _ name withdrawn shuts =>
    have active' := (shuts.isActive configuration).mpr ⟨apart name, active⟩
    have free : isShut before.store configuration = false := by
      rw [Store.isActive_eq] at active
      obtain ⟨entry, held, open'⟩ := (Option.any_eq_true _ _).mp active
      simp [isShut, held, open']
    exact ⟨withdrawn.pinned pinned (apart name) free active', active'⟩

/-- The closing of a document ends the generated context that owns it. -/
theorem Effect.ends (plain : Uri.Plain named) (tended : before.Tended named) {uri : Uri}
    (effect : Effect named before (.close uri) after) {id : Nat} (made : uri.normalize.generated = .ok configuration)
    (sits : before.registry.outline.Sits id .synthesized configuration) (owned : before.registry.ownerOf uri.normalize = some id) :
    ¬ after.registry.outline.Sits id .synthesized configuration := by
  rw [← Registry.ownerOf_outline] at owned
  cases effect with
  | quiet _ _ still _ => cases still
  | unknown _ name absent =>
    obtain ⟨other, name', made', known⟩ := tended.tidy.founded id configuration sits
    obtain rfl := plain.only name' name made' made
    simp [absent] at known
  | withdrawn _ _ name withdrawn _ => exact withdrawn.ends plain tended.coherent tended.tidy name sits owned

/-! ## Runs -/

private theorem run_keeps_effects {allowed : Event → Prop} (holds : Workspace → Prop) (plain : Uri.Plain named)
    (keeps : ∀ before event after, before.Tended named → allowed event → Effect named before event after →
      holds before → holds after) {events : List Event} (concerns : ∀ event ∈ events, event.Concerns named)
    (all : ∀ event ∈ events, allowed event) (sound : workspace.Sound) (tended : workspace.Tended named)
    (start : holds workspace) : holds (workspace.run events) := by
  have step : ∀ before event after, before.Sound → event.Concerns named ∧ allowed event → Stepped before event after →
      before.Tended named ∧ holds before → after.Tended named ∧ holds after := by
    rintro before event after - ⟨concern, allowing⟩ stepped ⟨kept, held⟩
    have effect := kept.effect plain concern stepped
    exact ⟨effect.tended plain kept, keeps before event after kept allowing effect held⟩
  have each : ∀ event ∈ events, event.Concerns named ∧ allowed event :=
    fun event member => ⟨concerns event member, all event member⟩
  exact (run_keeps step each sound ⟨tended, start⟩).2.2

private theorem reached_split (disk : Disk) (front back : List Event) (event : Event) :
    reached disk (front ++ event :: back) = ((reached disk front).step event).run back := by
  rw [reached, run_append]
  rfl

private theorem drained_iff (coherent : workspace.registry.outline.Coherent) :
    workspace.Drained ↔ ∀ id, ¬ workspace.registry.outline.Lives id := by
  constructor
  · rintro ⟨contexts, -⟩ id lives
    obtain ⟨context, found⟩ := Registry.lives_outline.mp lives
    rw [Registry.get?, contexts] at found
    cases found
  · intro gone
    have formed := Registry.wellFormed_outline.mp coherent.formed
    refine ⟨List.eq_nil_iff_forall_not_mem.mpr fun entry member => ?_,
      List.eq_nil_iff_forall_not_mem.mpr fun entry member => ?_⟩
    · exact gone entry.1 (Registry.lives_outline.mpr ⟨entry.2, (Entries.get?_eq_some_iff formed.ids).mpr member⟩)
    · have target : workspace.registry.outline.target? entry.1 = some entry.2 :=
        (Registry.target?_eq_some_iff formed).mpr member
      exact gone entry.2 (coherent.sits target)

private theorem exists_last {α : Type} {holds : α → Prop} {items : List α} (some' : ∃ item ∈ items, holds item) :
    ∃ front item back, items = front ++ item :: back ∧ holds item ∧ ∀ later ∈ back, ¬ holds later := by
  induction items with
  | nil => simp at some'
  | cons item rest ih =>
    by_cases later : ∃ item ∈ rest, holds item
    · obtain ⟨front, last, back, rfl, held, none'⟩ := ih later
      exact ⟨item :: front, last, back, rfl, held, none'⟩
    · obtain ⟨first, member, held⟩ := some'
      rcases List.mem_cons.mp member with rfl | inside
      · exact ⟨[], first, rest, rfl, held, fun other member' held' => later ⟨other, member', held'⟩⟩
      · exact absurd ⟨first, inside, held⟩ later

/-- The last event of a disciplined run that is about a document closes it. -/
theorem Disciplined.last_closing {events : List Event} (disciplined : Disciplined events)
    (silent : ∀ event ∈ events, event.isSave = false) (name : Named (documents events) document) :
    ∃ front uri back, events = front ++ .close uri :: back ∧ uri.normalize = document ∧
      ∀ later ∈ back, ¬ later.Touches document := by
  obtain ⟨uri, member, about⟩ := name
  obtain ⟨event, inside, names⟩ := List.mem_filterMap.mp member
  have some' : ∃ event ∈ events, event.Touches document := ⟨event, inside, uri, names, about⟩
  obtain ⟨front, last, back, rfl, ⟨other, names', about'⟩, spares⟩ := exists_last some'
  cases last with
  | edit other' language text =>
    obtain rfl := Option.some.inj names'
    obtain ⟨again, later, same⟩ := disciplined.closed front other' language text back rfl
    exact absurd ⟨again, rfl, same.trans about'⟩ (spares _ later)
  | close other' =>
    obtain rfl := Option.some.inj names'
    exact ⟨front, other', back, rfl, about', spares⟩
  | save other' text => cases silent (.save other' text) (List.mem_append_right front List.mem_cons_self)
  | changedOnDisk uris => cases names'
  | configure payload => cases names'
  | setRoot text => cases names'
  | hover uri position => cases names'
  | definitions uri position => cases names'
  | definition uri => cases names'
  | take => cases names'
  | replaceDisk disk => cases names'

private theorem effect_of_closing (plain : Uri.Plain named) {uri : Uri} (name : named uri.normalize)
    (sound : workspace.Sound)
    (tended : workspace.Tended named) : Effect named workspace (.close uri) (workspace.step (.close uri)) :=
  tended.effect plain ⟨rfl, fun _ same => Option.some.inj same ▸ name⟩ (step_spec sound (.close uri))

private theorem lives_of_strands (plain : Uri.Plain named) {uri : Uri} {back : List Event} (name : named uri.normalize)
    (concerns : ∀ event ∈ back, event.Concerns named) (spares : ∀ later ∈ back, ¬ later.Touches uri.normalize)
    (sound : workspace.Sound) (tended : workspace.Tended named) (strands : workspace.Strands uri.normalize) :
    ∃ id, ((workspace.step (.close uri)).run back).registry.outline.Lives id := by
  obtain ⟨configuration, id, made, living, free⟩ := strands
  rw [← Registry.lookup_outline, tended.coherent.lookup] at living
  rw [← Registry.ownerOf_outline] at free
  have effect := effect_of_closing plain name sound tended
  have sound' := sound.stepped (step_spec sound (.close uri))
  have tended' := effect.tended plain tended
  have kept : (workspace.step (.close uri)).registry.outline.target? (.synthesized configuration) = some id := by
    generalize workspace.step (.close uri) = after at effect
    cases effect with
    | quiet _ _ still _ => cases still
    | unknown _ _ _ => exact living
    | withdrawn _ _ _ withdrawn _ => exact withdrawn.target_of_synthesized tended.tidy living free
  have last := run_keeps_effects (fun after => after.registry.outline.target? (.synthesized configuration) = some id) plain
    (fun _ _ _ tended calm effect target => effect.leads plain tended calm name made target) concerns spares sound' tended' kept
  exact ⟨id, (tended_run plain concerns sound' tended').coherent.sits last⟩

/-- A real context that tracks an open generated configuration stays to the end. -/
theorem lives_of_pins (plain : Uri.Plain named) {back : List Event} (name : named document)
    (concerns : ∀ event ∈ back, event.Concerns named) (sound : workspace.Sound) (tended : workspace.Tended named)
    (pins : workspace.Pins document) : ∃ id, (workspace.run back).registry.outline.Lives id := by
  obtain ⟨configuration, id, context, made, found, real, member, active⟩ := pins
  have pinned : workspace.registry.outline.Pinned id configuration :=
    ⟨Registry.tracks_outline.mpr ⟨context, found, member⟩, context.configuration,
      Registry.sits_outline.mpr ⟨context, found, real, rfl⟩⟩
  have unnamed : ¬ named configuration := fun name' => plain.apart configuration document name' name made
  have last := run_keeps_effects
    (fun after => after.registry.outline.Pinned id configuration ∧ after.store.isActive configuration) plain
    (fun _ _ _ tended _ effect kept => effect.pinned tended unnamed kept.1 kept.2) concerns (fun _ _ => trivial) sound tended
    ⟨pinned, active⟩
  exact ⟨id, last.1.1.lives⟩

/-- After a last closing that leaves nothing behind, the context generated for the document is gone. -/
theorem gone_of_not_strands (plain : Uri.Plain named) {uri : Uri} {back : List Event} (name : named uri.normalize)
    (concerns : ∀ event ∈ back, event.Concerns named) (spares : ∀ later ∈ back, ¬ later.Touches uri.normalize)
    (sound : workspace.Sound) (tended : workspace.Tended named) (clean : ¬ workspace.Strands uri.normalize)
    (made : uri.normalize.generated = .ok configuration) (id : Nat) :
    ¬ ((workspace.step (.close uri)).run back).registry.outline.Sits id .synthesized configuration := by
  have effect := effect_of_closing plain name sound tended
  have gone : ¬ (workspace.step (.close uri)).registry.outline.Sits id .synthesized configuration := by
    intro stays
    have sits : workspace.registry.outline.Sits id .synthesized configuration := by
      generalize workspace.step (.close uri) = after at effect stays
      cases effect with
      | quiet _ _ still _ => cases still
      | unknown _ _ _ => exact stays
      | withdrawn _ _ _ withdrawn _ => exact withdrawn.sits stays
    refine effect.ends plain tended made sits (Decidable.byContradiction fun free => clean ?_) stays
    refine ⟨configuration, id, made, ?_, free⟩
    rw [← Registry.lookup_outline, tended.coherent.lookup]
    exact tended.tidy.leads id configuration sits
  exact run_keeps_effects (fun after => ¬ after.registry.outline.Sits id .synthesized configuration) plain
    (fun _ _ _ tended calm effect absent sits => absent (effect.founded plain tended calm name made sits)) concerns spares
    (sound.stepped (step_spec sound (.close uri))) (effect.tended plain tended) gone

private theorem shut_of_closing (plain : Uri.Plain named) {uri : Uri} {back : List Event} (name : named uri.normalize)
    (concerns : ∀ event ∈ back, event.Concerns named) (spares : ∀ later ∈ back, ¬ later.Touches uri.normalize)
    (sound : workspace.Sound) (tended : workspace.Tended named) :
    ¬ ((workspace.step (.close uri)).run back).store.isActive uri.normalize := by
  have effect := effect_of_closing plain name sound tended
  exact run_keeps_effects (fun after => ¬ after.store.isActive uri.normalize) plain
    (fun _ _ _ _ calm effect shut => effect.shut plain calm name shut) concerns spares
    (sound.stepped (step_spec sound (.close uri))) (effect.tended plain tended) effect.closes

private theorem openable_reached (plain : Uri.Plain named) (disk : Disk) {events : List Event}
    (concerns : ∀ event ∈ events, event.Concerns named) : (reached disk events).Openable named := by
  refine run_keeps_effects (fun after => after.Openable named) plain
    (fun _ _ _ _ _ effect openable => effect.openable plain openable) concerns (fun _ _ => trivial) (sound_start disk)
    (tended_start disk) fun key active => ?_
  cases active

/-- A run without savings over plain documents in which all documents are closed again leaves no context and no
key behind exactly if the last closing of each document leaves no context behind, and in no state of the run a
real context tracks an open generated configuration. -/
theorem drained_reached_iff (disk : Disk) (events : List Event) (silent : ∀ event ∈ events, event.isSave = false)
    (plain : PlainDocuments (documents events)) (disciplined : Disciplined events) :
    (reached disk events).Drained ↔
      (∀ front uri back, events = front ++ .close uri :: back → (∀ later ∈ back, ¬ later.Touches uri.normalize) →
        ¬ (reached disk front).Strands uri.normalize) ∧
      ∀ front, front <+: events → ∀ document ∈ documents events, ¬ (reached disk front).Pins document.normalize := by
  have normal := plain.plain
  have concerns := concerns_documents silent
  have tended := tended_reached normal disk concerns
  have before : ∀ front back, events = front ++ back →
      (reached disk front).Sound ∧ (reached disk front).Tended (Named (documents events)) ∧
        ∀ event ∈ back, event.Concerns (Named (documents events)) := by
    rintro front back rfl
    obtain ⟨early, late⟩ := List.forall_mem_append.mp concerns
    exact ⟨sound_reached disk front, tended_reached normal disk early, late⟩
  rw [drained_iff tended.coherent]
  constructor
  · refine fun drained => ⟨fun front uri back split spares strands => ?_, fun front shorter document member pins => ?_⟩
    · obtain ⟨sound, tended', late⟩ := before front _ split
      obtain ⟨concern, later⟩ := List.forall_mem_cons.mp late
      obtain ⟨id, lives⟩ := lives_of_strands normal (concern.2 uri rfl) later spares sound tended' strands
      rw [← reached_split, ← split] at lives
      exact drained id lives
    · obtain ⟨back, split⟩ := shorter
      obtain ⟨sound, tended', late⟩ := before front back split.symm
      obtain ⟨id, lives⟩ := lives_of_pins normal ⟨document, member, rfl⟩ late sound tended' pins
      rw [reached, ← run_append, split] at lives
      exact drained id lives
  · rintro ⟨clean, unpinned⟩ id lives
    obtain ⟨kind, configuration, sits⟩ := lives.sits
    cases kind with
    | synthesized =>
      obtain ⟨document, name, made, -⟩ := tended.tidy.founded id configuration sits
      obtain ⟨front, uri, back, split, rfl, spares⟩ := disciplined.last_closing silent name
      obtain ⟨sound, tended', late⟩ := before front _ split
      obtain ⟨-, later⟩ := List.forall_mem_cons.mp late
      refine gone_of_not_strands normal name later spares sound tended' (clean front uri back split spares) made id ?_
      rw [← reached_split, ← split]
      exact sits
    | real =>
      obtain ⟨key, tracks, active⟩ := tended.inUse id configuration sits
      rcases openable_reached normal disk concerns key active with name | ⟨document, ⟨uri, member, rfl⟩, made⟩
      · obtain ⟨front, uri, back, split, rfl, spares⟩ := disciplined.last_closing silent name
        obtain ⟨sound, tended', late⟩ := before front _ split
        obtain ⟨-, later⟩ := List.forall_mem_cons.mp late
        have shut := shut_of_closing normal name later spares sound tended'
        rw [← reached_split, ← split] at shut
        exact shut active
      · refine unpinned events (List.prefix_refl events) uri member ?_
        obtain ⟨context, found, real, -⟩ := Registry.sits_outline.mp sits
        obtain ⟨other, met, tracked⟩ := Registry.tracks_outline.mp tracks
        obtain rfl : context = other := Option.some.inj (found.symm.trans met)
        exact ⟨key, id, context, made, found, real, tracked, active⟩

/-- Both documents of the sample run are closed again, in the order in which they were opened. -/
def sampleClosings : List Event :=
  sampleRun ++ [.close sampleDocument, .close sampleConfiguration]

private theorem disciplined_sampleClosings : Disciplined sampleClosings := by
  refine ⟨fun front uri language text back split => ?_, fun front uri back split => ?_⟩
  · simp only [sampleClosings, sampleRun, List.cons_append, List.nil_append] at split
    rcases front with _ | ⟨_, _ | ⟨_, _ | ⟨_, _ | ⟨_, _⟩⟩⟩⟩
    · cases split
      exact ⟨sampleDocument, by simp, rfl⟩
    · cases split
      exact ⟨sampleConfiguration, by simp, rfl⟩
    · cases split
    · cases split
    · simp at split
  · simp only [sampleClosings, sampleRun, List.cons_append, List.nil_append] at split
    rcases front with _ | ⟨_, _ | ⟨_, _ | ⟨_, _ | ⟨_, _⟩⟩⟩⟩
    · cases split
    · cases split
    · cases split
      exact ⟨sampleDocument, _, _, List.mem_cons_self, rfl⟩
    · cases split
      exact ⟨sampleConfiguration, _, _, List.mem_cons_of_mem _ List.mem_cons_self, rfl⟩
    · simp at split

theorem drained_reached_iff_sample :
    (∀ event ∈ sampleClosings, event.isSave = false) ∧ PlainDocuments (documents sampleClosings) ∧
      Disciplined sampleClosings ∧
      ((reached Disk.empty sampleClosings).Drained ↔
        (∀ front uri back, sampleClosings = front ++ .close uri :: back →
          (∀ later ∈ back, ¬ later.Touches uri.normalize) → ¬ (reached Disk.empty front).Strands uri.normalize) ∧
        ∀ front, front <+: sampleClosings → ∀ document ∈ documents sampleClosings,
          ¬ (reached Disk.empty front).Pins document.normalize) := by
  have plain : PlainDocuments (documents sampleClosings) := plainDocuments_sampleRun.of_subset (by decide)
  exact ⟨by decide, plain, disciplined_sampleClosings,
    drained_reached_iff Disk.empty sampleClosings (by decide) plain disciplined_sampleClosings⟩

/-- Closing all documents may leave a context behind. -/
theorem not_always_drained :
    ¬ ∀ (disk : Disk) (events : List Event), (∀ event ∈ events, event.isOfDocuments = true) → Disciplined events →
      (reached disk events).Drained := by
  intro always
  have left : (reached Disk.empty sampleClosings).registry.keys ≠ [] := by decide +kernel
  exact left (always Disk.empty sampleClosings (by decide) disciplined_sampleClosings).2

end Workspace

end SpecServer
