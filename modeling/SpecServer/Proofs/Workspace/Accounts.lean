import SpecServer.Proofs.Workspace.Tidy
import SpecServer.Proofs.Workspace.Handling
import SpecServer.Proofs.Workspace.Verdict
set_option autoImplicit false

/-!
What contexts remember of their last pass. A pass leaves behind the merge of the texts that its inputs had, and the
generations that it saw. As long as a document has the generation seen, it has the text it had then; a document
that had none may get one by a change on the disk, until that change is reported.
-/

namespace SpecServer

-- neither the model's parser nor the disk must be unfolded
attribute [local irreducible] Uri.normalize Store.load

/-- Whether a document has a certain text, or is without any. The latter counts for documents that are not held, and
while no change on the disk is pending. -/
def Document.StillHolds (held pending : Prop) (disk : Disk) (document : Document) : Option String → Prop
  | some text => document.content = some text
  | none => ¬held → document.active = false ∧
      (¬pending → document.content = none ∧ ∀ text, Store.load disk document.uri ≠ .ok (some text))

private theorem Document.StillHolds.elapses {held pending : Prop} {disk : Disk} {before after : Document}
    {text : Option String}
    (still : before.StillHolds held pending disk text) {replaced : Prop}
    (ages : before.Elapses disk held replaced after)
    (same : after.generation = before.generation) : after.StillHolds held pending disk text := by
  cases text with
  | some text => exact ages.kept same text still
  | none =>
    intro free
    obtain ⟨shut, quiet⟩ := still free
    refine ⟨?_, fun settled => ?_⟩
    · refine Bool.eq_false_iff.mpr fun active => ?_
      rcases ages.active same active with sooner | holds
      · cases shut.symm.trans sooner
      · exact free holds
    · obtain ⟨missing, unloaded⟩ := quiet settled
      rw [ages.uri]
      rcases ages.filled same missing with still | ⟨text, loaded, -⟩
      · exact ⟨still, unloaded⟩
      · exact absurd loaded (unloaded text)

/-! ## One context -/

namespace Context

/-- The generations with that of a declared input, if it is not among them. -/
def noteInput (store : Store) (found : Generations) (input : Uri) : Generations :=
  if found.any (·.1 == input) then found
  else
    match store.get? input with
    | some document => found ++ [(input, document.generation)]
    | none => found

private theorem generations_eq (store : Store) (context : Context) : context.generations store =
    context.inputs.foldl (noteInput store)
      (context.tracked.map fun key => (key, ((store.file? key).map Document.generation).getD 0)) := rfl

variable {store : Store} {context : Context} {uri : Uri} {generation : Nat}

private theorem mem_noteInput {found : Generations} {input : Uri}
    (member : (uri, generation) ∈ noteInput store found input) :
    (uri, generation) ∈ found ∨ ∃ document, store.get? uri = some document ∧ generation = document.generation := by
  simp only [noteInput] at member
  split at member
  · exact .inl member
  · split at member
    next document stored =>
      refine (List.mem_append.mp member).imp_right fun new => ?_
      obtain ⟨rfl, rfl⟩ := Prod.mk.inj (List.mem_singleton.mp new)
      exact ⟨document, stored, rfl⟩
    next => exact .inl member

/-- The generations are those of documents that are tracked or declared. -/
theorem mem_generations (member : (uri, generation) ∈ context.generations store) :
    uri ∈ context.tracked ∧ generation = ((store.file? uri).map Document.generation).getD 0 ∨
      ∃ document, store.get? uri = some document ∧ generation = document.generation := by
  have joined : ∀ (inputs : List Uri) (found : Generations), (uri, generation) ∈ inputs.foldl (noteInput store) found →
      (uri, generation) ∈ found ∨ ∃ document, store.get? uri = some document ∧ generation = document.generation := by
    intro inputs
    induction inputs with
    | nil => exact fun _ => .inl
    | cons input rest ih => exact fun found member => (ih _ member).elim mem_noteInput .inr
  refine (joined _ _ member).imp_left fun member => ?_
  obtain ⟨key, tracked, same⟩ := List.mem_map.mp member
  obtain ⟨rfl, rfl⟩ := Prod.mk.inj same
  exact ⟨tracked, rfl⟩

private theorem subset_foldl_noteInput (inputs : List Uri) (found : Generations) :
    found ⊆ inputs.foldl (noteInput store) found := by
  induction inputs generalizing found with
  | nil => exact fun _ => id
  | cons input rest ih =>
    refine List.Subset.trans ?_ (ih _)
    simp only [noteInput]
    split
    · exact fun _ => id
    · split
      · exact List.subset_append_left _ _
      · exact fun _ => id

/-- Documents that are tracked, and declared ones that are known, have their generations noted. -/
theorem noted_generations (store : Store)
    (noted : uri ∈ context.tracked ∨ uri ∈ context.inputs ∧ (store.get? uri).isSome) :
    ∃ generation, (uri, generation) ∈ context.generations store := by
  rw [generations_eq]
  rcases noted with tracked | ⟨declared, stored⟩
  · exact ⟨_, subset_foldl_noteInput _ _ (List.mem_map_of_mem tracked)⟩
  · obtain ⟨front, back, split'⟩ := List.append_of_mem declared
    rw [split', List.foldl_append, List.foldl_cons]
    generalize front.foldl (noteInput store) _ = found
    obtain ⟨document, stored⟩ := Option.isSome_iff_exists.mp stored
    suffices there : ∃ generation, (uri, generation) ∈ noteInput store found uri from
      there.imp fun _ member => subset_foldl_noteInput _ _ member
    simp only [noteInput, stored]
    split
    next already =>
      obtain ⟨entry, member, same⟩ := List.any_eq_true.mp already
      exact ⟨entry.2, (beq_iff_eq.mp same) ▸ member⟩
    next => exact ⟨document.generation, List.mem_append_right _ (List.mem_singleton.mpr rfl)⟩

variable {held replaced pending : Uri → Prop}

/-- Whether a context remembers a pass over inputs of certain texts, in which it saw certain generations. As long as
the configuration has the generation seen, the context has the inputs of that pass. -/
structure Recalls (held pending : Uri → Prop) (store : Store) (context : Context) (seen : Generations) (view : View)
    (inputs : List Uri) (texts : Uri → Option String) : Prop where
  loaded : ∃ text, texts context.session.configuration = some text ∧ context.session.viewOf text = .ok view
  merged : context.session.definition = some (.ofMerge (Session.merged (fun uri => .ok (texts uri)) inputs))
  same : ∀ uri ∈ context.session.configuration :: inputs, uri.normalize = uri → ∀ document, store.file? uri = some document →
    (uri, document.generation) ∈ seen → document.StillHolds (held uri) (pending uri) store.disk (texts uri)
  inputs : ∀ document, context.session.configuration.normalize = context.session.configuration →
    store.file? context.session.configuration = some document →
    (context.session.configuration, document.generation) ∈ seen → (∀ input ∈ view.inputs, input.normalize = input) →
    context.session.inputsOf view = inputs

/-- Whether what a context says of its last pass is borne out by the documents. -/
structure Accounts (held pending : Uri → Prop) (store : Store) (context : Context) : Prop where
  known : ∀ key ∈ context.tracked, (store.file? key).isSome
  bounded : ∀ seen, context.processed = some seen → ∀ uri generation, (uri, generation) ∈ seen → uri.normalize = uri →
    ∃ document, store.file? uri = some document ∧ generation ≤ document.generation
  recalled : ∀ seen, context.processed = some seen →
    ∃ view inputs texts, Recalls held pending store context seen view inputs texts

private theorem accounts_of_unprocessed {store : Store} {context : Context}
    (known : ∀ key ∈ context.tracked, (store.file? key).isSome)
    (new : context.processed = none) : Accounts held pending store context := by
  refine ⟨known, fun seen found => ?_, fun seen found => ?_⟩ <;> cases new.symm.trans found

/-- A recollection stays true while documents age, if those that were seen have the generations that they had. -/
theorem Recalls.follows {renewed : Uri → Prop} {before after : Store} {earlier later : Context} {seen : Generations}
    {view : View} {inputs : List Uri} {texts : Uri → Option String}
    (recalls : Recalls held pending before earlier seen view inputs texts) (follows : Follows before after earlier later)
    (sameDisk : after.disk = before.disk)
    (renews : ∀ key document, renewed key → before.file? key = some document → document.active = false →
      ∃ later, after.file? key = some later ∧ document.generation < later.generation)
    (aged : ∀ uri document, after.file? uri = some document → (uri, document.generation) ∈ seen → uri.normalize = uri →
      ∃ former, before.file? uri = some former ∧ former.Elapses before.disk (held uri) (replaced uri) document ∧
        document.generation = former.generation) :
    Recalls held (fun key => pending key ∧ ¬renewed key) after later seen view inputs texts := by
  refine ⟨?_, follows.definition.trans recalls.merged, ?_, ?_⟩
  · obtain ⟨text, read, loads⟩ := recalls.loaded
    exact ⟨text, follows.configuration ▸ read, (follows.viewOf text).trans loads⟩
  · intro uri member normal document found saw
    rw [follows.configuration] at member
    obtain ⟨former, stood, elapsed, same⟩ := aged uri document found saw normal
    have still := recalls.same uri member normal former stood (same ▸ saw)
    have now := still.elapses elapsed same
    rw [sameDisk]
    cases read : texts uri with
    | some text =>
      rw [read] at now
      exact now
    | none =>
      rw [read] at still now
      intro free
      obtain ⟨shut, quiet⟩ := now free
      refine ⟨shut, fun settled => quiet fun changed => settled ⟨changed, fun reported => ?_⟩⟩
      obtain ⟨last, found', newer⟩ := renews uri former reported stood (still free).1
      obtain rfl := Option.some.inj (found'.symm.trans found)
      omega
  · intro document normal found saw inputsNormal
    rw [follows.configuration] at normal found saw
    obtain ⟨former, stood, -, same⟩ := aged _ document found saw normal
    obtain ⟨text, read, loads⟩ := recalls.loaded
    have still := recalls.same _ List.mem_cons_self normal former stood (same ▸ saw)
    rw [read] at still
    rw [follows.inputs former document text view (normal.symm ▸ stood) (normal.symm ▸ found) same still loads inputsNormal]
    exact recalls.inputs former normal stood (same ▸ saw) inputsNormal

/-- A context that goes on while documents age has its account borne out. Changes on the disk are no longer pending for
documents that are renewed unless they are open. -/
theorem Accounts.follows {renewed : Uri → Prop} {before after : Store} {earlier later : Context}
    (accounts : Accounts held pending before earlier) (ages : Store.Elapses held replaced before after)
    (renews : ∀ key document, renewed key → before.file? key = some document → document.active = false →
      ∃ later, after.file? key = some later ∧ document.generation < later.generation)
    (follows : Follows before after earlier later) (known : ∀ key ∈ later.tracked, (after.file? key).isSome) :
    Accounts held (fun key => pending key ∧ ¬renewed key) after later := by
  refine ⟨known, fun seen processed uri generation member normal => ?_, fun seen processed => ?_⟩
  · obtain ⟨former, stood, bound⟩ := accounts.bounded seen (follows.processed ▸ processed) uri generation member normal
    obtain ⟨last, found, elapsed⟩ := ages.documents uri former stood
    exact ⟨last, found, Nat.le_trans bound elapsed.generation⟩
  · rw [follows.processed] at processed
    obtain ⟨view, inputs, texts, recalls⟩ := accounts.recalled seen processed
    -- generations only grow, so a document with one that was seen has not been renewed since
    have aged : ∀ uri document, after.file? uri = some document → (uri, document.generation) ∈ seen → uri.normalize = uri →
        ∃ former, before.file? uri = some former ∧ former.Elapses before.disk (held uri) (replaced uri) document ∧
          document.generation = former.generation := by
      intro uri document found member normal
      obtain ⟨former, stood, bound⟩ := accounts.bounded seen processed uri _ member normal
      obtain ⟨last, found', elapsed⟩ := ages.documents uri former stood
      obtain rfl := Option.some.inj (found'.symm.trans found)
      exact ⟨former, stood, elapsed, Nat.le_antisymm bound elapsed.generation⟩
    exact ⟨view, inputs, texts, recalls.follows follows ages.disk renews aged⟩

/-- The disk may be another one, where its changes are pending from then on. -/
theorem Accounts.withDisk {pending' : Uri → Prop} (accounts : Accounts held pending store context) (keyed : store.Keyed)
    {disk : Disk} (kept : ∀ key, pending key → pending' key)
    (changes : ∀ key, Store.text? store.disk key ≠ Store.text? disk key → pending' key) :
    Accounts held pending' { store with disk := disk } context := by
  refine ⟨accounts.known, accounts.bounded, fun seen processed => ?_⟩
  obtain ⟨view, inputs, texts, recalls⟩ := accounts.recalled seen processed
  refine ⟨view, inputs, texts, recalls.loaded, recalls.merged, fun uri member normal document found saw => ?_,
    recalls.inputs⟩
  have still := recalls.same uri member normal document found saw
  cases read : texts uri with
  | some text =>
    rw [read] at still
    exact still
  | none =>
    rw [read] at still
    intro free
    obtain ⟨shut, quiet⟩ := still free
    refine ⟨shut, fun settled => ?_⟩
    obtain ⟨missing, unloaded⟩ := quiet (settled ∘ kept uri)
    have named : document.uri = uri := Store.keyed_iff.mp keyed uri document found
    have same : Store.text? store.disk document.uri = Store.text? disk document.uri :=
      Decidable.not_not.mp fun differ => settled (changes uri (named ▸ differ))
    refine ⟨missing, fun text loaded => unloaded text ?_⟩
    rwa [← Store.text?_eq_some_iff, same, Store.text?_eq_some_iff]

private theorem Accounts.elapses {before after : Store} (accounts : Accounts held pending before context)
    (keyed : before.Keyed) (ages : Store.Elapses held replaced before after) : Accounts held pending after context := by
  have known : ∀ key ∈ context.tracked, (after.file? key).isSome := fun key tracked =>
    ages.known (accounts.known key tracked)
  have gone := accounts.follows ages (fun _ _ (none' : False) => none'.elim)
    (SameWork.rfl.follows _ _) known
  exact gone.withDisk (ages.keyed keyed) (fun _ => And.left) fun _ differ => absurd rfl differ

private theorem accounts_passed {before after : Store} {view : View}
    (loads : context.session.viewIn before.reading = .ok view)
    (reads : before.Reads after) (filled : after.Filled held)
    (cached : ∀ uri ∈ context.session.configuration :: context.session.inputsOf view, after.Cached uri)
    (known : ∀ key ∈ context.tracked, (after.file? key).isSome) :
    Accounts held pending after { context.passed before.reading view with
      processed := some ((context.passed before.reading view).generations after) } := by
  refine ⟨known, fun seen processed uri generation member normal => ?_, fun seen _ => ?_⟩
  · rw [← Option.some.inj processed] at member
    rcases mem_generations member with ⟨tracked, same⟩ | ⟨document, found, same⟩
    · obtain ⟨document, found⟩ := Option.isSome_iff_exists.mp (known uri tracked)
      rw [found] at same
      exact ⟨document, found, Nat.le_of_eq same⟩
    · rw [Store.get?, normal] at found
      exact ⟨document, found, Nat.le_of_eq same⟩
  · refine ⟨view, context.session.inputsOf view, fun uri => (before.reading uri).toOption.join, ?_, ?_, ?_,
      fun _ _ _ _ _ => rfl⟩
    · obtain ⟨text, read, viewed⟩ := Session.viewIn_eq_ok_iff.mp loads
      exact ⟨text, join_toOption_eq_some.mpr read, viewed⟩
    · refine congrArg (some ∘ Definition.ofMerge) (Session.merged_congr fun input _ text => ?_)
      rw [← join_toOption_eq_some, Except.ok.injEq]
    · intro uri member normal document found _
      have read : before.reading uri = document.reading after.disk := by
        rw [← reads.reading, Store.reading_eq, normal, found]
      have keeps := cached uri member document (normal.symm ▸ found)
      rw [← read] at keeps
      cases held' : (before.reading uri).toOption.join with
      | some text => exact keeps text (join_toOption_eq_some.mp held')
      | none =>
        have unread : ∀ text, document.reading after.disk ≠ .ok (some text) := by
          intro text given
          rw [join_toOption_eq_some.mpr (read.trans given)] at held'
          cases held'
        have missing : document.content = none := by
          refine Option.eq_none_iff_forall_ne_some.mpr fun text content => unread text ?_
          rw [Document.reading, content]
        intro free
        refine ⟨Bool.eq_false_iff.mpr fun active => free (filled uri document found active missing), fun _ => ⟨missing, ?_⟩⟩
        intro text loaded
        refine unread text ?_
        rw [Document.reading, missing, loaded]

end Context

private theorem Registry.get?_set_self {registry : Registry} {id : Nat} {context : Context}
    (found : registry.get? id = some context)
    (other : Nat) : (registry.set id context).get? other = registry.get? other := by
  rw [set, get?_modify]
  split
  next same => rw [same, found, Option.map_some]
  next => rfl

/-- The key of the configuration that may be generated while an event is handled. -/
def Event.generated? (event : Event) : Option Uri :=
  event.document?.bind fun uri => uri.normalize.normalize.generated.toOption.map fun found => found.normalize.normalize

private theorem Event.generated?_of_placeholder {event : Event} {uri key : Uri} (document : event.document? = some uri)
    (generated : Workspace.IsPlaceholder uri.normalize.normalize key) : event.generated? = some key := by
  obtain ⟨configuration, made, rfl⟩ := generated
  rw [generated?, document, Option.bind_some, made]
  rfl

namespace Workspace

/-! ## All contexts -/

/-- Whether what all contexts say of their last passes is borne out by the documents. -/
structure Accounted (held pending : Uri → Prop) (workspace : Workspace) : Prop where
  keyed : workspace.store.Keyed
  filled : workspace.store.Filled held
  contexts : ∀ id context, workspace.registry.get? id = some context → context.Accounts held pending workspace.store

variable {held pending renewed : Uri → Prop} {workspace before after : Workspace}

private theorem Accounted.withDisk {pending' : Uri → Prop} (accounted : Accounted held pending workspace) {disk : Disk}
    (kept : ∀ key, pending key → pending' key)
    (changes : ∀ key, Store.text? workspace.store.disk key ≠ Store.text? disk key → pending' key) :
    Accounted held pending' { workspace with store := { workspace.store with disk := disk } } :=
  ⟨accounted.keyed, accounted.filled, fun id context found =>
    (accounted.contexts id context found).withDisk accounted.keyed kept changes⟩

private theorem Accounted.mono {pending' : Uri → Prop} (accounted : Accounted held pending workspace)
    (kept : ∀ key, pending key → pending' key) : Accounted held pending' workspace :=
  accounted.withDisk kept fun _ differ => absurd rfl differ

private theorem Accounted.renew (accounted : Accounted held pending before)
    (turned : Turned held (fun _ => True) before after)
    (renews : ∀ key document, renewed key → before.store.file? key = some document → document.active = false →
      ∃ later, after.store.file? key = some later ∧ document.generation < later.generation) :
    Accounted held (fun key => pending key ∧ ¬renewed key) after := by
  refine ⟨turned.store.keyed accounted.keyed, turned.store.filled accounted.filled, fun id later found => ?_⟩
  have known : ∀ key ∈ later.tracked, (after.store.file? key).isSome := by
    intro key tracked
    rcases turned.tracked id later found key tracked with known | ⟨earlier, stood, tracked⟩
    · exact known
    · exact turned.store.known ((accounted.contexts id earlier stood).known key tracked)
  rcases turned.contexts id later found with new | ⟨earlier, stood, follows⟩
  · exact Context.accounts_of_unprocessed known new
  · exact (accounted.contexts id earlier stood).follows turned.store renews follows known

theorem Accounted.turned (accounted : Accounted held pending before)
    (turned : Turned held (fun _ => True) before after) :
    Accounted held pending after :=
  (accounted.renew turned fun _ _ (none' : False) => none'.elim).mono fun _ => And.left

private theorem Accounted.runPass (accounted : Accounted held pending before) {id : Nat} {context : Context}
    (found : before.registry.get? id = some context) : Accounted held pending (before.runPass id context).2 := by
  have ended := runPass_spec accounted.keyed id context
  generalize before.runPass id context = outcome at ended ⊢
  obtain ⟨result, after⟩ := outcome
  cases ended with
  | failed _ _ _ registry reads =>
    refine accounted.turned (turned_of_store (reads.elapses held fun _ => True) fun other => ?_)
    rw [registry, Registry.get?_set_self found]
  | done view _ loads registry reads cached =>
    have ages := reads.elapses held fun _ => True
    have filled := ages.filled accounted.filled
    refine ⟨reads.keyed, filled, fun other later found' => ?_⟩
    rw [registry, Registry.set, Registry.get?_modify] at found'
    split at found'
    next same =>
      rw [same, found, Option.map_some] at found'
      obtain rfl := Option.some.inj found'
      refine Context.accounts_passed loads reads filled cached ?_
      exact ((accounted.contexts id context found).elapses accounted.keyed ages).known
    next => exact (accounted.contexts other later found').elapses accounted.keyed ages

theorem Accounted.revalidateAll (accounted : Accounted held pending before) (ids : List Nat) :
    Accounted held pending (before.revalidateAll ids) :=
  revalidateAll_keeps (Accounted held pending) (fun _ _ _ found kept => kept.runPass found)
    (fun _ _ _ kept => kept.turned (turned_log _ _ _)) accounted ids

/-! ## Events -/

private theorem Accounted.edit (accounted : Accounted held pending workspace) (sound : workspace.Sound) (uri : Uri)
    (language text : String) (holds : ∀ key, IsPlaceholder uri.normalize.normalize key → held key) :
    Accounted held pending (workspace.edit uri language text).2 := by
  by_cases analysed : isAnalysed language = true
  · have opened := accounted.turned (turned_opened workspace uri text trivial)
    have edits := edit_cases workspace uri language text
    generalize workspace.edit uri language text = outcome at edits ⊢
    cases edits with
    | unknown unanalysed _ => exact absurd analysed unanalysed
    | replaced _ unanalysed _ => exact absurd analysed unanalysed
    | failed error after _ resolved =>
      have searched : Turned held (fun _ => True) (workspace.opened uri text) _ := turned_search sound uri text holds
      rw [resolved] at searched
      exact opened.turned searched
    | engaged id settled _ resolved =>
      rw [engage_eq]
      exact (opened.turned (turned_ready sound uri text holds resolved)).revalidateAll _
  · exact accounted.turned (turned_unanalysed sound.keyed uri text analysed trivial)

private theorem Accounted.writeShadow (accounted : Accounted held pending workspace) (path : List UInt8)
    (content : String)
    {pending' : Uri → Prop} (kept : ∀ key, pending key → pending' key)
    (changes : ∀ key, Store.text? workspace.store.disk key ≠
      Store.text? (workspace.writeShadow path content).2.store.disk key → pending' key) :
    Accounted held pending' (workspace.writeShadow path content).2 := by
  simp only [Workspace.writeShadow] at changes ⊢
  split at changes
  next => exact accounted.mono kept
  next disk _ => exact (accounted.withDisk kept changes).turned (turned_log _ _ _)

private theorem Accounted.save (accounted : Accounted held pending workspace) (sound : workspace.Sound) (uri : Uri)
    (text : String)
    (holds : ∀ key, IsPlaceholder uri.normalize.normalize key → held key) {pending' : Uri → Prop}
    (kept : ∀ key, pending key → pending' key)
    (changes : ∀ key, Store.text? workspace.store.disk key ≠ Store.text? (workspace.save uri text).2.store.disk key →
      pending' key) :
    Accounted held pending' (workspace.save uri text).2 := by
  have searched : Turned held (fun _ => True) workspace _ := turned_resolve sound uri.normalize holds
  have saves := save_cases workspace uri text
  generalize workspace.save uri text = outcome at saves changes ⊢
  cases saves with
  | ignored => exact accounted.mono kept
  | failed error after resolved =>
    rw [resolved] at searched
    exact (accounted.turned searched).mono kept
  | kept id settled resolved =>
    rw [resolved] at searched
    exact (accounted.turned searched).mono kept
  | written id settled path content resolved =>
    rw [resolved] at searched
    rw [← searched.store.disk] at changes
    exact (accounted.turned searched).writeShadow path content kept changes

private theorem Accounted.changedOnDisk (accounted : Accounted held pending workspace) (sound : workspace.Sound)
    (uris : List Uri) :
    Accounted held (fun key => pending key ∧ ¬Event.reports (.changedOnDisk uris) key = true)
      (workspace.changedOnDisk uris) := by
  have turned : Turned held (fun _ => True) workspace (noteChanges [] workspace uris).2 :=
    (asked_noteChanges [] workspace uris).turned sound.keyed fun _ _ => trivial
  have noted := accounted.renew turned fun _ _ reported => noteChanges_renews [] sound reported
  exact noted.revalidateAll _

/-- What each event keeps: that contexts account for their last passes, up to changes on the disk that are not
reported yet. -/
theorem Accounted.step (accounted : Accounted held pending workspace) (sound : workspace.Sound) (event : Event)
    (holds : ∀ key, event.generated? = some key → held key) {pending' : Uri → Prop}
    (kept : ∀ key, pending key → ¬event.reports key = true → pending' key)
    (changes : ∀ key, Store.text? workspace.store.disk key ≠ Store.text? (workspace.step event).store.disk key →
      pending' key) :
    Accounted held pending' (workspace.step event) := by
  -- an event that reports nothing and is a turn leaves open what was pending
  have quiet : Turned held (fun _ => True) workspace (workspace.step event) → (∀ key, ¬event.reports key = true) →
      Accounted held pending' (workspace.step event) :=
    fun turned silent => (accounted.turned turned).mono fun key waits => kept key waits (silent key)
  have passive : Passive (fun _ => False) workspace (workspace.step event) → (∀ key, ¬event.reports key = true) →
      Accounted held pending' (workspace.step event) :=
    fun passive => quiet (passive.turned sound.keyed nofun)
  have generates : ∀ {uri key}, event.document? = some uri → IsPlaceholder uri.normalize.normalize key → held key :=
    fun document generated => holds _ (Event.generated?_of_placeholder document generated)
  cases event with
  | edit uri language text =>
    exact (accounted.edit sound uri language text fun _ => generates rfl).mono fun key waits =>
      kept key waits Bool.false_ne_true
  | close uri => exact quiet (turned_close sound uri) fun _ => Bool.false_ne_true
  | changedOnDisk uris => exact (accounted.changedOnDisk sound uris).mono fun key waits => kept key waits.1 waits.2
  | save uri text =>
    exact accounted.save sound uri text (fun _ => generates rfl) (fun key waits => kept key waits Bool.false_ne_true) changes
  | configure payload => exact passive (passive_configure workspace payload) fun _ => Bool.false_ne_true
  | setRoot text => exact passive (passive_setRoot workspace text) fun _ => Bool.false_ne_true
  | hover uri position => exact passive (asked_hover workspace uri position).toPassive fun _ => Bool.false_ne_true
  | definitions uri position => exact passive (asked_definitions workspace uri position).toPassive fun _ => Bool.false_ne_true
  | definition uri => exact passive (asked_definition? workspace uri).toPassive fun _ => Bool.false_ne_true
  | take => exact quiet (turned_of_store .rfl fun _ => rfl) fun _ => Bool.false_ne_true
  | replaceDisk disk => exact accounted.withDisk (fun key waits => kept key waits Bool.false_ne_true) changes

theorem accounted_start (disk : Disk) : Accounted held pending (start disk) :=
  ⟨(sound_start disk).keyed, fun _ _ found => (nomatch found), fun _ _ found => (nomatch found)⟩

end Workspace

end SpecServer
