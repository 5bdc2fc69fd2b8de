import SpecServer.Proofs.Workspace.Accounts
import SpecServer.Workspace.Reads
set_option autoImplicit false

/-!
When a pass may be skipped. Where all that a pass over a context would process is among the generations that the last
one saw, and changes on the disk were reported, the last pass merged what a new one would merge, if that one ends.
-/

namespace SpecServer

-- neither the model's parser nor the disk must be unfolded
attribute [local irreducible] Uri.normalize Store.load

/-- Whether a pass over a context would come to its end, succeed, and merge what the last one merged. -/
def Context.Fresh (store : Store) (context : Context) : Prop :=
  ∃ messages, (context.process store).1 = .ok messages ∧ Message.settled? messages ≠ none ∧
    (context.process store).2.1.session.definition = context.session.definition

namespace Workspace

variable {workspace : Workspace} {held : Uri → Prop} {events : List Event} {context : Context} {uri : Uri}

/-! ## Reports of changes -/

/-- Whether the disk got another text for a document in a run, and no event reported it since. -/
def unreported (pending : Uri → Bool) (workspace : Workspace) : List Event → Uri → Bool
  | [], key => pending key
  | event :: rest, key =>
    unreported
      (fun key =>
        pending key && !event.reports key ||
          Store.text? workspace.store.disk key != Store.text? (workspace.step event).store.disk key)
      (workspace.step event) rest key

/-- Whether all changes on the disk were reported that are about documents which the server may read. -/
def Informed (disk : Disk) (events : List Event) : Prop :=
  ∀ key ∈ (reached disk events).reads [], unreported (fun _ => false) (start disk) events key = false

instance (disk : Disk) (events : List Event) : Decidable (Informed disk events) :=
  inferInstanceAs (Decidable (∀ key ∈ (reached disk events).reads [], _))

/-- In every run contexts account for their last passes, up to changes on the disk that are not reported. -/
theorem accounted_run (holds : ∀ event ∈ events, ∀ key, event.generated? = some key → held key) {pending : Uri → Bool}
    (sound : workspace.Sound) (accounted : Accounted held (fun key => pending key = true) workspace) :
    Accounted held (fun key => unreported pending workspace events key = true) (workspace.run events) := by
  induction events generalizing workspace pending with
  | nil => exact accounted
  | cons event rest ih =>
    obtain ⟨first, later⟩ := List.forall_mem_cons.mp holds
    refine ih later (sound.stepped (step_spec sound event)) (accounted.step sound event first ?_ ?_)
    · intro key waits unsaid
      rw [waits, Bool.eq_false_iff.mpr unsaid]
      rfl
    · intro key differ
      rw [bne_iff_ne.mpr differ, Bool.or_true]

/-! ## What a pass processes -/

/-- The inputs that a pass over a context processes. -/
def inputsNow (workspace : Workspace) (context : Context) : List Uri :=
  match context.session.viewIn workspace.store.reading with
  | .error _ => []
  | .ok view => context.session.inputsOf view

/-- Whether a document has its generation watched for a context. -/
structure Watched (workspace : Workspace) (context : Context) (uri : Uri) : Prop where
  normal : uri.normalize = uri
  noted : uri ∈ (context.generations workspace.store).map Prod.fst

private theorem watched_iff : Watched workspace context uri ↔
    uri.normalize = uri ∧ uri ∈ (context.generations workspace.store).map Prod.fst :=
  ⟨fun watched => ⟨watched.normal, watched.noted⟩, fun ⟨normal, noted⟩ => ⟨normal, noted⟩⟩

instance : Decidable (Watched workspace context uri) :=
  decidable_of_iff _ watched_iff.symm

private theorem Watched.known {pending : Uri → Prop} (watched : Watched workspace context uri)
    (accounts : context.Accounts held pending workspace.store) :
    ∃ document, workspace.store.file? uri = some document ∧
      (uri, document.generation) ∈ context.generations workspace.store := by
  obtain ⟨⟨_, generation⟩, member, rfl⟩ := List.mem_map.mp watched.noted
  rcases Context.mem_generations member with ⟨tracked, same⟩ | ⟨document, found, rfl⟩
  · obtain ⟨document, found⟩ := Option.isSome_iff_exists.mp (accounts.known _ tracked)
    rw [found] at same
    exact ⟨document, found, same ▸ member⟩
  · rw [Store.get?, watched.normal] at found
    exact ⟨document, found, member⟩

private theorem Watched.reading_of_text {pending : Uri → Prop} {view : View} {inputs : List Uri}
    {texts : Uri → Option String}
    (watched : Watched workspace context uri) (accounts : context.Accounts held pending workspace.store)
    (recalls : context.Recalls held pending workspace.store (context.generations workspace.store) view inputs texts)
    (member : uri ∈ context.session.configuration :: inputs) {text : String} (read : texts uri = some text) :
    workspace.store.reading uri = .ok (some text) := by
  obtain ⟨document, stored, saw⟩ := watched.known accounts
  have still := recalls.same uri member watched.normal document stored saw
  rw [read] at still
  rw [Store.reading_eq, watched.normal, stored]
  simp only [Document.reading, show document.content = some text from still]

/-- What the last pass read of a watched document is read now, if its content comes from the editor or the disk, and no
change on the disk is pending for it. -/
theorem Watched.reading_iff {pending : Uri → Prop} {view : View} {inputs : List Uri} {texts : Uri → Option String}
    (watched : Watched workspace context uri) (accounts : context.Accounts held pending workspace.store)
    (recalls : context.Recalls held pending workspace.store (context.generations workspace.store) view inputs texts)
    (member : uri ∈ context.session.configuration :: inputs) (ungenerated : ¬held uri)
    (settled : ∀ document, workspace.store.file? uri = some document → ¬pending uri) (text : String) :
    workspace.store.reading uri = .ok (some text) ↔ texts uri = some text := by
  cases read : texts uri with
  | some other =>
    rw [watched.reading_of_text accounts recalls member read, Except.ok.injEq]
  | none =>
    obtain ⟨document, stored, saw⟩ := watched.known accounts
    have still := recalls.same uri member watched.normal document stored saw
    rw [read] at still
    obtain ⟨missing, unloaded⟩ := (still ungenerated).2 (settled document stored)
    rw [Store.reading_eq, watched.normal, stored]
    exact iff_of_false (Document.reading_ne missing unloaded text) (by simp)

private theorem mem_reads {document : Document} (found : workspace.store.file? uri = some document) :
    uri ∈ workspace.reads [] := by
  have known : uri ∈ workspace.store.files.map Prod.fst := List.mem_map_of_mem (Entries.mem_of_get? found)
  simp only [reads, List.mem_eraseDups, List.map_nil, List.nil_append, List.mem_append]
  exact .inl (.inl (.inl known))

/-- A pass that is skipped after all changes on the disk were reported would succeed and merge the same, if the generations
of the configuration and of all inputs are watched, and the contents of the inputs come from the editor or the disk. It
would come to its end exactly if the search for each node that it has to find ends, as it does where none of them lies
below an empty key. -/
theorem fresh_of_upToDate (disk : Disk) (events : List Event) (informed : Informed disk events) {id : Nat}
    {context : Context} (found : (reached disk events).registry.get? id = some context)
    (current : context.isUpToDate (context.generations (reached disk events).store) = true)
    (configured : Watched (reached disk events) context context.session.configuration)
    (watched : ∀ uri ∈ (reached disk events).inputsNow context, Watched (reached disk events) context uri)
    (ungenerated : ∀ uri ∈ (reached disk events).inputsNow context, ∀ event ∈ events, event.generated? ≠ some uri) :
    (context.Fresh (reached disk events).store ↔
        ¬∃ text path, context.session.Locates (reached disk events).store.reading text path ∧
          ∀ rounds, Locate.located? text path rounds = none) ∧
      ((∀ text path, context.session.Locates (reached disk events).store.reading text path → .key "" ∉ path) →
        context.Fresh (reached disk events).store) := by
  have accounted : Accounted (fun key => ∃ event ∈ events, event.generated? = some key)
      (fun key => unreported (fun _ => false) (start disk) events key = true) (reached disk events) :=
    accounted_run (fun event member _ generates => ⟨event, member, generates⟩) (sound_start disk) (accounted_start disk)
  have settled : ∀ uri document, (reached disk events).store.file? uri = some document →
      ¬unreported (fun _ => false) (start disk) events uri = true :=
    fun uri _ found => Bool.eq_false_iff.mp (informed uri (mem_reads found))
  generalize reached disk events = workspace at found current configured watched ungenerated accounted settled ⊢
  have accounts := accounted.contexts id context found
  obtain ⟨view, inputs, texts, recalls⟩ := accounts.recalled _ (beq_iff_eq.mp current)
  obtain ⟨text, read, viewed⟩ := recalls.loaded
  have loads : context.session.viewIn workspace.store.reading = .ok view := Session.viewIn_eq_ok_iff.mpr
    ⟨text, configured.reading_of_text accounts recalls List.mem_cons_self read, viewed⟩
  rw [inputsNow, loads] at watched ungenerated
  have processed : context.session.inputsOf view = inputs := by
    obtain ⟨document, stored, saw⟩ := configured.known accounts
    exact recalls.inputs document configured.normal stored saw fun input declared =>
      (watched input (Session.mem_inputsOf.mpr (.inl declared))).normal
  have merged : Session.merged workspace.store.reading inputs = Session.merged (fun uri => .ok (texts uri)) inputs := by
    refine Session.merged_congr fun input member text => ?_
    have among : input ∈ context.session.inputsOf view := processed ▸ member
    have placed : ¬∃ event ∈ events, event.generated? = some input :=
      fun ⟨event, within, generates⟩ => ungenerated input among event within generates
    rw [(watched input among).reading_iff accounts recalls (List.mem_cons_of_mem _ member) placed (settled input),
      Except.ok.injEq]
  obtain ⟨after, -, ran, -⟩ := process_replay accounted.keyed context
  rw [loads] at ran
  have same : (context.passed workspace.store.reading view).session.definition = context.session.definition := by
    rw [recalls.merged, ← merged, ← processed]
    rfl
  have fresh : context.Fresh workspace.store ↔
      ¬∃ text path, context.session.Locates workspace.store.reading text path ∧
        ∀ rounds, Locate.located? text path rounds = none := by
    simp only [← Locate.place?_eq_none_iff]
    rw [← Session.settled?_messagesOver loads, Context.Fresh, ran]
    exact ⟨fun ⟨_, told, ends, _⟩ => Except.ok.inj told ▸ ends, fun ends => ⟨_, rfl, ends, same⟩⟩
  refine ⟨fresh, fun named => fresh.mpr ?_⟩
  rintro ⟨text, path, locates, lost⟩
  exact Locate.place?_ne_none text (named text path locates) (Locate.place?_eq_none_iff.mpr lost)

/-- A configuration declares a document, and both are open. -/
def declaredRun : List Event :=
  [.edit topConfiguration "markdown" "#see https://aka.ms/autorest\ninput-file: x", .edit topDocument "yaml" "a: 1"]

private theorem upToDate_declaredRun :
    Informed Disk.empty declaredRun ∧
      ((reached Disk.empty declaredRun).registry.get? 0).map (fun context =>
        (context.isUpToDate (context.generations (reached Disk.empty declaredRun).store),
          decide (Watched (reached Disk.empty declaredRun) context context.session.configuration),
          decide (∀ uri ∈ (reached Disk.empty declaredRun).inputsNow context,
            Watched (reached Disk.empty declaredRun) context uri ∧ ∀ event ∈ declaredRun, event.generated? ≠ some uri),
          isEndless ((reached Disk.empty declaredRun).verdict context))) = some (true, true, true, false) := by
  decide +kernel

theorem fresh_of_upToDate_sample :
    Informed Disk.empty declaredRun ∧
      ∃ context, (reached Disk.empty declaredRun).registry.get? 0 = some context ∧
        context.isUpToDate (context.generations (reached Disk.empty declaredRun).store) = true ∧
        context.Fresh (reached Disk.empty declaredRun).store := by
  obtain ⟨informed, found⟩ := upToDate_declaredRun
  obtain ⟨context, held, site⟩ := Option.map_eq_some_iff.mp found
  simp only [Prod.mk.injEq, decide_eq_true_eq] at site
  obtain ⟨current, configured, inputs, ends⟩ := site
  have fresh := fresh_of_upToDate Disk.empty declaredRun informed held current configured
    (fun uri member => (inputs uri member).1) fun uri member => (inputs uri member).2
  refine ⟨informed, context, held, current, fresh.1.mpr fun endless => ?_⟩
  rw [← isEndless_verdict_iff (sound_reached Disk.empty declaredRun).keyed, ends] at endless
  cases endless

def pairedDisk (text : String) : Disk :=
  ⟨[(["readme.md".toUTF8.toList], .file "#see https://aka.ms/autorest\ninput-file: [x, y]".toUTF8.toList),
    (["y".toUTF8.toList], .file text.toUTF8.toList)]⟩

/-- The first document is opened, the second one changes on the disk, and that is reported. -/
def pairedRun : List Event :=
  [.edit topDocument "yaml" "a: 1", .replaceDisk (pairedDisk "b: 2"), .changedOnDisk [secondDocument]]

private theorem upToDate_pairedRun :
    Informed (pairedDisk "b: 1") pairedRun ∧
      ((reached (pairedDisk "b: 1") pairedRun).registry.get? 0).map (fun context =>
        (context.activated, context.isUpToDate (context.generations (reached (pairedDisk "b: 1") pairedRun).store),
          (context.process (reached (pairedDisk "b: 1") pairedRun).store).2.1.session.definition.map Definition.document ==
            context.session.definition.map Definition.document)) = some (true, true, false) := by
  decide +kernel

/-- A change on the disk is not noticed, although it was reported, when the document was never tracked. -/
theorem not_always_fresh :
    ¬ ∀ (disk : Disk) (events : List Event), Informed disk events → ∀ (id : Nat) (context : Context),
      (reached disk events).registry.get? id = some context → context.activated = true →
      context.isUpToDate (context.generations (reached disk events).store) = true →
      context.Fresh (reached disk events).store := by
  intro always
  obtain ⟨informed, found⟩ := upToDate_pairedRun
  obtain ⟨context, held, site⟩ := Option.map_eq_some_iff.mp found
  simp only [Prod.mk.injEq] at site
  obtain ⟨messages, -, -, same⟩ := always (pairedDisk "b: 1") pairedRun informed 0 context held site.1 site.2.1
  have differ := site.2.2
  rw [same, beq_self_eq_true] at differ
  cases differ

end Workspace

end SpecServer
