import SpecServer.Proofs.Engine.Replay
import SpecServer.Proofs.Store.Shown
set_option autoImplicit false

/-!
What reading documents gives, and how their content ages. Reading a document changes nothing that later readings
give. The generation of a document never falls, and as long as it stays, the content is kept.
-/

namespace SpecServer

-- neither the model's parser nor the disk must be unfolded to compare what readings give
attribute [local irreducible] Uri.normalize Store.load

namespace Document

/-- What reading a tracked document gives: its content, or else what the disk holds. -/
def reading (disk : Disk) (document : Document) : Except ReadFailure (Option String) :=
  match document.content with
  | some text => .ok (some text)
  | none =>
    match Store.load disk document.uri with
    | .error failure => .error failure
    | .ok none => if document.active then .error ⟨document.uri, "file not found"⟩ else .ok none
    | .ok (some text) => .ok (some text)

theorem reading_ne {disk : Disk} {document : Document} (missing : document.content = none)
    (unloaded : ∀ text, Store.load disk document.uri ≠ .ok (some text)) (text : String) :
    document.reading disk ≠ .ok (some text) := by
  simp only [reading, missing]
  split
  next => exact nofun
  next => split <;> exact nofun
  next text loaded => exact absurd loaded (unloaded text)

/-- Whether a document may have become another one while the disk was as it is. A document that is held may be said
to be open although nobody gave its content, and one that is replaced may get another content. -/
structure Elapses (disk : Disk) (held replaced : Prop) (before after : Document) : Prop where
  uri : after.uri = before.uri
  generation : before.generation ≤ after.generation
  kept : after.generation = before.generation → ∀ text, before.content = some text → after.content = some text
  filled : after.generation = before.generation → before.content = none →
    after.content = none ∨ ∃ text, Store.load disk before.uri = .ok (some text) ∧ after.content = some text
  active : after.generation = before.generation → after.active → before.active ∨ held
  lasting : ¬replaced → ∀ text, before.content = some text → after.content = some text

variable {disk : Disk} {held replaced : Prop}

private theorem Elapses.of_same {before after : Document} (uri : after.uri = before.uri)
    (content : after.content = before.content)
    (generation : after.generation = before.generation) (active : after.active → before.active ∨ held) :
    Elapses disk held replaced before after :=
  ⟨uri, Nat.le_of_eq generation.symm, fun _ _ found => content.trans found, fun _ missing => .inl (content.trans missing),
    fun _ => active, fun _ _ found => content.trans found⟩

private theorem Elapses.rfl {document : Document} : Elapses disk held replaced document document :=
  .of_same (.refl _) (.refl _) (.refl _) .inl

/-- A document with a new generation may have any content, if it is replaced or had none. -/
theorem Elapses.of_lt {before after : Document} (uri : after.uri = before.uri)
    (later : before.generation < after.generation)
    (lasting : ¬replaced → ∀ text, before.content = some text → after.content = some text) :
    Elapses disk held replaced before after := by
  have apart : after.generation ≠ before.generation := Nat.ne_of_gt later
  exact ⟨uri, Nat.le_of_lt later, fun same => absurd same apart, fun same => absurd same apart,
    fun same => absurd same apart, lasting⟩

private theorem Elapses.trans {first second third : Document} (left : Elapses disk held replaced first second)
    (right : Elapses disk held replaced second third) : Elapses disk held replaced first third := by
  have both : third.generation = first.generation →
      second.generation = first.generation ∧ third.generation = second.generation := by
    intro same
    have := left.generation
    have := right.generation
    omega
  refine ⟨right.uri.trans left.uri, Nat.le_trans left.generation right.generation, fun same text found => ?_,
    fun same missing => ?_, fun same active => ?_,
    fun lasts text found => right.lasting lasts text (left.lasting lasts text found)⟩
  · exact right.kept (both same).2 text (left.kept (both same).1 text found)
  · rcases left.filled (both same).1 missing with still | ⟨text, loaded, got⟩
    · rw [← left.uri]
      exact right.filled (both same).2 still
    · exact .inr ⟨text, loaded, right.kept (both same).2 text got⟩
  · rcases right.active (both same).2 active with sooner | holds
    · exact left.active (both same).1 sooner
    · exact .inr holds

end Document

namespace Store

/-- The text that the disk holds for a document. -/
def text? (disk : Disk) (uri : Uri) : Option String :=
  (load disk uri).toOption.join

theorem text?_eq_some_iff {disk : Disk} {uri : Uri} {text : String} :
    text? disk uri = some text ↔ load disk uri = .ok (some text) :=
  join_toOption_eq_some

/-- What reading each document gives. -/
def reading (store : Store) : Texts :=
  fun uri => (store.read uri).1

/-- Documents that are open have content, as far as they are not held. -/
def Filled (held : Uri → Prop) (store : Store) : Prop :=
  ∀ key document, store.file? key = some document → document.active → document.content = none → held key

variable {store : Store} {held replaced : Uri → Prop} {uri : Uri}

theorem keyed_iff : store.Keyed ↔ ∀ key document, store.file? key = some document → document.uri = key := by
  constructor
  · intro keyed key document found
    exact keyed key (document.uri, document.active) (by simp only [status?, found, Option.map_some])
  · intro named key entry found
    obtain ⟨document, stored, rfl⟩ := Option.map_eq_some_iff.mp found
    exact named key document stored

theorem reading_eq (store : Store) (uri : Uri) : store.reading uri =
    match store.file? uri.normalize with
    | none => load store.disk uri.normalize
    | some document => document.reading store.disk := by
  simp only [reading, read, get?]
  cases store.file? uri.normalize with
  | none => rfl
  | some document =>
    simp only [contentOf, Document.reading]
    cases document.content with
    | some text => rfl
    | none =>
      cases document.active with
      | true => cases load store.disk document.uri with
        | error failure => rfl
        | ok text => cases text <;> rfl
      | false => cases load store.disk document.uri with
        | error failure => rfl
        | ok text => cases text <;> rfl

theorem reading_congr {before after : Store} (disk : after.disk = before.disk)
    (same : ∀ key, (after.file? key).map (Document.reading before.disk) =
      (before.file? key).map (Document.reading before.disk)) :
    after.reading = before.reading := by
  funext uri
  have here := same uri.normalize
  rw [reading_eq, reading_eq, disk]
  cases found : before.file? uri.normalize with
  | none =>
    rw [found, Option.map_none, Option.map_eq_none_iff] at here
    rw [here]
  | some document =>
    rw [found, Option.map_some, Option.map_eq_some_iff] at here
    obtain ⟨later, stored, reads⟩ := here
    rw [stored]
    exact reads

/-- What reading makes of a store: a document without content may have got what the disk holds. -/
inductive Fetched (store : Store) : Store → Prop
  | same : Fetched store store
  | kept (document : Document) (text : String) (found : store.file? document.uri = some document)
      (missing : document.content = none) (loaded : load store.disk document.uri = .ok (some text)) :
    Fetched store (store.modify document.uri fun document => document.keep text)
  | renewed (document : Document) (text : String) (found : store.file? document.uri = some document)
      (missing : document.content = none) (loaded : load store.disk document.uri = .ok (some text)) :
    Fetched store (store.modify document.uri fun document => document.setContent (some text))

theorem fetched_contentOf {document : Document} (found : store.file? document.uri = some document) :
    Fetched store (store.contentOf document).2 := by
  simp only [contentOf]
  split
  · exact .same
  next missing =>
    split
    · exact .same
    · exact .same
    next text loaded => exact .kept document text found missing loaded

theorem fetched_read (keyed : store.Keyed) (uri : Uri) : Fetched store (store.read uri).2 := by
  simp only [read]
  split
  · exact .same
  next document stored =>
    have found : store.file? document.uri = some document := keyed.uri_of_get? stored ▸ stored
    split
    · have got := fetched_contentOf found
      split
      next read => simpa only [read] using got
      next read => simpa only [read] using got
    next free =>
      rw [Bool.or_eq_true, not_or, Bool.not_eq_true, Option.isSome_eq_false_iff, Option.isNone_iff_eq_none] at free
      have missing := free.1
      split
      · exact .same
      · exact .same
      next text loaded => exact .renewed document text found missing loaded

private theorem reading_fetched {after : Store} (fetched : Fetched store after) : after.reading = store.reading := by
  have filled : ∀ {document : Document} {text : String} {change : Document → Document},
      store.file? document.uri = some document → document.content = none →
      load store.disk document.uri = .ok (some text) → (∀ document, (change document).content = some text) →
      (store.modify document.uri change).reading = store.reading := by
    intro document text change found missing loaded sets
    refine reading_congr rfl fun key => ?_
    rw [file?_modify]
    split
    next same =>
      rw [same, found, Option.map_some, Option.map_some, Option.map_some]
      simp only [Document.reading, sets, missing, loaded]
    next => rfl
  cases fetched with
  | same => rfl
  | kept document text found missing loaded => exact filled found missing loaded fun _ => rfl
  | renewed document text found missing loaded => exact filled found missing loaded fun _ => rfl

/-! ## Ageing -/

/-- Whether a store may have become another one while the disk was as it is. -/
structure Elapses (held replaced : Uri → Prop) (before after : Store) : Prop where
  disk : after.disk = before.disk
  keyed : before.Keyed → after.Keyed
  filled : before.Filled held → after.Filled held
  documents : ∀ key document, before.file? key = some document →
    ∃ later, after.file? key = some later ∧ document.Elapses before.disk (held key) (replaced key) later

theorem Elapses.rfl : Elapses held replaced store store :=
  ⟨.refl _, id, id, fun _ document found => ⟨document, found, .rfl⟩⟩

theorem Elapses.trans {first second third : Store} (left : Elapses held replaced first second)
    (right : Elapses held replaced second third) : Elapses held replaced first third := by
  refine ⟨right.disk.trans left.disk, right.keyed ∘ left.keyed, right.filled ∘ left.filled, fun key document found => ?_⟩
  obtain ⟨middle, met, ages⟩ := left.documents key document found
  obtain ⟨last, met', ages'⟩ := right.documents key middle met
  exact ⟨last, met', ages.trans (left.disk ▸ ages')⟩

theorem Elapses.known {before after : Store} (ages : Elapses held replaced before after) {key : Uri}
    (known : (before.file? key).isSome) : (after.file? key).isSome := by
  obtain ⟨document, found⟩ := Option.isSome_iff_exists.mp known
  obtain ⟨later, found', -⟩ := ages.documents key document found
  rw [found']
  rfl

private theorem elapses_modify {key : Uri} {change : Document → Document}
    (ages : ∀ document, store.file? key = some document →
      document.Elapses store.disk (held key) (replaced key) (change document))
    (fills : ∀ document, store.file? key = some document → (document.active → document.content = none → held key) →
      (change document).active → (change document).content = none → held key) :
    Elapses held replaced store (store.modify key change) := by
  refine ⟨.refl _, fun keyed => ?_, fun filled other document found => ?_, fun other document found => ?_⟩
  · rw [keyed_iff] at keyed ⊢
    intro other document found
    rw [file?_modify] at found
    split at found
    next same =>
      subst same
      obtain ⟨before, stored, rfl⟩ := Option.map_eq_some_iff.mp found
      exact (ages before stored).uri.trans (keyed other before stored)
    next => exact keyed other document found
  · rw [file?_modify] at found
    split at found
    next same =>
      subst same
      obtain ⟨before, stored, rfl⟩ := Option.map_eq_some_iff.mp found
      exact fills before stored (filled other before stored)
    next => exact filled other document found
  · rw [file?_modify]
    split
    next same =>
      subst same
      exact ⟨change document, by rw [found, Option.map_some], ages document found⟩
    next => exact ⟨document, found, .rfl⟩

/-- New content of a document, which may be opened with it. -/
theorem elapses_setContent (store : Store) {key : Uri} (replaces : replaced key) {change : Document → Document}
    (text : String) (sets : ∀ document, (change document).uri = document.uri ∧
      (change document).generation = document.generation + 1 ∧
      (change document).content = some text) :
    Elapses held replaced store (store.modify key change) := by
  refine elapses_modify (fun document _ => ?_) fun document _ _ _ missing => ?_
  · obtain ⟨uri, generation, -⟩ := sets document
    exact .of_lt uri (by omega) (absurd replaces)
  · cases (sets document).2.2.symm.trans missing

theorem elapses_drop {key : Uri} (replaces : replaced key)
    (shut : ∀ document, store.file? key = some document → document.active = false) :
    Elapses held replaced store (store.modify key fun document => document.setContent none) := by
  refine elapses_modify (fun _ _ => .of_lt rfl (Nat.lt_succ_self _) (absurd replaces)) fun document found _ active _ => ?_
  cases (shut document found).symm.trans active

theorem elapses_setActive (store : Store) {key : Uri} {active : Bool} (holds : active = true → held key) :
    Elapses held replaced store (store.modify key fun document => document.setActive active) := by
  refine elapses_modify (fun document _ => ?_) fun document _ _ opened _ => holds opened
  exact .of_same rfl rfl rfl fun opened => .inr (holds opened)

private theorem elapses_fetched {after : Store} (fetched : Fetched store after) :
    Elapses held replaced store after := by
  cases fetched with
  | same => exact .rfl
  | kept document text found missing loaded =>
    refine elapses_modify (fun other stored => ?_) fun _ _ _ _ missing' => nomatch missing'
    obtain rfl : document = other := Option.some.inj (found.symm.trans stored)
    refine ⟨rfl, Nat.le_refl _, fun _ other given => ?_, fun _ _ => .inr ⟨text, loaded, rfl⟩, fun _ => .inl,
      fun _ other given => ?_⟩ <;> cases missing.symm.trans given
  | renewed document text found missing loaded =>
    refine elapses_modify (fun other stored => ?_) fun _ _ _ _ missing' => nomatch missing'
    obtain rfl : document = other := Option.some.inj (found.symm.trans stored)
    refine .of_lt rfl (Nat.lt_succ_self _) fun _ other given => ?_
    cases missing.symm.trans given

/-- Whether a store came about from another one by reading. -/
structure Reads (before after : Store) : Prop where
  keyed : after.Keyed
  reading : after.reading = before.reading
  elapses : ∀ held replaced, Elapses held replaced before after

theorem Reads.rfl (keyed : store.Keyed) : Reads store store :=
  ⟨keyed, .refl _, fun _ _ => .rfl⟩

theorem Reads.trans {first second third : Store} (left : Reads first second) (right : Reads second third) :
    Reads first third :=
  ⟨right.keyed, right.reading.trans left.reading, fun held replaced =>
    (left.elapses held replaced).trans (right.elapses held replaced)⟩

theorem Fetched.reads {after : Store} (fetched : Fetched store after) (keyed : store.Keyed) : Reads store after :=
  have ages : ∀ held replaced, Elapses held replaced store after := fun _ _ => elapses_fetched fetched
  ⟨(ages (fun _ => True) fun _ => True).keyed keyed, reading_fetched fetched, ages⟩

theorem Reads.read {before after : Store} (reads : Reads before after) (uri : Uri) : Reads before (after.read uri).2 :=
  reads.trans ((fetched_read reads.keyed uri).reads reads.keyed)

/-- The store repeats what it gave, as long as it is only read. -/
theorem source_repeats (store : Store) : source.Repeats store.reading (Reads store) :=
  ⟨fun uri _ reads => congrFun reads.reading uri, fun uri _ reads => reads.read uri⟩

/-! ## Keeping what was read -/

/-- Whether a tracked document has the text that reading it gives. -/
def Cached (store : Store) (uri : Uri) : Prop :=
  ∀ document, store.file? uri.normalize = some document → ∀ text, document.reading store.disk = .ok (some text) →
    document.content = some text

theorem cached_iff {document : Document} (found : store.file? uri.normalize = some document) :
    store.Cached uri ↔ ∀ text, document.reading store.disk = .ok (some text) → document.content = some text :=
  ⟨fun cached => cached document found, fun cached _ stored => Option.some.inj (stored.symm.trans found) ▸ cached⟩

private theorem cached_of_content {document : Document} {text : String}
    (found : store.file? uri.normalize = some document)
    (content : document.content = some text) : store.Cached uri := by
  refine (cached_iff found).mpr fun other read => ?_
  rw [Document.reading, content] at read
  rw [content, Option.some.inj (Except.ok.inj read)]

private theorem cached_of_unloaded {document : Document} (found : store.file? uri.normalize = some document)
    (unloaded : ∀ text, load store.disk document.uri ≠ .ok (some text)) : store.Cached uri := by
  cases content : document.content with
  | some text => exact cached_of_content found content
  | none => exact (cached_iff found).mpr fun text read => absurd read (Document.reading_ne content unloaded text)

private theorem cached_modify {key : Uri} {document : Document} {text : String} {change : Document → Document}
    (found : store.file? uri.normalize = some document) (named : uri.normalize = key)
    (sets : (change document).content = some text) : (store.modify key change).Cached uri := by
  have stored : (store.modify key change).file? uri.normalize = some (change document) := by
    rw [file?_modify, if_pos named, found, Option.map_some]
  exact cached_of_content stored sets

private theorem cached_contentOf {document : Document} (found : store.file? uri.normalize = some document)
    (named : document.uri = uri.normalize) : (store.contentOf document).2.Cached uri := by
  simp only [contentOf]
  split
  next text content => exact cached_of_content found content
  next =>
    split
    next failed => exact cached_of_unloaded found fun _ loaded => absurd (failed.symm.trans loaded) (by simp)
    next absent => exact cached_of_unloaded found fun _ loaded => absurd (absent.symm.trans loaded) (by simp)
    next text _ => exact cached_modify found named.symm rfl

theorem cached_read (keyed : store.Keyed) (uri : Uri) : (store.read uri).2.Cached uri := by
  simp only [read]
  split
  next absent => exact fun document found => absurd (absent.symm.trans found) (by simp)
  next document found =>
    have named : document.uri = uri.normalize := keyed.uri_of_get? found
    split
    · have kept := cached_contentOf found named
      split
      next read => simpa only [read] using kept
      next read => simpa only [read] using kept
    next =>
      split
      next failed => exact cached_of_unloaded found fun _ loaded => absurd (failed.symm.trans loaded) (by simp)
      next absent => exact cached_of_unloaded found fun _ loaded => absurd (absent.symm.trans loaded) (by simp)
      next text _ => exact cached_modify found named.symm rfl

theorem Cached.fetched {after : Store} (cached : store.Cached uri) (fetched : Fetched store after) :
    after.Cached uri := by
  have kept : ∀ {key : Uri} {text : String} {change : Document → Document},
      (∀ document, (change document).content = some text) → (store.modify key change).Cached uri := by
    intro key text change sets document found
    rw [file?_modify] at found
    split at found
    · obtain ⟨before, stored, rfl⟩ := Option.map_eq_some_iff.mp found
      intro other read
      rw [Document.reading, sets] at read
      rw [sets, Option.some.inj (Except.ok.inj read)]
    · exact cached document found
  cases fetched with
  | same => exact cached
  | kept _ _ _ _ _ => exact kept fun _ => rfl
  | renewed _ _ _ _ _ => exact kept fun _ => rfl

theorem file?_acquire (store : Store) (uri : Uri) (content : Option String) (key : Uri) :
    (store.acquire uri content).file? key = (store.file? key).or
      (if key = uri.normalize then
        some (if content.isSome then (Document.fresh uri.normalize).setContent content else .fresh uri.normalize)
      else none) := by
  simp only [acquire]
  generalize uri.normalize = own
  cases held : store.file? own with
  | some document =>
    by_cases same : key = own
    · subst same
      rw [held, Option.some_or]
    · rw [if_neg same, Option.or_none]
  | none =>
    simp only [file?, Entries.get?_append, Entries.get?, eq_comm (a := own)]

theorem elapses_acquire (store : Store) (uri : Uri) (content : Option String) :
    Elapses held replaced store (store.acquire uri content) := by
  have disk : (store.acquire uri content).disk = store.disk := by
    simp only [acquire]
    split <;> rfl
  have shown := file?_acquire store uri content
  generalize store.acquire uri content = after at disk shown ⊢
  -- a new document is not open
  have fresh : ∀ key document, after.file? key = some document → store.file? key = some document ∨
      document.uri = key ∧ document.active = false := by
    intro key document found
    rw [shown] at found
    cases stored : store.file? key with
    | some before =>
      rw [stored, Option.some_or] at found
      exact .inl found
    | none =>
      rw [stored, Option.none_or] at found
      split at found
      next same =>
        refine .inr ?_
        rw [← Option.some.inj found, same]
        split <;> exact ⟨rfl, rfl⟩
      next => cases found
  refine ⟨disk, fun keyed => ?_, fun filled key document found active missing => ?_, fun key document found => ?_⟩
  · rw [keyed_iff] at keyed ⊢
    intro key document found
    exact (fresh key document found).elim (keyed key document) And.left
  · rcases fresh key document found with before | ⟨-, shut⟩
    · exact filled key document before active missing
    · cases shut.symm.trans active
  · exact ⟨document, by rw [shown, found, Option.some_or], .rfl⟩

/-! ## Showing -/

/-- Whether two stores differ in nothing but what their documents show. -/
structure Retains (before after : Store) : Prop where
  disk : after.disk = before.disk
  documents : ∀ key, (after.file? key).map Document.clear = (before.file? key).map Document.clear

theorem Retains.rfl : Retains store store := ⟨.refl _, fun _ => .refl _⟩

theorem Retains.trans {first second third : Store} (left : Retains first second) (right : Retains second third) :
    Retains first third :=
  ⟨right.disk.trans left.disk, fun key => (right.documents key).trans (left.documents key)⟩

theorem retains_modify (store : Store) (key : Uri) {change : Document → Document}
    (same : ∀ document, (change document).clear = document.clear) : Retains store (store.modify key change) := by
  refine ⟨rfl, fun other => ?_⟩
  rw [file?_modify]
  split
  · cases store.file? other with
    | none => rfl
    | some document => exact congrArg some (same document)
  · rfl

private theorem retains_flush (store : Store) (key : Uri) (force : Bool) : Retains store (store.flush key force).2 := by
  refine ⟨?_, fun other => by rw [file?_flush]⟩
  simp only [flush]
  split
  · rfl
  · split <;> rfl

theorem retains_foldl_flush (store : Store) (keys : List Uri) :
    Retains store (keys.foldl (fun store key => (store.flush key true).2) store) := by
  induction keys generalizing store with
  | nil => exact .rfl
  | cons key rest ih => exact (retains_flush store key true).trans (ih _)

theorem retains_hide (store : Store) (key : Uri) : Retains store (store.hide key) := by
  have cleared : Retains store (store.modify key Document.clear) := retains_modify store key fun _ => rfl
  exact cleared.trans (retains_flush _ key true)

theorem retains_foldl_hide (store : Store) (keys : List Uri) : Retains store (keys.foldl hide store) := by
  induction keys generalizing store with
  | nil => exact .rfl
  | cons key rest ih => exact (retains_hide store key).trans (ih _)

private theorem Retains.symm {before after : Store} (retains : Retains before after) : Retains after before :=
  ⟨retains.disk.symm, fun key => (retains.documents key).symm⟩

theorem Retains.find {before after : Store} (retains : Retains before after) {key : Uri} {document : Document}
    (found : before.file? key = some document) : ∃ later, after.file? key = some later ∧ later.uri = document.uri ∧
      later.content = document.content ∧ later.generation = document.generation ∧ later.active = document.active := by
  have same := retains.documents key
  rw [found, Option.map_some] at same
  obtain ⟨later, stored, alike⟩ := Option.map_eq_some_iff.mp same
  simp only [Document.clear, Document.mk.injEq, and_true] at alike
  exact ⟨later, stored, alike⟩

theorem Retains.status {before after : Store} (retains : Retains before after) : after.status? = before.status? := by
  funext key
  have same := congrArg (Option.map fun document : Document => (document.uri, document.active)) (retains.documents key)
  rw [Option.map_map, Option.map_map] at same
  exact same

theorem Retains.reading {before after : Store} (retains : Retains before after) : after.reading = before.reading := by
  have reads : Document.reading before.disk = Document.reading before.disk ∘ Document.clear := Eq.refl _
  refine reading_congr retains.disk fun key => ?_
  rw [reads, ← Option.map_map, ← Option.map_map, retains.documents key]

theorem Retains.keyed {before after : Store} (retains : Retains before after) (keyed : before.Keyed) : after.Keyed := by
  rw [keyed_iff] at keyed ⊢
  intro key later found
  obtain ⟨document, stored, uri, -⟩ := retains.symm.find found
  exact uri ▸ keyed key document stored

theorem Retains.cached {before after : Store} (retains : Retains before after) (cached : before.Cached uri) :
    after.Cached uri := by
  intro later found text read
  obtain ⟨document, stored, named, content, -, opened⟩ := retains.symm.find found
  rw [← content]
  refine cached document stored text ?_
  rw [Document.reading, retains.disk] at read
  rw [Document.reading, named, content, opened]
  exact read

theorem Retains.elapses {before after : Store} (retains : Retains before after) :
    Elapses held replaced before after := by
  refine ⟨retains.disk, retains.keyed, fun filled key later found active missing => ?_, fun key document found => ?_⟩
  · obtain ⟨document, stored, -, content, -, opened⟩ := retains.symm.find found
    exact filled key document stored (opened.trans active) (content.trans missing)
  · obtain ⟨later, stored, uri, content, generation, active⟩ := retains.find found
    exact ⟨later, stored, .of_same uri content generation fun opened => .inl (active ▸ opened)⟩

theorem Reads.retained {before middle after : Store} (reads : Reads before middle) (retains : Retains middle after) :
    Reads before after :=
  ⟨retains.keyed reads.keyed, retains.reading.trans reads.reading, fun held replaced =>
    (reads.elapses held replaced).trans retains.elapses⟩

theorem Retains.reads {before after : Store} (retains : Retains before after) (keyed : before.Keyed) :
    Reads before after :=
  (Reads.rfl keyed).retained retains

end Store

end SpecServer
