import SpecServer.Proofs.Engine.Simulation
import SpecServer.Proofs.Store.Content
set_option autoImplicit false

/-!
Stores that stay as they are. Reading what is kept already changes nothing, so that a search or a pass changes nothing
if all that it kept the first time is kept. Two stores may also differ in just how often content was replaced and in
what documents show, which no reading depends on.
-/

namespace SpecServer

-- neither the model's parser nor the disk must be unfolded to compare what readings give
attribute [local irreducible] Uri.normalize Store.load

def Document.bare (document : Document) : Document :=
  { document with generation := 0, diagnostics := [] }

namespace Store

variable {store kept before after : Store} {uri : Uri}

/-! ## Readings of what is kept -/

private theorem read_of_cached (cached : store.Cached uri) : (store.read uri).2 = store := by
  simp only [read]
  cases found : store.get? uri with
  | none => rfl
  | some document =>
    have kept := (cached_iff found).mp cached
    simp only [contentOf]
    cases content : document.content with
    | some text => rfl
    | none =>
      -- the disk holds nothing for a document that is kept without content
      have unloaded : ∀ text, load store.disk document.uri ≠ .ok (some text) := by
        intro text loaded
        have read : document.reading store.disk = .ok (some text) := by simp only [Document.reading, content, loaded]
        cases content.symm.trans (kept text read)
      cases loaded : load store.disk document.uri with
      | error failure => cases document.active <;> rfl
      | ok held =>
        cases held with
        | none => cases document.active <;> rfl
        | some text => exact absurd loaded (unloaded text)

/-- Whether readings of some documents give the same in two stores, the second of which has not changed as long as the
first one kept only what is kept there. -/
structure Echoes (among : Uri → Prop) (kept first second : Store) : Prop where
  left : first.Keyed
  right : second.Keyed
  reading : ∀ uri, among uri → second.reading uri = first.reading uri
  same : (∀ uri, among uri → first.Cached uri → kept.Cached uri) → second = kept

private theorem echoes_read (among : Uri → Prop) (kept : Store) :
    source.Simulates source among (Echoes among kept) := by
  intro uri member first second echoes
  have left := (fetched_read echoes.left uri).reads echoes.left
  have right := (fetched_read echoes.right uri).reads echoes.right
  refine ⟨echoes.reading uri member, left.keyed, right.keyed, fun other allowed => ?_, fun cached => ?_⟩
  · exact (congrFun right.reading other).trans ((echoes.reading other allowed).trans (congrFun left.reading other).symm)
  · have still := echoes.same fun other allowed found => cached other allowed (found.fetched (fetched_read echoes.left uri))
    have here := cached uri member (cached_read echoes.left uri)
    exact (congrArg (fun store => (store.read uri).2) still).trans (read_of_cached here)

/-- A search that is made again finds the same and changes nothing, if what it read is kept. -/
theorem find_again {folder : Uri} (keyed : store.Keyed) (keyed' : kept.Keyed)
    (same : ∀ uri ∈ Discovery.candidates folder, kept.reading uri = store.reading uri)
    (cached : ∀ uri ∈ Discovery.candidates folder, (Discovery.find source folder store).2.Cached uri → kept.Cached uri) :
    Discovery.find source folder kept = ((Discovery.find source folder store).1, kept) := by
  obtain ⟨result, first, second, found, found', echoes⟩ := Discovery.find_simulates
    (echoes_read (· ∈ Discovery.candidates folder) kept) ⟨keyed, keyed', same, fun _ => rfl⟩
  rw [found] at cached
  rw [found, found', echoes.same cached]

theorem loadView_again {session : Session} (cached : kept.Cached session.configuration) :
    (session.loadView source kept).2.2 = kept := by
  have read : (source.read session.configuration kept).2 = kept := read_of_cached cached
  simp only [Session.loadView]
  split <;> exact read

/-- A pass that is run again changes nothing, if what it read is kept. -/
theorem process_again {session later : Session} (task : Session.SameTask session later) (keyed : store.Keyed)
    (keyed' : kept.Keyed) (same : kept.reading = store.reading)
    (cached : ∀ uri, (session.process source store).2.2.Cached uri → kept.Cached uri) :
    (later.process source kept).2.2 = kept := by
  have echoes := Session.process_simulates task (echoes_read (fun _ => True) kept)
    ⟨keyed, keyed', fun uri _ => congrFun same uri, fun _ => rfl⟩
  exact echoes.same fun uri _ => cached uri

/-- What a store had is kept as it ages, as long as reading it gives the same. -/
theorem Cached.elapsed {held : Uri → Prop} (cached : before.Cached uri) (known : (before.file? uri.normalize).isSome)
    (ages : Elapses held (fun _ => False) before after) (same : after.reading uri = before.reading uri) :
    after.Cached uri := by
  obtain ⟨document, found⟩ := Option.isSome_iff_exists.mp known
  obtain ⟨later, stored, aged⟩ := ages.documents _ document found
  refine (cached_iff stored).mpr fun text read => ?_
  rw [reading_eq, reading_eq, found, stored] at same
  exact aged.lasting id text ((cached_iff found).mp cached text (same.symm.trans read))

/-! ## Stores that differ in nothing that is read -/

/-- Whether two stores have the same documents but for their generations and what they show. -/
structure Still (before after : Store) : Prop where
  disk : after.disk = before.disk
  documents : ∀ key, (after.file? key).map Document.bare = (before.file? key).map Document.bare

theorem Still.rfl : Still store store := ⟨.refl _, fun _ => .refl _⟩

private theorem Still.symm (still : Still before after) : Still after before :=
  ⟨still.disk.symm, fun key => (still.documents key).symm⟩

theorem Still.trans {first second third : Store} (left : Still first second) (right : Still second third) :
    Still first third :=
  ⟨right.disk.trans left.disk, fun key => (right.documents key).trans (left.documents key)⟩

theorem Retains.still (retains : Retains before after) : Still before after := by
  refine ⟨retains.disk, fun key => ?_⟩
  have bare : Document.bare = Document.bare ∘ Document.clear := Eq.refl _
  rw [bare, ← Option.map_map, ← Option.map_map, retains.documents key]

theorem still_modify {key : Uri} {change : Document → Document}
    (same : ∀ document, store.file? key = some document → (change document).bare = document.bare) :
    Still store (store.modify key change) := by
  refine ⟨.refl _, fun other => ?_⟩
  rw [file?_modify]
  split
  next here =>
    subst here
    cases found : store.file? other with
    | none => rfl
    | some document => exact congrArg some (same document found)
  next => rfl

theorem Still.find (still : Still before after) {key : Uri} {document : Document}
    (found : before.file? key = some document) : ∃ later, after.file? key = some later ∧ later.uri = document.uri ∧
      later.content = document.content ∧ later.active = document.active := by
  have same := still.documents key
  rw [found, Option.map_some] at same
  obtain ⟨later, stored, alike⟩ := Option.map_eq_some_iff.mp same
  simp only [Document.bare, Document.mk.injEq, true_and, and_true] at alike
  exact ⟨later, stored, alike⟩

theorem Still.known (still : Still before after) (key : Uri) : (after.file? key).isSome = (before.file? key).isSome := by
  rw [← Option.isSome_map, still.documents key, Option.isSome_map]

theorem Still.isActive (still : Still before after) (key : Uri) : after.isActive key = before.isActive key := by
  have same := congrArg (Option.any Document.active) (still.documents key)
  rw [Option.any_map, Option.any_map] at same
  exact same

theorem Still.keyed (still : Still before after) (keyed : before.Keyed) : after.Keyed := by
  rw [keyed_iff] at keyed ⊢
  intro key later found
  obtain ⟨document, stored, named, -⟩ := still.symm.find found
  exact named ▸ keyed key document stored

theorem Still.reading (still : Still before after) : after.reading = before.reading := by
  have reads : Document.reading before.disk = Document.reading before.disk ∘ Document.bare := Eq.refl _
  refine reading_congr still.disk fun key => ?_
  rw [reads, ← Option.map_map, ← Option.map_map, still.documents key]

theorem Still.cached (still : Still before after) (cached : before.Cached uri) : after.Cached uri := by
  intro later found text read
  obtain ⟨document, stored, named, content, opened⟩ := still.symm.find found
  rw [← content]
  refine cached document stored text ?_
  rw [Document.reading, still.disk] at read
  rw [Document.reading, named, content, opened]
  exact read

/-! ## Documents that are new -/

/-- Whether all documents of a store that are new are of one kind, and readings of all but some give what they did. -/
structure Takes (taken opened : Uri → Prop) (before after : Store) : Prop where
  reading : ∀ uri, ¬opened uri.normalize → after.reading uri = before.reading uri
  known : ∀ key, (after.file? key).isSome → (before.file? key).isSome ∨ taken key

variable {taken opened : Uri → Prop}

theorem Takes.rfl : Takes taken opened store store := ⟨fun _ _ => .refl _, fun _ => .inl⟩

theorem Takes.trans {first second third : Store} (left : Takes taken opened first second)
    (right : Takes taken opened second third) : Takes taken opened first third := by
  refine ⟨fun uri apart => (right.reading uri apart).trans (left.reading uri apart), fun key known => ?_⟩
  rcases right.known key known with sooner | new
  · exact left.known key sooner
  · exact .inr new

theorem takes_of_still (still : Still before after) : Takes taken opened before after :=
  ⟨fun uri _ => congrFun still.reading uri, fun key known => .inl (still.known key ▸ known)⟩

private theorem isSome_file?_congr (status : after.status? = before.status?) (key : Uri) :
    (after.file? key).isSome = (before.file? key).isSome := by
  have same := congrArg Option.isSome (congrFun status key)
  rwa [status?, status?, Option.isSome_map, Option.isSome_map] at same

theorem Reads.takes (reads : Reads before after) (status : after.status? = before.status?) :
    Takes taken opened before after :=
  ⟨fun uri _ => congrFun reads.reading uri, fun key known => .inl (isSome_file?_congr status key ▸ known)⟩

theorem Reads.cached (reads : Reads before after) (status : after.status? = before.status?) (cached : before.Cached uri) :
    after.Cached uri := by
  cases known : (before.file? uri.normalize).isSome with
  | true => exact cached.elapsed known (reads.elapses (fun _ => False) _) (congrFun reads.reading uri)
  | false =>
    intro document found
    rw [← isSome_file?_congr status, found] at known
    cases known

private theorem disk_acquire (store : Store) (uri : Uri) (content : Option String) :
    (store.acquire uri content).disk = store.disk := by
  simp only [acquire]
  split <;> rfl

theorem acquire_of_known (known : (store.file? uri.normalize).isSome) (content : Option String) :
    store.acquire uri content = store := by
  obtain ⟨document, found⟩ := Option.isSome_iff_exists.mp known
  simp only [acquire, found]

private theorem known_acquire_iff (store : Store) (uri : Uri) (content : Option String) (key : Uri) :
    ((store.acquire uri content).file? key).isSome = true ↔
      (store.file? key).isSome = true ∨ key = uri.normalize := by
  rw [file?_acquire]
  cases store.file? key with
  | some document => simp
  | none => by_cases same : key = uri.normalize <;> simp [same]

theorem takes_acquire (store : Store) {uri : Uri} (takes : taken uri.normalize) :
    Takes taken opened store (store.acquire uri none) := by
  refine ⟨fun other _ => ?_, fun key known => ?_⟩
  · rw [reading_eq, reading_eq, disk_acquire, file?_acquire]
    cases found : store.file? other.normalize with
    | some document => rfl
    | none =>
      rw [Option.none_or]
      by_cases same : other.normalize = uri.normalize
      · rw [if_pos same, same]
        simp only [Option.isSome_none, Bool.false_eq_true, ↓reduceIte, Document.reading, Document.fresh]
        cases load store.disk uri.normalize with
        | error failure => rfl
        | ok text => cases text <;> rfl
      · rw [if_neg same]
  · rcases (known_acquire_iff store uri none key).mp known with sooner | same
    · exact .inl sooner
    · exact .inr (same ▸ takes)

/-- A document that is new and opened with content is all that may read otherwise. -/
theorem takes_open (store : Store) {uri : Uri} (content : Option String) (takes : taken uri.normalize)
    (opens : opened uri.normalize) :
    Takes taken opened store
      ((store.acquire uri content).modify uri.normalize fun file => file.setActive true) := by
  refine ⟨fun other apart => ?_, fun key known => ?_⟩
  · have different : other.normalize ≠ uri.normalize := fun same => apart (same ▸ opens)
    rw [reading_eq, reading_eq, file?_modify, if_neg different, file?_acquire, if_neg different, Option.or_none]
    simp only [modify, disk_acquire]
  · have held : (((store.acquire uri content).modify uri.normalize fun file => file.setActive true).file? key).isSome =
        ((store.acquire uri content).file? key).isSome := by
      rw [file?_modify]
      split
      · exact Option.isSome_map
      · rfl
    rcases (known_acquire_iff store uri content key).mp (held ▸ known) with sooner | same
    · exact .inl sooner
    · exact .inr (same ▸ takes)

end Store

end SpecServer
