import SpecServer.Proofs.Store.Content
set_option autoImplicit false

/-!
Generations tell contents apart. Whatever is done with a document and the store that it is in, its generation is the
number of times its content was replaced. A text that was kept is another one only after that, so that equal generations
mean equal contents, unless there was no content before.
-/

namespace SpecServer

/-- The generation as it is counted, in 64 bits: behind the last number it starts again. -/
def Document.counter (document : Document) : UInt64 :=
  UInt64.ofNat document.generation

namespace Store

/-- What is done with a document, under its key, or with the store that it is in. The disk changes at any time, and maybe
back again, as it does for a text that is kept later than it was fetched. -/
inductive Operation where
  | acquire (uri : Uri) (content : Option String)
  | setContent (key : Uri) (content : Option String)
  | setActive (key : Uri) (active : Bool)
  | content (key : Uri)
  | read (uri : Uri)
  | push (key : Uri) (diagnostic : Diagnostic)
  | clear (key : Uri)
  | flush (key : Uri) (force : Bool)
  | changeDisk (disk : Disk)

/-- The store after an operation. -/
def perform (store : Store) : Operation → Store
  | .acquire uri content => store.acquire uri content
  | .setContent key content => store.modify key fun document => document.setContent content
  | .setActive key active => store.modify key fun document => document.setActive active
  | .content key =>
    match store.file? key with
    | none => store
    | some document => (store.contentOf document).2
  | .read uri => (store.read uri).2
  | .push key diagnostic => store.modify key fun document => document.push diagnostic
  | .clear key => store.modify key Document.clear
  | .flush key force => (store.flush key force).2
  | .changeDisk disk => { store with disk := disk }

/-- The store after some operations. -/
def run (store : Store) (operations : List Operation) : Store :=
  operations.foldl perform store

/-- Whether a document is loaded anew when it is read: nobody has it open, it has no content, and the disk holds one. -/
def reloads (store : Store) (document : Document) : Bool :=
  document.content.isNone && !document.active && (text? store.disk document.uri).isSome

/-- How often an operation replaces the content of the document under a key: once if it is asked to, if it meets the
document with content, or if it loads it anew. -/
def replaced (store : Store) (key : Uri) : Operation → Nat
  | .acquire uri content => if uri.normalize = key ∧ (store.file? key).isNone ∧ content.isSome then 1 else 0
  | .setContent other _ => if other = key ∧ (store.file? key).isSome then 1 else 0
  | .read uri => if uri.normalize = key ∧ (store.file? key).any store.reloads then 1 else 0
  | _ => 0

/-- How often operations replace the content of the document under a key. -/
def replacements (store : Store) (key : Uri) : List Operation → Nat
  | [] => 0
  | operation :: rest => store.replaced key operation + (store.perform operation).replacements key rest

/-- What may become of the document under a key while its content is replaced so often. -/
inductive Turns (key : Uri) : Nat → Option Document → Option Document → Prop
  | same (document : Option Document) : Turns key 0 document document
  | met : Turns key 0 none (some (.fresh key))
  | seeded (content : Option String) : Turns key 1 none (some ((Document.fresh key).setContent content))
  | marked (document : Document) (active : Bool) (diagnostics : List Diagnostic) :
      Turns key 0 (some document) (some { document with active := active, diagnostics := diagnostics })
  | kept (document : Document) (text : String) (missing : document.content = none) :
      Turns key 0 (some document) (some (document.keep text))
  | replaced (document : Document) (content : Option String) :
      Turns key 1 (some document) (some (document.setContent content))

-- neither the model's parser nor the disk must be unfolded to compare two keys
attribute [local irreducible] Uri.normalize Store.load

variable {store : Store} {key : Uri}

/-! ## One operation -/

private theorem turns_acquire (store : Store) (uri : Uri) (content : Option String) :
    Turns key (store.replaced key (.acquire uri content)) (store.file? key) ((store.acquire uri content).file? key) := by
  rw [file?_acquire, Store.replaced]
  cases found : store.file? key with
  | some document => simpa using Turns.same (some document)
  | none =>
    by_cases own : key = uri.normalize
    · subst own
      cases content with
      | none => simpa using Turns.met
      | some text => simpa using Turns.seeded (some text)
    · simpa [own, Ne.symm own] using Turns.same none

private theorem turns_modify (store : Store) (key other : Uri) {change : Document → Document} {count : Nat}
    (turns : ∀ document, store.file? other = some document → Turns other count (some document) (some (change document))) :
    Turns key (if other = key ∧ (store.file? key).isSome then count else 0) (store.file? key)
      ((store.modify other change).file? key) := by
  rw [file?_modify]
  by_cases own : key = other
  · subst own
    cases found : store.file? key with
    | none => simpa using Turns.same none
    | some document => simpa using turns document found
  · simpa [own, Ne.symm own] using Turns.same (store.file? key)

private theorem turns_modify_still (store : Store) (key other : Uri) {change : Document → Document}
    (turns : ∀ document, store.file? other = some document → Turns other 0 (some document) (some (change document))) :
    Turns key 0 (store.file? key) ((store.modify other change).file? key) := by
  simpa only [ite_self] using turns_modify store key other turns

private theorem turns_contentOf {document : Document} (found : store.file? document.uri = some document) :
    Turns key 0 (store.file? key) ((store.contentOf document).2.file? key) := by
  simp only [contentOf]
  split
  · exact .same _
  next missing =>
    split
    · exact .same _
    · exact .same _
    next text _ =>
      refine turns_modify_still store key document.uri fun other stored => .kept other text ?_
      rwa [Option.some.inj (stored.symm.trans found)]

private theorem reloads_iff {document : Document} : store.reloads document = true ↔
    (document.content.isSome || document.active) = false ∧ ∃ text, load store.disk document.uri = .ok (some text) := by
  simp only [reloads, Bool.and_eq_true, Bool.not_eq_true', Bool.or_eq_false_iff, Option.isNone_iff_eq_none,
    Option.isSome_eq_false_iff, Option.isSome_iff_exists, text?_eq_some_iff]

private theorem read_of_reloads {uri : Uri} {document : Document} (found : store.get? uri = some document)
    (reloads : store.reloads document = true) : ∃ text,
      (store.read uri).2 = store.modify document.uri fun document => document.setContent (some text) := by
  obtain ⟨free, text, loaded⟩ := reloads_iff.mp reloads
  refine ⟨text, ?_⟩
  simp only [read, found, free, loaded, Bool.false_eq_true, ↓reduceIte]

private theorem read_of_not_reloads {uri : Uri} {document : Document} (found : store.get? uri = some document)
    (reloads : store.reloads document = false) :
    (store.read uri).2 = store ∨ (store.read uri).2 = (store.contentOf document).2 := by
  simp only [read, found]
  split
  · refine .inr ?_
    split
    next read => rw [read]
    next read => rw [read]
  next free =>
    split
    · exact .inl rfl
    · exact .inl rfl
    next text loaded =>
      rw [reloads_iff.mpr ⟨Bool.eq_false_iff.mpr free, text, loaded⟩] at reloads
      cases reloads

private theorem replaced_read {uri : Uri} {document : Document} (named : document.uri = uri.normalize)
    (found : store.get? uri = some document) : store.replaced key (.read uri) =
      if document.uri = key ∧ (store.file? key).isSome then (store.reloads document).toNat else 0 := by
  have stored : store.file? document.uri = some document := named ▸ found
  rw [Store.replaced, ← named]
  by_cases own : document.uri = key
  · subst own
    cases reloads : store.reloads document <;> simp [stored, reloads]
  · simp [own]

private theorem turns_read (keyed : store.Keyed) (uri : Uri) :
    Turns key (store.replaced key (.read uri)) (store.file? key) ((store.read uri).2.file? key) := by
  cases found : store.get? uri with
  | none =>
    -- what is not tracked is read past the store
    have lasts : store.replaced key (.read uri) = 0 := by
      refine if_neg ?_
      rintro ⟨rfl, reloaded⟩
      rw [show store.file? uri.normalize = none from found] at reloaded
      cases reloaded
    simp only [read, found, lasts]
    exact .same _
  | some document =>
    have named : document.uri = uri.normalize := keyed.uri_of_get? found
    rw [replaced_read named found]
    cases reloads : store.reloads document with
    | true =>
      obtain ⟨text, renewed⟩ := read_of_reloads found reloads
      rw [renewed]
      exact turns_modify store key document.uri fun other _ => .replaced other (some text)
    | false =>
      rw [Bool.toNat_false, ite_self]
      rcases read_of_not_reloads found reloads with same | loaded
      · rw [same]
        exact .same _
      · rw [loaded]
        exact turns_contentOf (named ▸ found)

private theorem turns_perform (keyed : store.Keyed) (operation : Operation) (key : Uri) :
    Turns key (store.replaced key operation) (store.file? key) ((store.perform operation).file? key) := by
  cases operation with
  | acquire uri content => exact turns_acquire store uri content
  | setContent other content => exact turns_modify store key other fun document _ => .replaced document content
  | setActive other active => exact turns_modify_still store key other fun document _ => .marked document active _
  | content other =>
    simp only [perform]
    split
    · exact .same _
    next document found =>
      have named : document.uri = other := keyed_iff.mp keyed other document found
      exact turns_contentOf (named ▸ found)
  | read uri => exact turns_read keyed uri
  | push other diagnostic => exact turns_modify_still store key other fun document _ => .marked document _ _
  | clear other => exact turns_modify_still store key other fun document _ => .marked document _ []
  | flush other force =>
    rw [perform, file?_flush]
    exact .same _
  | changeDisk disk => exact .same _

variable {count : Nat} {before after : Option Document}

private theorem Turns.named (turns : Turns key count before after)
    (named : ∀ document, before = some document → document.uri = key) :
    ∀ document, after = some document → document.uri = key := by
  cases turns with
  | same => exact named
  | met | seeded =>
    intro document found
    cases found
    rfl
  | marked document | kept document | replaced document =>
    intro later found
    cases found
    exact named document rfl

/-- A document that is not known yet counts as one of generation zero. -/
theorem Turns.generation (turns : Turns key count before after) :
    (after.map Document.generation).getD 0 = (before.map Document.generation).getD 0 + count := by
  cases turns <;> rfl

private theorem Turns.known (turns : Turns key count before after) (known : before.isSome) : after.isSome := by
  cases turns with
  | same => exact known
  | met | seeded | marked | kept | replaced => rfl

private theorem Turns.content (turns : Turns key 0 before after) {text : String}
    (kept : before.bind Document.content = some text) : after.bind Document.content = some text := by
  cases turns with
  | same | marked => exact kept
  | met => cases kept
  | kept document other missing => cases missing.symm.trans kept

/-! ## Any number of operations -/

private theorem Keyed.perform (keyed : store.Keyed) (operation : Operation) : (store.perform operation).Keyed :=
  keyed_iff.mpr fun key => (turns_perform keyed operation key).named (keyed_iff.mp keyed key)

private theorem keyed_start (disk : Disk) : (start disk).Keyed :=
  fun _ _ found => nomatch found

private theorem Keyed.run (keyed : store.Keyed) (operations : List Operation) : (store.run operations).Keyed := by
  induction operations generalizing store with
  | nil => exact keyed
  | cons operation rest ih => exact ih (keyed.perform operation)

private theorem run_append (store : Store) (earlier later : List Operation) :
    store.run (earlier ++ later) = (store.run earlier).run later :=
  List.foldl_append

private theorem replacements_append (store : Store) (key : Uri) (earlier later : List Operation) :
    store.replacements key (earlier ++ later) =
      store.replacements key earlier + (store.run earlier).replacements key later := by
  induction earlier generalizing store with
  | nil => exact (Nat.zero_add _).symm
  | cons operation rest ih =>
    rw [List.cons_append, replacements, ih, replacements, Nat.add_assoc]
    rfl

private theorem known_run (keyed : store.Keyed) (operations : List Operation) (known : (store.file? key).isSome) :
    ((store.run operations).file? key).isSome := by
  induction operations generalizing store with
  | nil => exact known
  | cons operation rest ih => exact ih (keyed.perform operation) ((turns_perform keyed operation key).known known)

private theorem generation_run (keyed : store.Keyed) (operations : List Operation) (key : Uri) :
    (((store.run operations).file? key).map Document.generation).getD 0 =
      ((store.file? key).map Document.generation).getD 0 + store.replacements key operations := by
  induction operations generalizing store with
  | nil => rfl
  | cons operation rest ih =>
    have further : store.run (operation :: rest) = (store.perform operation).run rest := rfl
    rw [further, ih (keyed.perform operation), (turns_perform keyed operation key).generation, replacements, Nat.add_assoc]

private theorem content_run (keyed : store.Keyed) (operations : List Operation)
    (still : store.replacements key operations = 0)
    {text : String} (kept : (store.file? key).bind Document.content = some text) :
    ((store.run operations).file? key).bind Document.content = some text := by
  induction operations generalizing store with
  | nil => exact kept
  | cons operation rest ih =>
    rw [replacements, Nat.add_eq_zero_iff] at still
    have turns := turns_perform keyed operation key
    rw [still.1] at turns
    exact ih (keyed.perform operation) still.2 (turns.content kept)

private theorem counter_run {disk : Disk} {operations : List Operation} {document : Document}
    (found : ((start disk).run operations).file? key = some document)
    (few : (start disk).replacements key operations < UInt64.size) :
    document.counter.toNat = (start disk).replacements key operations := by
  have counted := generation_run (keyed_start disk) operations key
  rw [found] at counted
  have generation : document.generation = (start disk).replacements key operations := counted.trans (Nat.zero_add _)
  rw [Document.counter, generation]
  exact UInt64.toNat_ofNat_of_lt' few

/-- The counter of a document is the number of its replacements so far, if there are fewer than a counter can tell
apart. So it never falls, and a document that has the same number at two moments has the same content at both or none at
the first one; a text that was kept is another one, or none, only under a higher number. -/
theorem counters_tell_contents (disk : Disk) (earlier later : List Operation) {key : Uri} {before : Document}
    (met : ((start disk).run earlier).file? key = some before)
    (few : (start disk).replacements key (earlier ++ later) < UInt64.size) :
    ∃ after, ((start disk).run (earlier ++ later)).file? key = some after ∧
      before.counter.toNat = (start disk).replacements key earlier ∧
      after.counter.toNat = (start disk).replacements key (earlier ++ later) ∧
      before.counter ≤ after.counter ∧
      (after.counter = before.counter → after.content = before.content ∨ before.content = none) ∧
      ∀ text, before.content = some text → after.content ≠ some text → before.counter < after.counter := by
  have keyed := (keyed_start disk).run earlier
  have known := known_run keyed later (Option.isSome_of_mem met)
  rw [← run_append] at known
  obtain ⟨after, found⟩ := Option.isSome_iff_exists.mp known
  have total := replacements_append (start disk) key earlier later
  have sooner := counter_run met (by omega)
  have now := counter_run found few
  -- under the same number nothing was replaced in between
  have lasts : after.counter = before.counter → ∀ text, before.content = some text → after.content = some text := by
    intro same text kept
    have still : ((start disk).run earlier).replacements key later = 0 := by
      rw [same] at now
      omega
    have had : (((start disk).run earlier).file? key).bind Document.content = some text := by
      rw [met]
      exact kept
    have has := content_run keyed later still had
    rw [← run_append, found] at has
    exact has
  refine ⟨after, found, sooner, now, ?_, fun same => ?_, fun text kept other => ?_⟩
  · rw [UInt64.le_iff_toNat_le]
    omega
  · cases kept : before.content with
    | none => exact .inr rfl
    | some text => exact .inl (lasts same text kept)
  · have apart : after.counter ≠ before.counter := fun same => other (lasts same text kept)
    rw [ne_eq, ← UInt64.toNat_inj] at apart
    rw [UInt64.lt_iff_toNat_lt]
    omega

/-! ## A document that changes on the disk -/

def note : Uri := ⟨"file".toList, some ⟨[], [], none⟩, "/note.md".toList, none, none⟩

def noteDisk (text : String) : Disk := ⟨[([Text.Utf8.encode "note.md".toList], .file (Text.Utf8.encode text.toList))]⟩

/-- A text that is fetched from the disk is kept under the number that there was, whatever the disk holds later. -/
example :
    let contents := fun operations => (((start (noteDisk "a")).run operations).file? note).map fun document =>
      (document.content, document.generation)
    contents [.acquire note none] = some (none, 0) ∧ contents [.acquire note none, .content note] = some (some "a", 0) ∧
      contents [.acquire note none, .content note, .changeDisk (noteDisk "b"), .read note] = some (some "a", 0) := by
  decide +kernel

theorem counters_tell_contents_sample :
    let fetched : List Operation := [.acquire note none, .content note]
    let renewed : List Operation := [.changeDisk (noteDisk "b"), .content note, .setContent note none, .read note]
    let before : Document := ⟨note, some "a", 0, false, []⟩
    ((start (noteDisk "a")).run fetched).file? note = some before ∧
      (start (noteDisk "a")).replacements note (fetched ++ renewed) < UInt64.size ∧
      ∃ after, ((start (noteDisk "a")).run (fetched ++ renewed)).file? note = some after ∧
        after.content = some "b" ∧ before.counter < after.counter := by
  intro fetched renewed before
  have met : ((start (noteDisk "a")).run fetched).file? note = some before := by decide +kernel
  have few : (start (noteDisk "a")).replacements note (fetched ++ renewed) < UInt64.size := by decide +kernel
  have other : (((start (noteDisk "a")).run (fetched ++ renewed)).file? note).bind Document.content = some "b" := by
    decide +kernel
  obtain ⟨after, found, -, -, -, -, grows⟩ := counters_tell_contents (noteDisk "a") fetched renewed met few
  have held : after.content = some "b" := by
    rw [found] at other
    exact other
  refine ⟨met, few, after, found, held, grows "a" rfl ?_⟩
  rw [held]
  decide

end Store

end SpecServer
