import SpecServer.Proofs.Store.Content
set_option autoImplicit false

/-!
What the editor shows against what the store holds. The editor shows what was published last; a document whose
diagnostics change is stale until it is published again, and all others are shown as they are.
-/

namespace SpecServer

-- neither the model's parser nor the disk must be unfolded
attribute [local irreducible] Uri.normalize Store.load

/-- The diagnostics that were published last under a URI. -/
def lastPublished (publications : List Publication) (uri : Uri) : Option (List Diagnostic) :=
  (publications.filter fun publication => publication.uri == uri).getLast?.map Publication.diagnostics

private theorem lastPublished_concat (publications : List Publication) (last : Publication) (uri : Uri) :
    lastPublished (publications ++ [last]) uri =
      if last.uri = uri then some last.diagnostics else lastPublished publications uri := by
  simp only [lastPublished, List.filter_append, List.filter_cons, List.filter_nil, beq_iff_eq]
  split
  · rw [List.getLast?_append]
    rfl
  · rw [List.append_nil]

namespace Store

variable {store before after : Store} {sent : List Publication} {stale : Uri → Prop}

/-! ## Changes that show nothing -/

/-- Whether nothing changed that the editor shows: known documents have their diagnostics, and new ones have none. -/
structure Quiet (before after : Store) : Prop where
  pending : after.pending = before.pending
  kept : ∀ key document, before.file? key = some document →
    ∃ later, after.file? key = some later ∧ later.uri = document.uri ∧ later.diagnostics = document.diagnostics
  blank : ∀ key later, after.file? key = some later → before.file? key = none → later.diagnostics = []

theorem Quiet.rfl : Quiet store store :=
  ⟨.refl _, fun _ document found => ⟨document, found, .refl _, .refl _⟩, fun _ _ found absent => by
    cases found.symm.trans absent⟩

theorem Quiet.trans {first second third : Store} (left : Quiet first second) (right : Quiet second third) :
    Quiet first third := by
  refine ⟨right.pending.trans left.pending, fun key document found => ?_, fun key later found absent => ?_⟩
  · obtain ⟨middle, met, uri, shown⟩ := left.kept key document found
    obtain ⟨later, met', uri', shown'⟩ := right.kept key middle met
    exact ⟨later, met', uri'.trans uri, shown'.trans shown⟩
  · cases met : second.file? key with
    | none => exact right.blank key later found met
    | some middle =>
      obtain ⟨last, found', -, shown⟩ := right.kept key middle met
      obtain rfl := Option.some.inj (found'.symm.trans found)
      exact shown.trans (left.blank key middle met absent)

theorem quiet_modify (store : Store) (key : Uri) {change : Document → Document}
    (same : ∀ document, (change document).uri = document.uri ∧ (change document).diagnostics = document.diagnostics) :
    Quiet store (store.modify key change) := by
  refine ⟨rfl, fun other document found => ?_, fun other later found absent => ?_⟩
  · rw [file?_modify, found]
    split
    · exact ⟨change document, rfl, same document⟩
    · exact ⟨document, rfl, rfl, rfl⟩
  · rw [file?_modify, absent] at found
    split at found <;> cases found

theorem quiet_acquire (store : Store) (uri : Uri) (content : Option String) :
    Quiet store (store.acquire uri content) := by
  have pending : (store.acquire uri content).pending = store.pending := by
    simp only [acquire]
    split <;> rfl
  refine ⟨pending, fun key document found => ⟨document, ?_, rfl, rfl⟩, fun key later found absent => ?_⟩
  · rw [file?_acquire, found, Option.some_or]
  · rw [file?_acquire, absent, Option.none_or] at found
    split at found
    · rw [← Option.some.inj found]
      split <;> rfl
    · cases found

theorem quiet_contentOf (store : Store) (document : Document) : Quiet store (store.contentOf document).2 := by
  simp only [contentOf]
  split
  · exact .rfl
  · split
    · exact .rfl
    · exact .rfl
    next text _ =>
      have keeps : Quiet store (store.modify document.uri fun document => document.keep text) :=
        quiet_modify store document.uri fun _ => ⟨rfl, rfl⟩
      exact keeps

theorem quiet_read (store : Store) (uri : Uri) : Quiet store (store.read uri).2 := by
  simp only [read]
  split
  · exact .rfl
  next document _ =>
    split
    · have fetched := quiet_contentOf store document
      split
      next read => simpa only [read] using fetched
      next read => simpa only [read] using fetched
    · split
      · exact .rfl
      · exact .rfl
      next text _ =>
        have renews : Quiet store (store.modify document.uri fun document => document.setContent (some text)) :=
          quiet_modify store document.uri fun _ => ⟨rfl, rfl⟩
        exact renews

theorem source_keeps_quiet (store : Store) : source.Keeps (Quiet store) :=
  fun uri _ quiet => quiet.trans (quiet_read _ uri)

/-! ## What the editor shows -/

/-- Whether no other document goes by the same URI in the editor. -/
def Alone (store : Store) (key : Uri) (document : Document) : Prop :=
  ∀ other twin, store.file? other = some twin → twin.uri.editorForm = document.uri.editorForm → other = key

theorem alone_of_files {key : Uri} {document : Document}
    (apart : ∀ entry ∈ store.files, entry.2.uri.editorForm = document.uri.editorForm → entry.1 = key) :
    store.Alone key document :=
  fun other twin found => apart (other, twin) (Entries.mem_of_get? found)

/-- Whether the editor, once it got all publications, shows each document as it is that is not stale; and no others.
Documents that share a URI in the editor overwrite each other, so nothing is said of them. -/
structure Faithful (sent : List Publication) (stale : Uri → Prop) (store : Store) : Prop where
  shows : ∀ key document, store.file? key = some document → ¬stale key → store.Alone key document →
    (lastPublished (sent ++ store.pending) document.uri.editorForm).getD [] = document.diagnostics
  blank : ∀ uri, (∀ key document, store.file? key = some document → document.uri.editorForm ≠ uri) →
    lastPublished (sent ++ store.pending) uri = none

theorem faithful_start (disk : Disk) : (start disk).Faithful [] stale :=
  ⟨fun _ _ found => (nomatch found), fun _ _ => rfl⟩

theorem Faithful.mono {more : Uri → Prop} (faithful : store.Faithful sent stale) (less : ∀ key, stale key → more key) :
    store.Faithful sent more :=
  ⟨fun key document found fresh => faithful.shows key document found fun stays => fresh (less key stays), faithful.blank⟩

theorem Faithful.quiet (faithful : before.Faithful sent stale) (quiet : Quiet before after) :
    after.Faithful sent stale := by
  have shared : ∀ uri, (∀ key document, after.file? key = some document → document.uri.editorForm ≠ uri) →
      ∀ key document, before.file? key = some document → document.uri.editorForm ≠ uri := by
    intro uri free key document found
    obtain ⟨later, found', same, -⟩ := quiet.kept key document found
    exact same ▸ free key later found'
  refine ⟨fun key later found fresh alone => ?_, fun uri free => ?_⟩
  · rw [quiet.pending]
    cases known : before.file? key with
    | some document =>
      obtain ⟨last, found', uri, shown⟩ := quiet.kept key document known
      obtain rfl := Option.some.inj (found'.symm.trans found)
      rw [uri, shown]
      refine faithful.shows key document known fresh fun other twin stored same => ?_
      obtain ⟨last', found'', uri', -⟩ := quiet.kept other twin stored
      exact alone other last' found'' (by rw [uri', uri, same])
    | none =>
      -- a new document that is alone was not published, nor was any other under its URI
      have unnamed : ∀ other twin, before.file? other = some twin → twin.uri.editorForm ≠ later.uri.editorForm := by
        intro other twin stored same
        obtain ⟨last, found', uri, -⟩ := quiet.kept other twin stored
        rw [alone other last found' (uri ▸ same)] at stored
        cases stored.symm.trans known
      rw [faithful.blank _ unnamed, quiet.blank key later found known]
      rfl
  · rw [quiet.pending]
    exact faithful.blank uri (shared uri free)

theorem Faithful.modify (faithful : store.Faithful sent stale) (key : Uri) {change : Document → Document}
    (named : ∀ document, (change document).uri = document.uri) :
    (store.modify key change).Faithful sent fun other => stale other ∨ other = key := by
  have kept : ∀ {other document}, store.file? other = some document →
      ∃ later, (store.modify key change).file? other = some later ∧ later.uri = document.uri := by
    intro other document found
    rw [file?_modify, found]
    split
    · exact ⟨change document, rfl, named document⟩
    · exact ⟨document, rfl, rfl⟩
  refine ⟨fun other later found fresh alone => ?_, fun uri free => faithful.blank uri fun other document found => ?_⟩
  · rw [not_or] at fresh
    rw [file?_modify, if_neg fresh.2] at found
    refine faithful.shows other later found fresh.1 fun third twin stored same => ?_
    obtain ⟨last, found', uri⟩ := kept stored
    exact alone third last found' (uri ▸ same)
  · obtain ⟨later, found', uri⟩ := kept found
    exact uri ▸ free other later found'

private theorem Faithful.flush (faithful : store.Faithful sent stale) (key : Uri) :
    (store.flush key true).2.Faithful sent fun other => stale other ∧ other ≠ key := by
  cases known : store.file? key with
  | none =>
    have still : (store.flush key true).2 = store := by simp only [Store.flush, known]
    rw [still]
    refine ⟨fun other document found fresh => faithful.shows other document found fun stays => ?_, faithful.blank⟩
    exact fresh ⟨stays, fun same => by cases (same ▸ found).symm.trans known⟩
  | some own =>
    have told : (store.flush key true).2.pending = store.pending ++ [⟨own.uri.editorForm, own.diagnostics⟩] := by
      simp [Store.flush, known]
    have same : ∀ other, (store.flush key true).2.file? other = store.file? other := file?_flush store key true
    refine ⟨fun other document found fresh alone => ?_, fun uri free => ?_⟩
    · simp only [same] at found alone
      rw [told, ← List.append_assoc, lastPublished_concat]
      split
      next shared =>
        -- what was published under the URI of a document that is alone is its own
        obtain rfl : key = other := alone key own (by rw [same, known]) shared
        rw [Option.some.inj (found.symm.trans known)]
        rfl
      next apart =>
        refine faithful.shows other document found (fun stays => fresh ⟨stays, ?_⟩) fun third twin stored =>
          alone third twin (by rw [same, stored])
        rintro rfl
        exact apart (by rw [Option.some.inj (known.symm.trans found)])
    · simp only [same] at free
      rw [told, ← List.append_assoc, lastPublished_concat, if_neg (free key own known)]
      exact faithful.blank uri free

theorem Faithful.foldl_flush (faithful : store.Faithful sent stale) (keys : List Uri) :
    (keys.foldl (fun store key => (store.flush key true).2) store).Faithful sent
      fun other => stale other ∧ other ∉ keys := by
  induction keys generalizing store stale with
  | nil => exact faithful.mono fun _ stays => ⟨stays, List.not_mem_nil⟩
  | cons key rest ih =>
    refine (ih (faithful.flush key)).mono fun other stays => ⟨stays.1.1, fun member => ?_⟩
    exact (List.mem_cons.mp member).elim stays.1.2 stays.2

theorem Faithful.hide (faithful : store.Faithful sent stale) (key : Uri) : (store.hide key).Faithful sent stale := by
  have cleared : (store.modify key Document.clear).Faithful sent fun other => stale other ∨ other = key :=
    faithful.modify key fun _ => rfl
  exact (cleared.flush key).mono fun _ stays => stays.1.resolve_right stays.2

theorem Faithful.foldl_hide (faithful : store.Faithful sent stale) (keys : List Uri) :
    (keys.foldl Store.hide store).Faithful sent stale := by
  induction keys generalizing store with
  | nil => exact faithful
  | cons key rest ih => exact ih (faithful.hide key)

end Store

end SpecServer
