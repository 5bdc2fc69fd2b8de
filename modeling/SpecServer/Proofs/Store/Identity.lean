import Mathlib.Data.Finset.Card
import SpecServer.Proofs.Store.Content
set_option autoImplicit false

/-!
One document for each normal form. Documents that are tracked one after another are told apart by the normal forms of
their URIs, and each has the content that came first. All lookups but one go by the normal form alone; the search without
regard to case compares the spelling that it is given.
-/

namespace SpecServer

/-- A document that was just met, with the content that came with it. -/
def Document.seeded (key : Uri) (content : Option String) : Document :=
  ⟨key, content, if content.isSome then 1 else 0, false, []⟩

namespace Store

/-- Tracks documents one after another. -/
def acquireAll (store : Store) (calls : List (Uri × Option String)) : Store :=
  calls.foldl (fun store call => store.acquire call.1 call.2) store

/-- Which document is that of a URI, counted in the order in which the documents were met. None of them ever goes, so
this tells them apart. -/
def number? (store : Store) (uri : Uri) : Option Nat :=
  store.files.findIdx? fun entry => entry.1 == uri.normalize

/-- Which document the call at a position returns. -/
def given? (store : Store) (calls : List (Uri × Option String)) (i : Nat) : Option Nat :=
  calls[i]?.bind fun call => (store.acquireAll (calls.take (i + 1))).number? call.1

/-- Whether each document stands under its own URI, and no two under one. -/
structure Interned (store : Store) : Prop where
  unique : (store.files.map Prod.fst).Nodup
  own : ∀ entry ∈ store.files, entry.2.uri = entry.1

-- the parser of URIs must not be unfolded to compare two keys
attribute [local irreducible] Uri.normalize

variable {store : Store}

/-! ## One call -/

/-- A document that is known stays as it is, and another one is met last. -/
theorem acquire_cases (store : Store) (uri : Uri) (content : Option String) :
    uri.normalize ∈ store.files.map Prod.fst ∧ store.acquire uri content = store ∨
      uri.normalize ∉ store.files.map Prod.fst ∧
        (store.acquire uri content).files = store.files ++ [(uri.normalize, .seeded uri.normalize content)] := by
  cases found : store.file? uri.normalize with
  | some document =>
    refine .inl ⟨List.mem_map.mpr ⟨_, Entries.mem_of_get? found, rfl⟩, ?_⟩
    simp only [acquire, found]
  | none =>
    refine .inr ⟨Entries.get?_eq_none_iff.mp found, ?_⟩
    simp only [acquire, found]
    cases content <;> rfl

private theorem Interned.acquire (interned : store.Interned) (uri : Uri) (content : Option String) :
    (store.acquire uri content).Interned := by
  rcases acquire_cases store uri content with ⟨-, same⟩ | ⟨absent, added⟩
  · rwa [same]
  · refine ⟨?_, ?_⟩
    · rw [added, List.map_append, List.nodup_append]
      refine ⟨interned.unique, List.nodup_singleton _, ?_⟩
      intro key member other last same
      rw [List.map_singleton, List.mem_singleton] at last
      rw [same, last] at member
      exact absent member
    · intro entry member
      rw [added, List.mem_append, List.mem_singleton] at member
      rcases member with before | rfl
      · exact interned.own entry before
      · rfl

private theorem prefix_acquire (store : Store) (uri : Uri) (content : Option String) :
    store.files <+: (store.acquire uri content).files := by
  rcases acquire_cases store uri content with ⟨-, same⟩ | ⟨-, added⟩
  · rw [same]
  · rw [added]
    exact List.prefix_append _ _

/-! ## Any number of calls -/

private theorem interned_start (disk : Disk) : (start disk).Interned :=
  ⟨List.nodup_nil, fun _ member => absurd member List.not_mem_nil⟩

private theorem Interned.acquireAll (interned : store.Interned) (calls : List (Uri × Option String)) :
    (store.acquireAll calls).Interned := by
  induction calls generalizing store with
  | nil => exact interned
  | cons call rest ih => exact ih (interned.acquire call.1 call.2)

private theorem prefix_acquireAll (store : Store) (calls : List (Uri × Option String)) :
    store.files <+: (store.acquireAll calls).files := by
  induction calls generalizing store with
  | nil => exact List.prefix_refl _
  | cons call rest ih => exact (prefix_acquire store call.1 call.2).trans (ih _)

private theorem file?_acquireAll (store : Store) (calls : List (Uri × Option String)) (key : Uri) :
    (store.acquireAll calls).file? key = (store.file? key).or
      ((calls.find? fun call => call.1.normalize = key).map fun call => .seeded key call.2) := by
  induction calls generalizing store with
  | nil => exact Option.or_none.symm
  | cons call rest ih =>
    have first : (store.acquire call.1 call.2).file? key = (store.file? key).or
        (if call.1.normalize = key then some (.seeded key call.2) else none) := by
      rw [file?_acquire]
      congr 1
      by_cases same : call.1.normalize = key
      · subst same
        rw [if_pos rfl, if_pos rfl]
        cases call.2 <;> rfl
      · rw [if_neg same, if_neg (Ne.symm same)]
    rw [show store.acquireAll (call :: rest) = (store.acquire call.1 call.2).acquireAll rest from rfl, ih, first,
      Option.or_assoc, List.find?_cons]
    congr 1
    by_cases same : call.1.normalize = key <;> simp [same]

/-! ## Documents by their numbers -/

private theorem number?_eq_some_iff (interned : store.Interned) {uri : Uri} {n : Nat} :
    store.number? uri = some n ↔ ∃ document, store.files[n]? = some (uri.normalize, document) := by
  simp only [number?, List.findIdx?_eq_some_iff_getElem, beq_iff_eq]
  constructor
  · rintro ⟨inside, same, -⟩
    refine ⟨store.files[n].2, ?_⟩
    rw [List.getElem?_eq_getElem inside, ← same]
  · rintro ⟨document, found⟩
    obtain ⟨inside, same⟩ := List.getElem?_eq_some_iff.mp found
    refine ⟨inside, congrArg Prod.fst same, ?_⟩
    intro j before equal
    -- the key would stand twice
    have keys : (store.files.map Prod.fst)[j]? = (store.files.map Prod.fst)[n]? := by
      rw [List.getElem?_map, List.getElem?_map, found, List.getElem?_eq_getElem (before.trans inside)]
      exact congrArg some equal
    have early : j < (store.files.map Prod.fst).length := by
      rw [List.length_map]
      exact before.trans inside
    exact Nat.ne_of_lt before ((List.getElem?_inj early interned.unique).mp keys)

private theorem number?_of_prefix {later : Store} (interned : store.Interned) (interned' : later.Interned)
    (grown : store.files <+: later.files) {uri : Uri} {n : Nat} (found : store.number? uri = some n) :
    later.number? uri = some n := by
  rw [number?_eq_some_iff interned] at found
  rw [number?_eq_some_iff interned']
  obtain ⟨document, held⟩ := found
  obtain ⟨more, same⟩ := grown
  refine ⟨document, ?_⟩
  rw [← same, List.getElem?_append_left (List.getElem?_eq_some_iff.mp held).1]
  exact held

private theorem exists_number? (interned : store.Interned) {uri : Uri} {document : Document}
    (found : store.file? uri.normalize = some document) :
    ∃ n, store.number? uri = some n ∧ store.files[n]? = some (uri.normalize, document) := by
  obtain ⟨n, held⟩ := List.mem_iff_getElem?.mp (Entries.mem_of_get? found)
  exact ⟨n, (number?_eq_some_iff interned).mpr ⟨document, held⟩, held⟩

private theorem given?_eq (disk : Disk) {calls : List (Uri × Option String)} {i : Nat} {call : Uri × Option String}
    (made : calls[i]? = some call) : ∃ n,
      (start disk).given? calls i = some n ∧ ((start disk).acquireAll calls).number? call.1 = some n := by
  have interned := (interned_start disk).acquireAll (calls.take (i + 1))
  have interned' := (interned_start disk).acquireAll calls
  have among : call ∈ calls.take (i + 1) := by
    rw [List.take_add_one, made]
    exact List.mem_append_right _ (List.mem_singleton_self call)
  have grown : ((start disk).acquireAll (calls.take (i + 1))).files <+: ((start disk).acquireAll calls).files := by
    have split : (start disk).acquireAll calls =
        ((start disk).acquireAll (calls.take (i + 1))).acquireAll (calls.drop (i + 1)) := by
      simp only [acquireAll]
      rw [← List.foldl_append, List.take_append_drop]
    rw [split]
    exact prefix_acquireAll _ _
  obtain ⟨document, found⟩ : ∃ document,
      ((start disk).acquireAll (calls.take (i + 1))).file? call.1.normalize = some document := by
    rw [file?_acquireAll]
    cases first : (calls.take (i + 1)).find? fun other => other.1.normalize = call.1.normalize with
    | none =>
      have other := List.find?_eq_none.mp first call among
      exact absurd (decide_eq_true rfl) other
    | some other => exact ⟨_, rfl⟩
  obtain ⟨n, given, -⟩ := exists_number? interned found
  refine ⟨n, ?_, number?_of_prefix interned interned' grown given⟩
  rw [given?, made]
  exact given

private theorem number?_eq_iff (interned : store.Interned) {first second : Uri} {n : Nat}
    (found : store.number? first = some n) :
    store.number? first = store.number? second ↔ first.normalize = second.normalize := by
  constructor
  · intro same
    obtain ⟨document, held⟩ := (number?_eq_some_iff interned).mp found
    obtain ⟨other, held'⟩ := (number?_eq_some_iff interned).mp (same ▸ found)
    exact congrArg Prod.fst (Option.some.inj (held.symm.trans held'))
  · intro same
    simp only [number?, same]

private theorem length_acquireAll (disk : Disk) (calls : List (Uri × Option String)) :
    ((start disk).acquireAll calls).files.length = (calls.map fun call => call.1.normalize).toFinset.card := by
  have interned := (interned_start disk).acquireAll calls
  have keys : (((start disk).acquireAll calls).files.map Prod.fst).toFinset =
      (calls.map fun call => call.1.normalize).toFinset := by
    ext key
    rw [List.mem_toFinset, List.mem_toFinset, ← not_iff_not, ← Entries.get?_eq_none_iff]
    show ((start disk).acquireAll calls).file? key = none ↔ _
    rw [file?_acquireAll]
    simp [start, file?, Entries.get?, List.find?_eq_none]
  rw [← keys, List.toFinset_card_of_nodup interned.unique, List.length_map]

/-! ## Searching without regard to case -/

def spelled? (store : Store) (letters : List Char) : Option Document :=
  (store.files.find? fun entry => folded entry.1 == letters).map Prod.snd

private theorem find?_of_absent {uri : Uri} (absent : store.get? uri = none) :
    store.find? uri = store.spelled? (folded uri) := by
  simp only [find?, absent]
  rfl

private theorem find?_of_known {uri : Uri} {document : Document} (known : store.get? uri = some document) :
    store.find? uri = some document := by
  simp only [find?, known]

private theorem spelled?_eq_none_iff {letters : List Char} :
    store.spelled? letters = none ↔ ∀ entry ∈ store.files, folded entry.1 ≠ letters := by
  simp only [spelled?, Option.map_eq_none_iff, List.find?_eq_none, beq_iff_eq, ne_eq]

private theorem spelled?_yields (interned : store.Interned) {letters : List Char} {document : Document}
    (found : store.spelled? letters = some document) : folded document.uri = letters := by
  obtain ⟨entry, first, rfl⟩ := Option.map_eq_some_iff.mp found
  rw [interned.own entry (List.mem_of_find?_eq_some first)]
  simpa using List.find?_some first

/-- Two spellings that differ in more than case find the same only if they find nothing. -/
theorem spelled?_eq_iff (interned : store.Interned) {letters other : List Char} (differ : letters ≠ other) :
    store.spelled? letters = store.spelled? other ↔ store.spelled? letters = none ∧ store.spelled? other = none := by
  constructor
  · intro same
    cases found : store.spelled? letters with
    | none => exact ⟨rfl, same ▸ found⟩
    | some document =>
      have here := spelled?_yields interned found
      have there := spelled?_yields interned (same ▸ found)
      exact absurd (here.symm.trans there) differ
  · rintro ⟨left, right⟩
    rw [left, right]

/-- Where the spelling of a URI differs from that of its normal form in more than case, the search tells them apart as
soon as a document that is not known under the URI has one of the two spellings. -/
theorem find?_normalize_iff (interned : store.Interned) {uri : Uri} (stable : uri.normalize.normalize = uri.normalize) :
    store.find? uri.normalize = store.find? uri ↔ store.contains uri = true ∨ folded uri.normalize = folded uri ∨
      ∀ entry ∈ store.files, folded entry.1 ≠ folded uri.normalize ∧ folded entry.1 ≠ folded uri := by
  have same : store.get? uri.normalize = store.get? uri := by rw [get?, stable, ← get?]
  cases known : store.get? uri with
  | some document =>
    rw [find?_of_known known, find?_of_known (same.trans known), contains, known]
    exact iff_of_true rfl (.inl rfl)
  | none =>
    rw [find?_of_absent known, find?_of_absent (same.trans known), contains, known, Option.isSome_none]
    simp only [Bool.false_eq_true, false_or]
    by_cases alike : folded uri.normalize = folded uri
    · rw [alike]
      exact iff_of_true rfl (.inl rfl)
    · rw [spelled?_eq_iff interned alike, spelled?_eq_none_iff, spelled?_eq_none_iff, or_iff_right alike]
      exact forall₂_and.symm

/-- Of documents that are tracked one after another, two are the same exactly if the normal forms of their URIs are, each
has the content that came with the first call for it, and there are as many as normal forms. A URI that is normalized no
further than once leads to the same document as its normal form, and so it does in the search without regard to case,
unless the URI was not known, is spelled otherwise than its normal form in more than case, and one of the two spellings is
that of a document. -/
theorem lookups_agree (disk : Disk) (calls : List (Uri × Option String)) {uri : Uri}
    (stable : uri.normalize.normalize = uri.normalize) :
    (∀ i j first second, calls[i]? = some first → calls[j]? = some second →
      ((start disk).given? calls i = (start disk).given? calls j ↔ first.1.normalize = second.1.normalize)) ∧
    (∀ i call, calls[i]? = some call → ∃ n, (start disk).given? calls i = some n ∧
      ((start disk).acquireAll calls).files[n]? = some (call.1.normalize, .seeded call.1.normalize
        ((calls.find? fun other => other.1.normalize = call.1.normalize).bind Prod.snd))) ∧
    ((start disk).acquireAll calls).files.length = (calls.map fun call => call.1.normalize).toFinset.card ∧
    ((start disk).acquireAll calls).get? uri.normalize = ((start disk).acquireAll calls).get? uri ∧
    ((start disk).acquireAll calls).contains uri.normalize = ((start disk).acquireAll calls).contains uri ∧
    (((start disk).acquireAll calls).find? uri.normalize = ((start disk).acquireAll calls).find? uri ↔
      ((start disk).acquireAll calls).contains uri = true ∨ folded uri.normalize = folded uri ∨
        ∀ entry ∈ ((start disk).acquireAll calls).files,
          folded entry.1 ≠ folded uri.normalize ∧ folded entry.1 ≠ folded uri) := by
  have interned := (interned_start disk).acquireAll calls
  refine ⟨?_, ?_, length_acquireAll disk calls, ?_, ?_, find?_normalize_iff interned stable⟩
  · intro i j first second made made'
    obtain ⟨n, given, found⟩ := given?_eq disk made
    obtain ⟨m, given', found'⟩ := given?_eq disk made'
    rw [given, given', ← found, ← found']
    exact number?_eq_iff interned found
  · intro i call made
    obtain ⟨n, given, found⟩ := given?_eq disk made
    obtain ⟨document, held⟩ := (number?_eq_some_iff interned).mp found
    refine ⟨n, given, ?_⟩
    have stored := (Entries.get?_eq_some_iff interned.unique).mpr (List.mem_of_getElem? held)
    have first : ((start disk).acquireAll calls).file? call.1.normalize = some document := stored
    rw [file?_acquireAll] at first
    obtain ⟨other, earliest, rfl⟩ := Option.map_eq_some_iff.mp first
    rw [held, earliest]
    rfl
  · rw [get?, stable, ← get?]
  · rw [contains, contains, get?, stable, ← get?]

/-! ## An escaped colon -/

def driveSpec : Uri := ⟨"file".toList, some ⟨[], [], none⟩, "/c:/spec.yaml".toList, none, none⟩

/-- The same specification with its drive written with an escaped colon, and in other letters. -/
def escapedSpec : Uri := ⟨"file".toList, some ⟨[], [], none⟩, "/C%3A/Spec.yaml".toList, none, none⟩

private theorem parsed_specs : (Uri.parse "file:///c:/spec.yaml").toOption = some driveSpec ∧
    (Uri.parse "file:///C%3A/Spec.yaml").toOption = some escapedSpec ∧
      escapedSpec.normalize.normalize = escapedSpec.normalize := by
  decide +kernel

theorem lookups_agree_sample :
    escapedSpec.normalize.normalize = escapedSpec.normalize ∧
      (start Disk.empty).given? [(escapedSpec, some "a"), (escapedSpec.normalize, some "b")] 0 =
        (start Disk.empty).given? [(escapedSpec, some "a"), (escapedSpec.normalize, some "b")] 1 ∧
      ((start Disk.empty).acquireAll [(escapedSpec, some "a"), (escapedSpec.normalize, some "b")]).get? escapedSpec.normalize =
        ((start Disk.empty).acquireAll [(escapedSpec, some "a"), (escapedSpec.normalize, some "b")]).get? escapedSpec := by
  obtain ⟨-, -, stable⟩ := parsed_specs
  obtain ⟨same, -, -, got, -⟩ :=
    lookups_agree Disk.empty [(escapedSpec, some "a"), (escapedSpec.normalize, some "b")] stable
  exact ⟨stable, (same 0 1 _ _ rfl rfl).mpr stable.symm, got⟩

/-- The normal form of a URI with an escaped colon is found without regard to case, and the URI itself is not, although a
single document is tracked. -/
theorem not_always_found_alike : ¬ ∀ (disk : Disk) (calls : List (Uri × Option String)) (text : String) (uri : Uri),
    (∀ call ∈ calls, ∃ name, Uri.parse name = .ok call.1) → Uri.parse text = .ok uri →
      uri.normalize.normalize = uri.normalize →
        ((start disk).acquireAll calls).files.Pairwise (fun left right => folded left.1 ≠ folded right.1) →
          ((start disk).acquireAll calls).find? uri.normalize = ((start disk).acquireAll calls).find? uri := by
  intro always
  obtain ⟨tracked, parsed, stable⟩ := parsed_specs
  have named : ∀ call ∈ [(driveSpec, (none : Option String))], ∃ name, Uri.parse name = .ok call.1 := by
    intro call member
    rw [List.mem_singleton.mp member]
    exact ⟨_, toOption_eq_some.mp tracked⟩
  have same := always Disk.empty _ _ escapedSpec named (toOption_eq_some.mp parsed) stable (by decide +kernel)
  have apart : ((start Disk.empty).acquireAll [(driveSpec, none)]).find? escapedSpec.normalize ≠
      ((start Disk.empty).acquireAll [(driveSpec, none)]).find? escapedSpec := by
    decide +kernel
  exact apart same

end Store

end SpecServer
