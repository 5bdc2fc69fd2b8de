import SpecServer.Proofs.Uri.Colons
set_option autoImplicit false

/-!
What follows the authority of a URI: its path, its query and its fragment. An ending whose parts are encoded is
read back as it stands, also after escaped colons were decoded in it or its last part was made longer.
-/

namespace SpecServer

open Uri

/-- The path, the query and the fragment of a URI. -/
structure Ending where
  path : List Char
  query : Option (List Char)
  fragment : Option (List Char)
deriving DecidableEq

namespace Uri

def ending (uri : Uri) : Ending := ⟨uri.path, uri.query, uri.fragment⟩

def queryEncodes (kind : Kind) : EncodeSet :=
  if kind = .other then .query else .specialQuery

private theorem stable_queryEncodes (kind : Kind) : (queryEncodes kind).Stable := by
  simp only [queryEncodes]
  split
  · exact stable_query
  · exact stable_specialQuery

/-- What stands in a path, a query or a fragment does not count as space around a URI. -/
theorem not_padding_of_keeps (kind : Kind) {c : Char}
    (keeps : EncodeSet.path.Keeps c ∨ EncodeSet.fragment.Keeps c ∨ (queryEncodes kind).Keeps c) :
    isPadding c = false := by
  have each : c.toNat < 0x80 ∧ (EncodeSet.path c = false ∨ EncodeSet.fragment c = false ∨ EncodeSet.query c = false) := by
    rcases keeps with path | fragment | query
    · exact ⟨path.2, .inl path.1⟩
    · exact ⟨fragment.2, .inr (.inl fragment.1)⟩
    · refine ⟨query.2, .inr (.inr ?_)⟩
      have kept := query.1
      simp only [queryEncodes] at kept
      split at kept
      · exact kept
      · simp only [EncodeSet.specialQuery, EncodeSet.plus, Bool.or_eq_false_iff] at kept
        exact kept.1
  exact forall_ascii
    (fun c => EncodeSet.path c = false ∨ EncodeSet.fragment c = false ∨ EncodeSet.query c = false → isPadding c = false)
    (by decide +kernel) each.1 each.2

/-- A path as it is read: walked, or empty where paths may be. -/
def IsPath (kind : Kind) (path : List Char) : Prop :=
  IsWalked kind path ∨ kind = .other ∧ path = []

end Uri

namespace Ending

variable {kind : Kind} {ending : Ending}

def tail (ending : Ending) : List Char :=
  marked '?' ending.query ++ marked '#' ending.fragment

def text (ending : Ending) : List Char :=
  ending.path ++ ending.tail

def lengthened (ending : Ending) (more : List Char) : Ending :=
  match ending.fragment with
  | some fragment => { ending with fragment := some (fragment ++ more) }
  | none =>
    match ending.query with
    | some query => { ending with query := some (query ++ more) }
    | none => { ending with path := ending.path ++ more }

theorem text_lengthened (ending : Ending) (more : List Char) : (ending.lengthened more).text = ending.text ++ more := by
  obtain ⟨path, query, fragment⟩ := ending
  cases fragment with
  | some fragment => simp [lengthened, text, tail, marked]
  | none =>
    cases query with
    | some query => simp [lengthened, text, tail, marked]
    | none => simp [lengthened, text, tail, marked]

/-- A longer ending has the path it had before something else, or a longer path before nothing. -/
theorem lengthened_cases (ending : Ending) (more : List Char) :
    (ending.lengthened more).path = ending.path ∧ (ending.lengthened more).tail ≠ [] ∨
      (ending.lengthened more).path = ending.path ++ more ∧ (ending.lengthened more).tail = [] := by
  obtain ⟨path, query, fragment⟩ := ending
  cases fragment with
  | some fragment => exact .inl ⟨rfl, by simp [lengthened, tail, marked]⟩
  | none =>
    cases query with
    | some query => exact .inl ⟨rfl, by simp [lengthened, tail, marked]⟩
    | none => exact .inr ⟨rfl, rfl⟩

/-- Whether the query and the fragment are encoded. -/
structure Encoded (kind : Kind) (ending : Ending) : Prop where
  query : ∀ query, ending.query = some query → ∀ c ∈ query, (queryEncodes kind).Keeps c
  fragment : ∀ fragment, ending.fragment = some fragment → ∀ c ∈ fragment, EncodeSet.fragment.Keeps c

theorem isTail_tail (ending : Ending) : IsTail ending.tail := by
  obtain ⟨path, query, fragment⟩ := ending
  cases query with
  | some query => exact .inr ⟨'?', _, rfl, by decide⟩
  | none =>
    cases fragment with
    | some fragment => exact .inr ⟨'#', _, rfl, by decide⟩
    | none => exact .inl rfl

theorem Encoded.not_padding (encoded : ending.Encoded kind) : ∀ c ∈ ending.tail, isPadding c = false := by
  intro c member
  rcases List.mem_append.mp member with query | fragment
  · cases found : ending.query with
    | none =>
      rw [found] at query
      cases query
    | some text =>
      rw [found] at query
      rcases List.mem_cons.mp query with rfl | inside
      · decide
      · exact not_padding_of_keeps kind (.inr (.inr (encoded.query text found c inside)))
  · cases found : ending.fragment with
    | none =>
      rw [found] at fragment
      cases fragment
    | some text =>
      rw [found] at fragment
      rcases List.mem_cons.mp fragment with rfl | inside
      · decide
      · exact not_padding_of_keeps kind (.inr (.inl (encoded.fragment text found c inside)))

theorem not_fold_of_not_padding {c : Char} (plain : isPadding c = false) : isFold c = false := by
  cases fold : isFold c with
  | false => rfl
  | true =>
    simp only [isFold, Bool.or_eq_true, beq_iff_eq] at fold
    rcases fold with (rfl | rfl) | rfl <;> exact absurd plain (by decide)

private theorem Encoded.readTail (encoded : ending.Encoded kind) :
    Uri.readTail kind ending.tail = (ending.query, ending.fragment) := by
  have plain : unfold ending.tail = ending.tail :=
    unfold_of_not_fold fun c member => not_fold_of_not_padding (encoded.not_padding c member)
  obtain ⟨path, query, fragment⟩ := ending
  have behind : ∀ text, fragment = some text → percentEncode .fragment text = text :=
    fun text same => percentEncode_of_keeps (encoded.fragment text same)
  simp only [Uri.readTail, plain]
  cases query with
  | none =>
    cases fragment with
    | none => rfl
    | some text => simp [tail, marked, behind text rfl]
  | some text =>
    have kept := encoded.query text rfl
    have still : percentEncode (if kind = .other then .query else .specialQuery) text = text :=
      percentEncode_of_keeps kept
    have on : ∀ c ∈ text, decide (c ≠ '#') = true := by
      intro c member
      refine decide_eq_true fun same => ?_
      subst same
      have inside := (kept '#' member).1
      simp only [queryEncodes] at inside
      split at inside <;> exact absurd inside (by decide)
    cases fragment with
    | none =>
      have front : (text ++ []).takeWhile (fun c => decide (c ≠ '#')) = text := by
        rw [List.takeWhile_append_of_pos on]
        simp
      have back : (text ++ []).dropWhile (fun c => decide (c ≠ '#')) = [] := by
        rw [List.dropWhile_append_of_pos on]
        simp
      simp only [tail, marked, List.cons_append, front, back, still]
    | some last =>
      have front : (text ++ '#' :: last).takeWhile (fun c => decide (c ≠ '#')) = text := by
        rw [List.takeWhile_append_of_pos on]
        simp
      have back : (text ++ '#' :: last).dropWhile (fun c => decide (c ≠ '#')) = '#' :: last := by
        rw [List.dropWhile_append_of_pos on]
        simp
      simp only [tail, marked, List.cons_append, front, back, still, behind last rfl]

/-- Whatever text they are read from, the query and the fragment are encoded. -/
theorem encoded_readTail (kind : Kind) (path input : List Char) :
    (Ending.mk path (Uri.readTail kind input).1 (Uri.readTail kind input).2).Encoded kind := by
  have queried : ∀ text : List Char,
      ∀ c ∈ percentEncode (if kind = .other then .query else .specialQuery) text, (queryEncodes kind).Keeps c :=
    fun text c => keeps_of_mem_percentEncode (stable_queryEncodes kind)
  have closed : ∀ text : List Char, ∀ c ∈ percentEncode .fragment text, EncodeSet.fragment.Keeps c :=
    fun text c => keeps_of_mem_percentEncode stable_fragment
  simp only [Uri.readTail]
  split
  next rest =>
    refine ⟨?_, ?_⟩
    · rintro query ⟨⟩
      exact queried _
    · intro fragment found
      dsimp only at found
      split at found
      · cases found
        exact closed _
      · cases found
  next rest =>
    refine ⟨fun query none => (nomatch none), ?_⟩
    rintro fragment ⟨⟩
    exact closed _
  · exact ⟨fun query none => (nomatch none), fun fragment none => (nomatch none)⟩

theorem Encoded.withTail {scheme : List Char} (encoded : ending.Encoded (kindOf scheme)) (authority : Option Authority)
    (path : List Char) :
    Uri.withTail scheme authority path ending.tail = ⟨scheme, authority, path, ending.query, ending.fragment⟩ := by
  simp only [Uri.withTail, encoded.readTail]

/-! ## Longer endings -/

theorem Encoded.lengthened (encoded : ending.Encoded kind) {more : List Char}
    (query : ∀ c ∈ more, (queryEncodes kind).Keeps c) (fragment : ∀ c ∈ more, EncodeSet.fragment.Keeps c) :
    (ending.lengthened more).Encoded kind := by
  obtain ⟨path, asked, named⟩ := ending
  have both : ∀ (set : EncodeSet) (text : List Char), (∀ c ∈ text, set.Keeps c) → (∀ c ∈ more, set.Keeps c) →
      ∀ c ∈ text ++ more, set.Keeps c :=
    fun set text front back c member => (List.mem_append.mp member).elim (front c) (back c)
  cases named with
  | some text =>
    refine ⟨encoded.query, ?_⟩
    rintro longer ⟨⟩
    exact both _ text (encoded.fragment text rfl) fragment
  | none =>
    cases asked with
    | some text =>
      refine ⟨?_, encoded.fragment⟩
      rintro longer ⟨⟩
      exact both _ text (encoded.query text rfl) query
    | none => exact ⟨encoded.query, encoded.fragment⟩

theorem isWalked_append {path : List Char} (walked : IsPath kind path) (closed : path.getLast? ≠ some '/')
    {name : List Char} (segment : Uri.Segment kind name) : IsWalked kind (path ++ '/' :: name) := by
  rcases walked with ⟨first, more, rfl, good, single⟩ | ⟨other, rfl⟩
  · refine ⟨first, more ++ [name], ?_, ?_, fun file empty => ?_⟩
    · rw [← List.cons_append, slashed_concat]
    · intro segment' member
      rcases List.mem_append.mp (List.cons_append .. ▸ member) with front | last
      · exact good segment' front
      · obtain rfl := List.mem_singleton.mp last
        exact segment
    · have alone := single file empty
      rw [empty, alone] at closed
      exact absurd rfl closed
  · refine ⟨name, [], by simp, ?_, fun file => ?_⟩
    · intro segment' member
      obtain rfl := List.mem_singleton.mp member
      exact segment
    · exact nomatch other.symm.trans file

/-! ## Decoded endings -/

private theorem keeps_of_decoded {set : EncodeSet} (colon : set.Keeps ':') {text result : List Char}
    (decoded : Decoded text result) (kept : ∀ c ∈ text, set.Keeps c) : ∀ c ∈ result, set.Keeps c := by
  intro c member
  rcases decoded.mem member with rfl | inside
  · exact colon
  · exact kept c inside

theorem Encoded.decoded (encoded : ending.Encoded kind) {result : List Char} (decoded : Decoded ending.text result) :
    ∃ other : Ending, result = other.text ∧ Decoded ending.path other.path ∧ other.Encoded kind := by
  obtain ⟨path, query, fragment⟩ := ending
  have queried : (queryEncodes kind).Keeps ':' := by cases kind <;> decide
  have closed : EncodeSet.fragment.Keeps ':' := by decide
  have last : ∀ named : Option (List Char), fragment = named → ∀ {front whole : List Char},
      Decoded (front ++ marked '#' named) whole → ∃ front' named', whole = front' ++ marked '#' named' ∧
        Decoded front front' ∧ ∀ text, named' = some text → ∀ c ∈ text, EncodeSet.fragment.Keeps c := by
    intro named same front whole decoded
    cases named with
    | none =>
      rw [marked, List.append_nil] at decoded
      exact ⟨whole, none, by simp [marked], decoded, fun text none => (nomatch none)⟩
    | some text =>
      obtain ⟨front', back, rfl, first, second⟩ := decoded.split front '#' (by decide)
      refine ⟨front', some back, rfl, first, ?_⟩
      rintro other ⟨⟩
      exact keeps_of_decoded closed second (encoded.fragment text same)
  cases query with
  | none =>
    obtain ⟨path', named', rfl, first, kept⟩ := last fragment rfl decoded
    exact ⟨⟨path', none, named'⟩, rfl, first, fun text none => (nomatch none), kept⟩
  | some asked =>
    obtain ⟨path', back, rfl, first, rest⟩ := Decoded.split path '?' decoded (by decide)
    obtain ⟨asked', named', rfl, second, kept⟩ := last fragment rfl rest
    refine ⟨⟨path', some asked', named'⟩, rfl, first, ?_, kept⟩
    rintro other ⟨⟩
    exact keeps_of_decoded queried second (encoded.query asked rfl)

end Ending

end SpecServer
