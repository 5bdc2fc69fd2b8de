import SpecServer.Proofs.Engine.Ending
import SpecServer.Proofs.Engine.Replay
import SpecServer.Proofs.Json.Ordering
import SpecServer.Proofs.Json.Query
import SpecServer.Proofs.Uri.Authority
set_option autoImplicit false

/-!
Which references of a document are reported. A reference is a text under the key `$ref`, wherever in the document. Those
whose target does not exist are reported, each once and in the order of their paths, whatever documents the pass knows
already. Each is reported where its key stands, so that the check ends only if the search for each of them does.
-/

namespace SpecServer

/-- What holds of an ordered document as soon as it holds of all that lies right below it. -/
theorem Json.Ordered.descend {motive : (node : Json) → node.Ordered → Prop}
    (step : ∀ (node : Json) (ordered : node.Ordered),
      (∀ segment child, (leads : node.Leads segment child) → motive child (leads.ordered ordered)) → motive node ordered)
    {node : Json} (ordered : node.Ordered) : motive node ordered := by
  induction ordered with
  | null => exact step _ .null fun _ _ leads => nomatch leads
  | bool b => exact step _ (.bool b) fun _ _ leads => nomatch leads
  | number n => exact step _ (.number n) fun _ _ leads => nomatch leads
  | string text => exact step _ (.string text) fun _ _ leads => nomatch leads
  | array items each ih =>
    refine step _ (.array items each) fun _ child leads => ?_
    cases leads with
    | index _ i _ found => exact ih child (List.mem_of_getElem? found)
  | object fields ascending each ih =>
    refine step _ (.object fields ascending each) fun _ child leads => ?_
    cases leads with
    | key _ name _ found => exact ih (name, child) (Entries.mem_of_get? found)

/-- What stands in the text under a URI, if there is a text and it can be parsed. -/
def documentAt? (texts : Texts) (uri : Uri) : Option Json :=
  match texts uri with
  | .ok (some text) => (Input.parse uri text).toOption
  | _ => none

theorem documentAt?_eq_some_iff {texts : Texts} {uri : Uri} {document : Json} : documentAt? texts uri = some document ↔
    ∃ text, texts uri = .ok (some text) ∧ Input.parse uri text = .ok document := by
  simp only [documentAt?]
  split
  next text held => simp only [held, toOption_eq_some, Except.ok.injEq, Option.some.injEq, exists_eq_left']
  next none' =>
    constructor
    · exact nofun
    · rintro ⟨text, held, -⟩
      exact absurd held (none' text)

namespace Reference

variable {σ : Type} {source : Source σ} {texts : Texts} {holds : σ → Prop} {externals : Externals} {s : σ}
  {node child document : Json} {path below : Path} {segment : Segment} {input : Uri}
  {reference : String}

/-! ## Where references stand -/

/-- Whether a reference stands at a path of a document: a text under the key `$ref`. -/
def Stands (document : Json) (path : Path) (reference : String) : Prop :=
  (∃ above : Path, path = above.key "$ref") ∧ path.Straight document ∧ path.resolve document = some (.string reference)

private theorem not_stands_root : ¬Stands node [] reference := by
  rintro ⟨⟨above, same⟩, -⟩
  exact List.append_ne_nil_of_right_ne_nil _ (List.cons_ne_nil _ _) same.symm

private theorem stands_cons {rest : Path} : Stands node (segment :: rest) reference ↔
    ∃ child, node.Leads segment child ∧
      (rest = [] ∧ segment = .key "$ref" ∧ child = .string reference ∨ Stands child rest reference) := by
  rw [Stands, Path.straight_cons]
  constructor
  · rintro ⟨⟨above, same⟩, child, leads, straight, reached⟩
    refine ⟨child, leads, ?_⟩
    cases above with
    | nil =>
      obtain ⟨rfl, rfl⟩ := List.cons.inj same
      exact .inl ⟨rfl, rfl, Option.some.inj reached⟩
    | cons first above => exact .inr ⟨⟨above, (List.cons.inj same).2⟩, straight, reached⟩
  · rintro ⟨child, leads, ⟨rfl, rfl, rfl⟩ | ⟨⟨above, rfl⟩, straight, reached⟩⟩
    · exact ⟨⟨[], rfl⟩, _, leads, .root _, rfl⟩
    · exact ⟨⟨segment :: above, rfl⟩, child, leads, straight, reached⟩

/-! ## The references that are collected -/

def taken (reached : Path × Json) : List (Path × String) :=
  match reached.2 with
  | .string reference => if reached.1.getLast? = some (.key "$ref") then [(reached.1, reference)] else []
  | node => collect reached.1 node

private theorem taken_string (path : Path) (segment : Segment) (text : String) :
    taken (path ++ [segment], .string text) = if segment = .key "$ref" then [(path ++ [segment], text)] else [] := by
  simp only [taken, List.getLast?_concat, Option.some.injEq]

private theorem taken_of_not_string (path : Path) (other : ∀ text, child ≠ .string text) :
    taken (path, child) = collect path child := by
  cases child with
  | string text => exact absurd rfl (other text)
  | null | bool | number | array | object => rfl

private theorem collectFields_eq (path : Path) (fields : List (String × Json)) :
    collectFields path fields = (fields.map fun field => (path.key field.1, field.2)).flatMap taken := by
  induction fields with
  | nil => rfl
  | cons field rest ih =>
    obtain ⟨key, value⟩ := field
    rw [List.map_cons, List.flatMap_cons, ← ih]
    cases value with
    | string text =>
      rw [Path.key, taken_string]
      simp only [collectFields, Path.key, Segment.key.injEq]
    | null | bool | number | array | object => rfl

private theorem collectItems_eq (path : Path) (first : Nat) (items : List Json) :
    collectItems path first items = (Query.numbered path first items).flatMap taken := by
  induction items generalizing first with
  | nil => rfl
  | cons item rest ih =>
    rw [collectItems, ih, Query.numbered, List.flatMap_cons]
    cases item with
    | string text =>
      rw [Path.index, taken_string]
      rfl
    | null | bool | number | array | object => rfl

private theorem collect_eq (path : Path) (node : Json) :
    collect path node = (Query.step .wildcard (path, node)).flatMap taken := by
  cases node with
  | object fields => rw [collect, collectFields_eq]; rfl
  | array items => rw [collect, collectItems_eq]; rfl
  | null | bool | number | string => rfl

private theorem mem_taken (collected : ∀ path below, (below, reference) ∈ collect path child ↔
      ∃ rest, below = path ++ rest ∧ Stands child rest reference) :
    (below, reference) ∈ taken (path ++ [segment], child) ↔ ∃ rest, below = path ++ segment :: rest ∧
      (rest = [] ∧ segment = .key "$ref" ∧ child = .string reference ∨ Stands child rest reference) := by
  by_cases isText : ∃ text, child = .string text
  · obtain ⟨text, rfl⟩ := isText
    -- nothing stands below a text
    have nothing : ∀ rest, ¬Stands (.string text) rest reference := by
      rintro rest ⟨⟨above, rfl⟩, straight, -⟩
      cases above <;> cases straight with | down _ _ _ _ leads => cases leads
    simp only [taken_string, nothing, or_false, Json.string.injEq]
    split
    next marked =>
      simp only [List.mem_singleton, Prod.mk.injEq]
      constructor
      · rintro ⟨rfl, rfl⟩
        exact ⟨[], rfl, rfl, marked, rfl⟩
      · rintro ⟨rest, rfl, rfl, -, rfl⟩
        exact ⟨rfl, rfl⟩
    next unmarked =>
      refine ⟨fun member => absurd member List.not_mem_nil, ?_⟩
      rintro ⟨rest, -, -, marked, -⟩
      exact absurd marked unmarked
  · have other : ∀ text, child ≠ .string text := fun text same => isText ⟨text, same⟩
    simp only [taken_of_not_string _ other, collected, other, and_false, false_or, List.append_assoc, List.singleton_append]

theorem mem_collect (ordered : node.Ordered) (path below : Path) :
    (below, reference) ∈ collect path node ↔ ∃ rest, below = path ++ rest ∧ Stands node rest reference := by
  induction ordered using Json.Ordered.descend generalizing path below with
  | step node ordered deeper =>
    rw [collect_eq, List.mem_flatMap]
    constructor
    · rintro ⟨⟨reached, child⟩, among, member⟩
      obtain ⟨segment, rfl, -, leads⟩ := (Query.mem_step ordered).mp among
      obtain ⟨rest, rfl, stands⟩ := (mem_taken (deeper segment child leads)).mp member
      exact ⟨segment :: rest, rfl, stands_cons.mpr ⟨child, leads, stands⟩⟩
    · rintro ⟨rest, rfl, stands⟩
      cases rest with
      | nil => exact absurd stands not_stands_root
      | cons segment rest =>
        obtain ⟨child, leads, further⟩ := stands_cons.mp stands
        exact ⟨_, (Query.mem_step ordered).mpr ⟨segment, rfl, trivial, leads⟩,
          (mem_taken (deeper segment child leads)).mpr ⟨rest, rfl, further⟩⟩

/-- References are collected in strictly ascending order of their paths. -/
theorem ascends_collect (ordered : node.Ordered) (path : Path) :
    (collect path node).Pairwise fun left right => left.1 < right.1 := by
  induction ordered using Json.Ordered.descend generalizing path with
  | step node ordered deeper =>
    rw [collect_eq]
    refine List.pairwise_flatMap.mpr ⟨?_, ?_⟩
    · rintro ⟨reached, child⟩ among
      obtain ⟨segment, rfl, -, leads⟩ := (Query.mem_step ordered).mp among
      simp only [taken]
      split
      · split
        · exact List.pairwise_singleton _ _
        · exact .nil
      · exact deeper segment child leads _
    · refine (Query.ascends_step ordered).imp_of_mem fun {left right} leftAmong rightAmong less => ?_
      rintro ⟨below, first⟩ member ⟨beside, second⟩ among
      obtain ⟨front, child⟩ := left
      obtain ⟨back, other⟩ := right
      obtain ⟨segment, rfl, -, leads⟩ := (Query.mem_step ordered).mp leftAmong
      obtain ⟨next, rfl, -, further⟩ := (Query.mem_step ordered).mp rightAmong
      obtain ⟨rest, rfl, -⟩ := (mem_taken (mem_collect (leads.ordered ordered))).mp member
      obtain ⟨more, rfl, -⟩ := (mem_taken (mem_collect (further.ordered ordered))).mp among
      have even : (path ++ [segment]).length = (path ++ [next]).length := by
        rw [List.length_append, List.length_append, List.length_singleton, List.length_singleton]
      have apart := Query.append_lt_append less even rest more
      rwa [List.append_assoc, List.append_assoc] at apart

/-! ## The target of a reference -/

/-- Whether a reference is written with a document part and a fragment, which starts behind the first number sign. -/
def Parts (reference file fragment : String) : Prop :=
  '#' ∉ file.toList ∧ (reference = file ++ "#" ++ fragment ∨ reference = file ∧ fragment = "")

/-- The document that the document part of a reference names: the one it stands in, or the parsed one that the part
joined to the input leads to. -/
inductive Names (texts : Texts) (input : Uri) (document : Json) : String → Json → Prop
  | own : Names texts input document "" document
  | other (file : String) (joined : Uri) (target : Json) (named : file ≠ "") (joins : input.join file = .ok joined)
      (parsed : documentAt? texts joined.normalize = some target) : Names texts input document file target

/-- Whether the node that a reference names exists. -/
def Reaches (texts : Texts) (input : Uri) (document : Json) (reference : String) : Prop :=
  ∃ file fragment pointer target, Parts reference file fragment ∧ Path.ofPointer? fragment = some pointer ∧
    Names texts input document file target ∧ (pointer.resolve target).isSome

private theorem split_eq_iff {file fragment : String} :
    split reference = (file, fragment) ↔ Parts reference file fragment := by
  constructor
  · intro same
    by_cases marked : '#' ∈ reference.toList
    · obtain ⟨front, back, whole, absent⟩ := List.eq_append_cons_of_mem marked
      rw [split, whole, Text.splitOnce_append absent] at same
      obtain ⟨rfl, rfl⟩ := Prod.mk.inj same
      refine ⟨by rwa [String.toList_ofList], .inl (String.toList_injective ?_)⟩
      rw [whole]
      simp
    · rw [split, Text.splitOnce_of_not_mem marked] at same
      obtain ⟨rfl, rfl⟩ := Prod.mk.inj same
      exact ⟨marked, .inr ⟨rfl, rfl⟩⟩
  · rintro ⟨absent, rfl | ⟨rfl, rfl⟩⟩
    · have whole : (file ++ "#" ++ fragment).toList = file.toList ++ '#' :: fragment.toList := by simp
      simp only [split, whole, Text.splitOnce_append absent, String.ofList_toList]
    · rw [split, Text.splitOnce_of_not_mem absent]

/-- The document that the document part of a reference names, looked up anew. -/
def named? (texts : Texts) (input : Uri) (document : Json) (file : String) : Option Json :=
  if file.isEmpty then some document else (input.join file).toOption.bind fun joined => documentAt? texts joined.normalize

private theorem named?_eq_some_iff {file : String} {target : Json} :
    named? texts input document file = some target ↔ Names texts input document file target := by
  constructor
  · intro found
    simp only [named?] at found
    split at found
    next unnamed =>
      cases String.isEmpty_iff.mp unnamed
      cases found
      exact .own
    next named =>
      obtain ⟨joined, joins, parsed⟩ := Option.bind_eq_some_iff.mp found
      exact .other file joined target (mt String.isEmpty_iff.mpr named) (toOption_eq_some.mp joins) parsed
  · rintro (_ | ⟨_, joined, _, named, joins, parsed⟩)
    · rfl
    · rw [named?, if_neg (mt String.isEmpty_iff.mp named), joins]
      exact parsed

/-- Whether the node that a reference names exists, looked up anew. -/
def reaches (texts : Texts) (input : Uri) (document : Json) (reference : String) : Bool :=
  ((Path.ofPointer? (split reference).2).bind fun pointer =>
    (named? texts input document (split reference).1).bind pointer.resolve).isSome

private theorem reaches_iff :
    reaches texts input document reference = true ↔ Reaches texts input document reference := by
  simp only [reaches, Reaches, ← split_eq_iff, ← named?_eq_some_iff, Option.isSome_iff_exists, Option.bind_eq_some_iff]
  constructor
  · rintro ⟨node, pointer, read, target, found, reached⟩
    exact ⟨_, _, pointer, target, rfl, read, found, node, reached⟩
  · rintro ⟨file, fragment, pointer, target, cut, read, found, node, reached⟩
    obtain ⟨rfl, rfl⟩ := Prod.mk.inj cut
    exact ⟨node, pointer, read, target, found, reached⟩

/-! ## The documents that a pass knows -/

/-- The documents that a pass may know when it comes to another one, with the state of its source: documents were read and
references in documents were checked in any order. -/
inductive Filled (source : Source σ) (holds : σ → Prop) : Externals → σ → Prop
  | start (s : σ) (start : holds s) : Filled source holds [] s
  | read (externals : Externals) (s : σ) (uri : Uri) (before : Filled source holds externals s) :
      Filled source holds externals (source.read uri s).2
  | check (externals : Externals) (s : σ) (input : Uri) (text : String) (document : Json)
      (before : Filled source holds externals s) : Filled source holds (check source input text document externals s).2.1
        (check source input text document externals s).2.2

/-- Whether every known document is what its text says. -/
def Sound (texts : Texts) (externals : Externals) : Prop :=
  ∀ target known, Entries.get? externals target = some known → known = documentAt? texts target

theorem sound_nil : Sound texts [] :=
  fun _ _ found => nomatch found

private theorem external_sound (repeats : source.Repeats texts holds) (sound : Sound texts externals) (start : holds s)
    (target : Uri) : ∃ later s', external source target externals s = (documentAt? texts target, later, s') ∧
      Sound texts later ∧ holds s' := by
  simp only [external]
  cases looked : Entries.get? externals target with
  | some known => exact ⟨externals, s, by rw [sound target known looked], sound, start⟩
  | none =>
    obtain ⟨s', next, read⟩ := repeats.read target start
    simp only [read]
    refine ⟨(target, documentAt? texts target) :: externals, s', ?_, ?_, next⟩
    · rfl
    · intro other known found
      simp only [Entries.get?] at found
      split at found
      next same =>
        cases found
        rw [← same]
      next => exact sound other known found

/-- A reference is found to lead somewhere or nowhere, whatever the pass knows. -/
theorem resolves_sound (repeats : source.Repeats texts holds) (sound : Sound texts externals) (start : holds s)
    (input : Uri) (document : Json) (reference : String) : ∃ later s',
      resolves source input document reference externals s = (reaches texts input document reference, later, s') ∧
        Sound texts later ∧ holds s' := by
  simp only [resolves, reaches, named?]
  cases Path.ofPointer? (split reference).2 with
  | none => exact ⟨externals, s, rfl, sound, start⟩
  | some pointer =>
    simp only [Option.bind_some]
    split
    · exact ⟨externals, s, rfl, sound, start⟩
    · cases input.join (split reference).1 with
      | error error => exact ⟨externals, s, rfl, sound, start⟩
      | ok joined =>
        obtain ⟨later, s', found, kept, next⟩ := external_sound repeats sound start joined.normalize
        exact ⟨later, s', by simp only [found]; rfl, kept, next⟩

private theorem checkAll_sound (repeats : source.Repeats texts holds) (sound : Sound texts externals) (start : holds s)
    (input : Uri) (text : String) (document : Json) (references : List (Path × String)) : ∃ later s',
      checkAll source input text document references externals s =
        ((references.filter fun found => !reaches texts input document found.2).map fun found =>
          dangling input text found.1 found.2, later, s') ∧ Sound texts later ∧ holds s' := by
  induction references generalizing externals s with
  | nil => exact ⟨externals, s, rfl, sound, start⟩
  | cons first rest ih =>
    obtain ⟨path, reference⟩ := first
    obtain ⟨middle, s', found, kept, next⟩ := resolves_sound repeats sound start input document reference
    obtain ⟨later, s'', checked, keeps, last⟩ := ih kept next
    refine ⟨later, s'', ?_, keeps, last⟩
    simp only [checkAll, found, checked]
    cases leads : reaches texts input document reference <;> simp [leads]

def unresolved (texts : Texts) (input : Uri) (document : Json) : List (Path × String) :=
  (collect Path.root document).filter fun found => !reaches texts input document found.2

theorem check_sound (repeats : source.Repeats texts holds) (sound : Sound texts externals) (start : holds s)
    (input : Uri) (text : String) (document : Json) : ∃ later s', check source input text document externals s =
      ((unresolved texts input document).map fun found => dangling input text found.1 found.2, later, s') ∧
        Sound texts later ∧ holds s' :=
  checkAll_sound repeats sound start input text document _

private theorem Filled.sound (repeats : source.Repeats texts holds) (filled : Filled source holds externals s) :
    Sound texts externals ∧ holds s := by
  induction filled with
  | start s start => exact ⟨sound_nil, start⟩
  | read externals s uri before ih => exact ⟨ih.1, repeats.keeps uri s ih.2⟩
  | check externals s input text document before ih =>
    obtain ⟨later, s', checked, sound, next⟩ := check_sound repeats ih.1 ih.2 input text document
    rw [checked]
    exact ⟨sound, next⟩

theorem mem_unresolved (ordered : document.Ordered) : (path, reference) ∈ unresolved texts input document ↔
    Stands document path reference ∧ ¬Reaches texts input document reference := by
  rw [unresolved, List.mem_filter, mem_collect ordered, Bool.not_eq_true', ← Bool.not_eq_true, reaches_iff]
  simp only [Path.root, List.nil_append, exists_eq_left']

private theorem ascends_unresolved (ordered : document.Ordered) :
    ((unresolved texts input document).map Prod.fst).Pairwise (· < ·) :=
  List.pairwise_map.mpr ((ascends_collect ordered Path.root).filter _)

/-- The check of references ends if the search for each one that leads nowhere does. -/
theorem settled?_reported {found : List (Path × String)} {text : String} : Message.settled? (found.map fun entry =>
    dangling input text entry.1 entry.2) = none ↔ ∃ entry ∈ found, Locate.place? text entry.1 = none := by
  simp only [Message.settled?_eq_none_iff, List.mem_map, exists_exists_and_eq_and, endless_dangling_iff]

/-- The references of a document that lead nowhere are reported, each by one error and in strictly ascending order of
their paths, and nothing else is; whatever documents the pass knows already, it reports the same. The check ends exactly
if the search for each of these references does, as it does where none of them stands below an empty key. -/
theorem check_exact (repeats : source.Repeats texts holds) (ordered : document.Ordered) (input : Uri) (text : String) :
    ∃ found : List (Path × String),
      (found.map Prod.fst).Pairwise (· < ·) ∧
      (∀ path reference, (path, reference) ∈ found ↔
        Stands document path reference ∧ ¬Reaches texts input document reference) ∧
      ∀ externals s, Filled source holds externals s →
        (Message.settled? (check source input text document externals s).1 = none ↔
          ∃ entry ∈ found, ∀ rounds, Locate.located? text entry.1 rounds = none) ∧
        ((∀ entry ∈ found, .key "" ∉ entry.1) →
          Message.settled? (check source input text document externals s).1 ≠ none) ∧
        ∀ messages, Message.settled? (check source input text document externals s).1 = some messages →
          messages = found.map fun entry =>
            .onFound .error ("Unresolved reference '" ++ entry.2 ++ "'") (Input.rangeOf input text entry.1) := by
  refine ⟨unresolved texts input document, ascends_unresolved ordered, fun path reference => mem_unresolved ordered, ?_⟩
  intro externals s filled
  obtain ⟨sound, start⟩ := filled.sound repeats
  obtain ⟨later, s', checked, -⟩ := check_sound repeats sound start input text document
  rw [checked]
  refine ⟨?_, fun named endless => ?_, fun messages settled => ?_⟩
  · simp only [settled?_reported, Locate.place?_eq_none_iff]
  · obtain ⟨entry, member, stays⟩ := settled?_reported.mp endless
    exact Locate.place?_ne_none text (named entry member) stays
  · have given := Message.settled?_of_ne_none (settled ▸ Option.some_ne_none messages)
    exact (Option.some.inj (given.symm.trans settled)).symm

/-- A reference within its document, a reference to another one, and a reference inside something that is no text under
`$ref`. -/
def referringDocument : Json :=
  .object [("a", .object [("$ref", .string "#/b")]),
    ("b", .array [.object [("$ref", .object [("$ref", .string "other.json#/c")])], .string "$ref"])]

def workFile (name : String) : Uri :=
  ⟨"file".toList, some ⟨[], [], none⟩, "/work/".toList ++ name.toList, none, none⟩

def referringText : String :=
  "\x7b\"a\": \x7b\"$ref\": \"#/b\"\x7d, \"b\": [\x7b\"$ref\": \x7b\"$ref\": \"other.json#/c\"\x7d\x7d, \"$ref\"]\x7d"

private theorem parse_referringText : Input.parse (workFile "a.json") referringText = .ok referringDocument := by
  rfl

def emptyObjects : Texts := fun _ => .ok (some "\x7b\x7d")

/-- What a pass over `emptyObjects` knows after the references of one document were checked. -/
def knownObjects : Externals :=
  (check (.ofFunction emptyObjects) (workFile "a.json") referringText referringDocument [] ()).2.1

theorem check_exact_sample :
    (Source.ofFunction emptyObjects).Repeats emptyObjects (fun _ => True) ∧
      Filled (.ofFunction emptyObjects) (fun _ => True) knownObjects () ∧ referringDocument.Ordered ∧
      ∃ found : List (Path × String),
        (found.map Prod.fst).Pairwise (· < ·) ∧
        (∀ path reference, (path, reference) ∈ found ↔ Stands referringDocument path reference ∧
          ¬Reaches emptyObjects (workFile "a.json") referringDocument reference) ∧
        Message.settled? (check (.ofFunction emptyObjects) (workFile "a.json") referringText referringDocument
            knownObjects ()).1 =
          some (found.map fun entry => .onFound .error ("Unresolved reference '" ++ entry.2 ++ "'")
            (Input.rangeOf (workFile "a.json") referringText entry.1)) := by
  have repeats := Source.repeats_ofFunction emptyObjects
  have filled : Filled (.ofFunction emptyObjects) (fun _ => True) knownObjects () :=
    .check [] () (workFile "a.json") referringText referringDocument (.start () trivial)
  have ordered := Input.ordered_parse parse_referringText
  have settled : (Message.settled? (check (.ofFunction emptyObjects) (workFile "a.json") referringText
      referringDocument knownObjects ()).1).isSome := by
    rfl
  obtain ⟨messages, given⟩ := Option.isSome_iff_exists.mp settled
  obtain ⟨found, ascending, leads, checked⟩ := check_exact repeats ordered (workFile "a.json") referringText
  obtain ⟨-, -, told⟩ := checked knownObjects () filled
  exact ⟨repeats, filled, ordered, found, ascending, leads, given.trans (congrArg some (told messages given))⟩

def hiddenText : String :=
  "\x7b\"\": \x7b\"$ref\": \"#/x\"\x7d\x7d"

def hiddenDocument : Json :=
  .object [("", .object [("$ref", .string "#/x")])]

private theorem parse_hiddenText : Input.parse (workFile "a.json") hiddenText = .ok hiddenDocument := by
  rfl

/-- The check does not end where the search for a reference goes round at an empty key. -/
theorem not_always_checked :
    ¬ ∀ (texts : Texts) (input : Uri) (text : String) (document : Json), Input.parse input text = .ok document →
      ∃ found : List (Path × String),
        (found.map Prod.fst).Pairwise (· < ·) ∧
        (∀ path reference, (path, reference) ∈ found ↔
          Stands document path reference ∧ ¬Reaches texts input document reference) ∧
        Message.settled? (check (.ofFunction texts) input text document [] ()).1 = some (found.map fun entry =>
          .onFound .error ("Unresolved reference '" ++ entry.2 ++ "'") (Input.rangeOf input text entry.1)) := by
  intro always
  obtain ⟨found, -, -, settled⟩ := always emptyObjects (workFile "a.json") hiddenText hiddenDocument parse_hiddenText
  have endless : Message.settled?
      (check (.ofFunction emptyObjects) (workFile "a.json") hiddenText hiddenDocument [] ()).1 = none := by
    decide
  rw [endless] at settled
  cases settled

end Reference

end SpecServer
