import Mathlib.Data.List.Forall2
import SpecServer.Proofs.Engine.Replay
import SpecServer.Proofs.Uri.Parent
set_option autoImplicit false

/-!
Which configuration governs a folder. The way up from a folder comes to an end, and the search for a configuration takes
the first candidate along it that decides: one with the mark of configurations, or one that cannot be read.
-/

namespace SpecServer.Discovery

variable {σ : Type} {source : Source σ} {texts : Texts} {holds : σ → Prop} {s : σ} {folder current uri : Uri}

-- the parser of URIs must not be unfolded to compare what is found
attribute [local irreducible] Uri.normalize Uri.join

/-! ## The way up -/

/-- The way up from a folder: two dots lead from each folder to the next one, and from the last one to itself. -/
inductive Climb : Uri → List Uri → Prop
  | top (folder : Uri) (fixed : folder.join ".." = .ok folder) : Climb folder [folder]
  | up (folder parent : Uri) (rest : List Uri) (above : folder.join ".." = .ok parent) (apart : parent ≠ folder)
      (further : Climb parent rest) : Climb folder (folder :: rest)

private theorem Climb.clear {places : List Uri} (climb : Climb folder places) (clear : folder.isOpaque = false) :
    ∀ place ∈ places, place.isOpaque = false := by
  induction climb with
  | top folder fixed => exact List.forall_mem_singleton.mpr clear
  | up folder parent rest above apart further ih =>
    rw [Uri.join_dots clear, Except.ok.injEq] at above
    subst above
    exact List.forall_mem_cons.mpr ⟨clear, ih (Uri.parent_isOpaque clear)⟩

private theorem climb_folders {fuel : Nat} (clear : folder.isOpaque = false) (enough : folder.rank < fuel) :
    Climb folder (folders fuel folder) := by
  induction fuel generalizing folder with
  | zero => exact absurd enough (Nat.not_lt_zero _)
  | succ fuel ih =>
    have above := Uri.join_dots clear
    simp only [folders, above]
    by_cases top : folder.parent = folder
    · rw [if_pos top]
      exact .top folder (above.trans (congrArg _ top))
    · rw [if_neg top]
      -- one folder up, one step fewer is left and the rest is lighter
      refine .up folder folder.parent _ above top (ih (Uri.parent_isOpaque clear) ?_)
      have lighter := folder.rank_parent.resolve_left top
      omega

private theorem rank_lt_height (folder : Uri) : folder.rank < height folder := by
  have marks : (if folder.query = none ∧ folder.fragment = none then 0 else 1) ≤
      (Uri.marked '?' folder.query).length + (Uri.marked '#' folder.fragment).length := by
    cases folder.query <;> cases folder.fragment <;> simp [Uri.marked]
    omega
  simp only [Uri.rank, Uri.weight, height, Uri.text, Uri.beforeQuery, List.length_append, List.length_cons]
  split <;> split <;> omega

/-! ## The first candidate that decides -/

/-- The first of some documents that is a configuration, unless one before it cannot be read. -/
def firstOf (texts : Texts) : List Uri → Except EngineError (Option Uri)
  | [] => .ok none
  | uri :: rest =>
    match texts uri with
    | .error failure => .error (.unreadable failure)
    | .ok content => if content.any Literate.isConfiguration then .ok (some uri) else firstOf texts rest

/-- Whether a document carries the mark of configurations. -/
def Marked (texts : Texts) (uri : Uri) : Prop :=
  ∃ text, texts uri = .ok (some text) ∧ Literate.isConfiguration text = true

/-- Whether a document does not decide: there is none, or it can be read and does not carry the mark. -/
def Passed (texts : Texts) (uri : Uri) : Prop :=
  texts uri = .ok none ∨ ∃ text, texts uri = .ok (some text) ∧ Literate.isConfiguration text = false

private theorem passed_or_decides (texts : Texts) (uri : Uri) : Passed texts uri ∨ Marked texts uri ∨
    ∃ failure, texts uri = .error failure := by
  cases content : texts uri with
  | error failure => exact .inr (.inr ⟨failure, rfl⟩)
  | ok held =>
    cases held with
    | none => exact .inl (.inl content)
    | some text =>
      cases marked : Literate.isConfiguration text with
      | false => exact .inl (.inr ⟨text, content, marked⟩)
      | true => exact .inr (.inl ⟨text, content, marked⟩)

private theorem firstOf_of_passed (passed : Passed texts uri) (rest : List Uri) :
    firstOf texts (uri :: rest) = firstOf texts rest := by
  rcases passed with absent | ⟨text, held, unmarked⟩
  · simp only [firstOf, absent, Option.any_none, Bool.false_eq_true, ↓reduceIte]
  · simp only [firstOf, held, Option.any_some, unmarked, Bool.false_eq_true, ↓reduceIte]

private theorem firstOf_of_marked (marked : Marked texts uri) (rest : List Uri) :
    firstOf texts (uri :: rest) = .ok (some uri) := by
  obtain ⟨text, held, mark⟩ := marked
  simp only [firstOf, held, Option.any_some, mark, ↓reduceIte]

private theorem firstOf_of_failed {failure : ReadFailure} (failed : texts uri = .error failure) (rest : List Uri) :
    firstOf texts (uri :: rest) = .error (.unreadable failure) := by
  simp only [firstOf, failed]

private theorem firstOf_append (texts : Texts) (front back : List Uri) : firstOf texts (front ++ back) =
    match firstOf texts front with
    | .ok none => firstOf texts back
    | decided => decided := by
  induction front with
  | nil => rfl
  | cons uri rest ih =>
    rw [List.cons_append]
    rcases passed_or_decides texts uri with passed | marked | ⟨failure, failed⟩
    · rw [firstOf_of_passed passed, firstOf_of_passed passed, ih]
    · rw [firstOf_of_marked marked, firstOf_of_marked marked]
    · rw [firstOf_of_failed failed, firstOf_of_failed failed]

private theorem firstOf_passed {front : List Uri} (passed : ∀ uri ∈ front, Passed texts uri) (rest : List Uri) :
    firstOf texts (front ++ rest) = firstOf texts rest := by
  induction front with
  | nil => rfl
  | cons uri front ih =>
    obtain ⟨first, later⟩ := List.forall_mem_cons.mp passed
    rw [List.cons_append, firstOf_of_passed first, ih later]

private theorem passed_or_first (texts : Texts) (uris : List Uri) : (∀ uri ∈ uris, Passed texts uri) ∨
    ∃ front uri back, uris = front ++ uri :: back ∧ (∀ uri ∈ front, Passed texts uri) ∧
      (Marked texts uri ∨ ∃ failure, texts uri = .error failure) := by
  induction uris with
  | nil => exact .inl fun _ member => absurd member List.not_mem_nil
  | cons uri rest ih =>
    rcases passed_or_decides texts uri with passed | decides
    · rcases ih with all | ⟨front, first, back, rfl, before, decides⟩
      · exact .inl (List.forall_mem_cons.mpr ⟨passed, all⟩)
      · exact .inr ⟨uri :: front, first, back, rfl, List.forall_mem_cons.mpr ⟨passed, before⟩, decides⟩
    · exact .inr ⟨[], uri, rest, rfl, fun _ member => absurd member List.not_mem_nil, decides⟩

/-- How the search among candidates ends: with the first one that decides, or with nothing if none does. -/
structure Settles (texts : Texts) (uris : List Uri) (result : Except EngineError (Option Uri)) : Prop where
  found : ∀ configuration, result = .ok (some configuration) ↔ ∃ front back, uris = front ++ configuration :: back ∧
    (∀ uri ∈ front, Passed texts uri) ∧ Marked texts configuration
  failed : ∀ error, result = .error error ↔ ∃ front uri back failure, uris = front ++ uri :: back ∧
    (∀ uri ∈ front, Passed texts uri) ∧ texts uri = .error failure ∧ error = .unreadable failure
  nothing : result = .ok none ↔ ∀ uri ∈ uris, Passed texts uri

private theorem settles_firstOf (texts : Texts) (uris : List Uri) : Settles texts uris (firstOf texts uris) := by
  have none_of_passed : (∀ uri ∈ uris, Passed texts uri) → firstOf texts uris = .ok none := by
    intro passed
    rw [← List.append_nil uris, firstOf_passed passed, firstOf]
  have some_of_marked : ∀ configuration, (∃ front back, uris = front ++ configuration :: back ∧
      (∀ uri ∈ front, Passed texts uri) ∧ Marked texts configuration) → firstOf texts uris = .ok (some configuration) := by
    rintro configuration ⟨front, back, rfl, before, marked⟩
    rw [firstOf_passed before, firstOf_of_marked marked]
  have error_of_failed : ∀ error, (∃ front uri back failure, uris = front ++ uri :: back ∧
      (∀ uri ∈ front, Passed texts uri) ∧ texts uri = .error failure ∧ error = .unreadable failure) →
      firstOf texts uris = .error error := by
    rintro error ⟨front, uri, back, failure, rfl, before, failed, rfl⟩
    rw [firstOf_passed before, firstOf_of_failed failed]
  -- one of the three ends is there, and the other two would give another result
  rcases passed_or_first texts uris with passed | ⟨front, first, back, cut, before, marked | ⟨failure, failed⟩⟩
  · have result := none_of_passed passed
    refine ⟨fun configuration => ⟨?_, some_of_marked configuration⟩, fun error => ⟨?_, error_of_failed error⟩,
      fun _ => passed, none_of_passed⟩ <;> rw [result] <;> exact nofun
  · have result := some_of_marked first ⟨front, back, cut, before, marked⟩
    refine ⟨fun configuration => ⟨?_, some_of_marked configuration⟩, fun error => ⟨?_, error_of_failed error⟩,
      ?_, none_of_passed⟩ <;> rw [result]
    · rintro ⟨⟩
      exact ⟨front, back, cut, before, marked⟩
    · exact nofun
    · exact nofun
  · have result := error_of_failed _ ⟨front, first, back, failure, cut, before, failed, rfl⟩
    refine ⟨fun configuration => ⟨?_, some_of_marked configuration⟩, fun error => ⟨?_, error_of_failed error⟩,
      ?_, none_of_passed⟩ <;> rw [result]
    · exact nofun
    · rintro ⟨⟩
      exact ⟨front, first, back, failure, cut, before, failed, rfl⟩
    · exact nofun

/-! ## The candidates -/

def place (current : Uri) (name : String) : Uri :=
  (current.beside (Uri.stripped name)).normalize

private theorem isName_of_mem_names : ∀ name ∈ names, Uri.isName name = true := by decide +kernel

private theorem join_name {name : String} (clear : current.isOpaque = false) (named : name ∈ names) :
    (current.join name).map Uri.normalize = .ok (place current name) := by
  rw [Uri.join_of_isName clear (isName_of_mem_names name named), Except.map, place]

private theorem candidates_eq (clear : folder.isOpaque = false) :
    candidates folder = (folders (height folder) folder).flatMap fun current => names.map (place current) := by
  rw [candidates, if_neg (ne_true_of_eq_false clear)]
  refine List.flatMap_congr fun current member => ?_
  have current_clear := (climb_folders clear (rank_lt_height folder)).clear clear current member
  rw [← List.filterMap_eq_map]
  refine List.filterMap_congr fun name named => ?_
  have joins := join_name current_clear named
  cases joined : current.join name with
  | error error => rw [joined] at joins; cases joins
  | ok found => rw [joined] at joins; exact congrArg Except.toOption joins

/-! ## The search -/

private theorem inFolder_replay (repeats : source.Repeats texts holds) (folder : Uri) (clear : current.isOpaque = false)
    {asked : List String} (among : ∀ name ∈ asked, name ∈ names) (start : holds s) : ∃ s', holds s' ∧
      inFolder source folder current asked s = (firstOf texts (asked.map (place current)), s') := by
  induction asked generalizing s with
  | nil => exact ⟨s, start, rfl⟩
  | cons name rest ih =>
    obtain ⟨named, later⟩ := List.forall_mem_cons.mp among
    have joins := Uri.join_of_isName clear (isName_of_mem_names name named)
    obtain ⟨s', next, read⟩ := repeats.read (place current name) start
    rw [place] at read
    simp only [inFolder, joins, read, List.map_cons, firstOf, place]
    cases texts (current.beside (Uri.stripped name)).normalize with
    | error failure => exact ⟨s', next, rfl⟩
    | ok content =>
      simp only
      split
      · exact ⟨s', next, rfl⟩
      · exact ih later next

/-- The search from a folder upwards is that for the first candidate that decides. -/
theorem upward_replay (repeats : source.Repeats texts holds) (folder : Uri) (fuel : Nat)
    (clear : current.isOpaque = false) (start : holds s) : ∃ s', holds s' ∧ upward source folder fuel current s =
      (firstOf texts ((folders fuel current).flatMap fun current => names.map (place current)), s') := by
  induction fuel generalizing current s with
  | zero => exact ⟨s, start, rfl⟩
  | succ fuel ih =>
    obtain ⟨s', next, looked⟩ := inFolder_replay repeats folder clear (fun _ named => named) start
    -- where this folder decides nothing, the search goes on from the state that its candidates left behind
    obtain ⟨s'', last, further⟩ := ih (Uri.parent_isOpaque clear) next
    simp only [upward, folders, looked, Uri.join_dots clear]
    by_cases top : current.parent = current
    · refine ⟨s', next, ?_⟩
      simp only [if_pos top, List.flatMap_singleton]
      cases firstOf texts (names.map (place current)) with
      | error error => rfl
      | ok found => cases found <;> rfl
    · simp only [if_neg top, List.flatMap_cons, firstOf_append]
      cases firstOf texts (names.map (place current)) with
      | error error => exact ⟨s', next, rfl⟩
      | ok found =>
        cases found with
        | none => exact ⟨s'', last, further⟩
        | some found => exact ⟨s', next, rfl⟩

/-- The nearest configuration governs. The way up from a folder comes to an end. Its folders give one candidate for each
name, the nearest folder first, and the search ends with the first of these candidates that decides. -/
theorem find_nearest (repeats : source.Repeats texts holds) (start : holds s) (clear : folder.isOpaque = false) :
    ∃ places, Climb folder places ∧
      List.Forall₂ (fun pair candidate => (pair.1.join pair.2).map Uri.normalize = .ok candidate)
        (places.product names) (candidates folder) ∧
      Settles texts (candidates folder) (find source folder s).1 := by
  have climb := climb_folders clear (rank_lt_height folder)
  refine ⟨folders (height folder) folder, climb, ?_, ?_⟩
  · have mapped : candidates folder =
        ((folders (height folder) folder).product names).map fun pair => place pair.1 pair.2 := by
      rw [candidates_eq clear, List.product, List.map_flatMap]
      simp only [List.map_map, Function.comp_def]
    rw [mapped, List.forall₂_map_right_iff, List.forall₂_same]
    rintro ⟨current, name⟩ member
    obtain ⟨above, named⟩ := List.pair_mem_product.mp member
    exact join_name (climb.clear clear current above) named
  · obtain ⟨s', -, found⟩ := upward_replay repeats folder (height folder) clear start
    rw [find, if_neg (ne_true_of_eq_false clear), found, ← candidates_eq clear]
    exact settles_firstOf texts _

def documentAt (path : String) : Uri :=
  ⟨"file".toList, some ⟨[], [], none⟩, path.toList, none, none⟩

/-- Texts with a configuration above a document without the mark and below one that cannot be read. -/
def nestedTexts : Texts := fun uri =>
  if uri = documentAt "/work/api/README.md" then .ok (some "pets")
  else if uri = documentAt "/work/readme.md" then .ok (some Literate.marker)
  else if uri = documentAt "/readme.md" then .error ⟨uri, "locked"⟩
  else .ok none

theorem find_nearest_sample : (Source.ofFunction nestedTexts).Repeats nestedTexts (fun _ => True) ∧
    (documentAt "/work/api/").isOpaque = false ∧
    (∃ places, Climb (documentAt "/work/api/") places ∧
      List.Forall₂ (fun pair candidate => (pair.1.join pair.2).map Uri.normalize = .ok candidate)
        (places.product names) (candidates (documentAt "/work/api/")) ∧
      Settles nestedTexts (candidates (documentAt "/work/api/"))
        (find (.ofFunction nestedTexts) (documentAt "/work/api/") ()).1) ∧
    (find (.ofFunction nestedTexts) (documentAt "/work/api/") ()).1 = .ok (some (documentAt "/work/readme.md")) := by
  have clear : (documentAt "/work/api/").isOpaque = false := by decide
  refine ⟨Source.repeats_ofFunction nestedTexts, clear, ?_, by decide +kernel⟩
  exact find_nearest (Source.repeats_ofFunction nestedTexts) (s := ()) trivial clear

end SpecServer.Discovery
