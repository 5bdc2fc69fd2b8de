import SpecServer.Proofs.Engine.Replay
set_option autoImplicit false

/-!
Which inputs a configuration declares. They are the documents that the items of its list mean, each once and in the order
in which items first mean them, so that an item that means nothing, or nothing new, does not matter.
-/

namespace SpecServer.View

/-- What the entry for the inputs lists: the items of an array, or else its value alone. -/
def items (view : View) : List Json :=
  match view.entries.get? inputEntry with
  | none => []
  | some (.array items) => items
  | some value => [value]

/-- What an item of the list means: the document, in normal form, that a text without the blanks around it leads to from
the folder. Nothing but a text means anything. -/
inductive Means (folder : Uri) : Json → Uri → Prop
  | text {name : String} {joined : Uri} (joins : folder.join (String.ofList (Text.trim name.toList)) = .ok joined) :
      Means folder (.string name) joined.normalize

/-- Whether a document is meant before another one: an item means it, and up to there none means the other one. -/
def MeansFirst (folder : Uri) (items : List Json) (first second : Uri) : Prop :=
  ∃ front item back, items = front ++ item :: back ∧ Means folder item first ∧
    ∀ earlier ∈ front ++ [item], ¬Means folder earlier second

/-- Whether documents are those that items mean, each once and in the order in which they are first meant. -/
structure Lists (folder : Uri) (items : List Json) (found : List Uri) : Prop where
  mem_iff : ∀ uri, uri ∈ found ↔ ∃ item ∈ items, Means folder item uri
  ordered : found.Pairwise (MeansFirst folder items)

/-- What an item means, if it means anything. -/
def meaning? (folder : Uri) : Json → Option Uri
  | .string name => (folder.join (String.ofList (Text.trim name.toList))).toOption.map Uri.normalize
  | _ => none

/-- Documents with the one that an item means, if it is new. -/
def extend (folder : Uri) (found : List Uri) (item : Json) : List Uri :=
  match meaning? folder item with
  | none => found
  | some uri => if found.contains uri then found else found ++ [uri]

-- the model's parser must not be unfolded to compare what texts lead to
attribute [local irreducible] Uri.normalize Uri.join

variable {view : View} {folder : Uri} {items : List Json} {item : Json} {found : List Uri} {first second uri : Uri}

/-! ## What items mean -/

private theorem meaning?_eq_some_iff : meaning? folder item = some uri ↔ Means folder item uri := by
  constructor
  · intro meant
    cases item with
    | string name =>
      obtain ⟨joined, joins, rfl⟩ := Option.map_eq_some_iff.mp meant
      exact .text (toOption_eq_some.mp joins)
    | null | bool | number | array | object => cases meant
  · rintro ⟨joins⟩
    rw [meaning?, joins]
    rfl

private theorem Means.unique (means : Means folder item first) (other : Means folder item second) : first = second :=
  Option.some.inj ((meaning?_eq_some_iff.mpr means).symm.trans (meaning?_eq_some_iff.mpr other))

private theorem not_meansFirst_self : ¬MeansFirst folder items uri uri := by
  rintro ⟨front, item, back, -, means, unmeant⟩
  exact unmeant item (List.mem_append_right front (List.mem_singleton_self item)) means

private theorem MeansFirst.append (before : MeansFirst folder items first second) (more : List Json) :
    MeansFirst folder (items ++ more) first second := by
  obtain ⟨front, item, back, rfl, means, unmeant⟩ := before
  exact ⟨front, item, back ++ more, by simp, means, unmeant⟩

private theorem meansFirst_of_unmeant (meant : ∃ item ∈ items, Means folder item first)
    (unmeant : ∀ item ∈ items, ¬Means folder item second) : MeansFirst folder items first second := by
  obtain ⟨item, member, means⟩ := meant
  obtain ⟨front, back, rfl⟩ := List.append_of_mem member
  refine ⟨front, item, back, rfl, means, fun earlier inside => unmeant earlier ?_⟩
  rw [List.append_cons]
  exact List.mem_append_left back inside

/-! ## One item more -/

private theorem extend_of_known (known : ∀ uri, Means folder item uri → uri ∈ found) :
    extend folder found item = found := by
  rw [extend]
  split
  · rfl
  next uri meant => exact if_pos (List.contains_iff_mem.mpr (known uri (meaning?_eq_some_iff.mp meant)))

private theorem extend_of_new (means : Means folder item uri) (new : uri ∉ found) :
    extend folder found item = found ++ [uri] := by
  simp only [extend, meaning?_eq_some_iff.mpr means]
  exact if_neg (mt List.contains_iff_mem.mp new)

private theorem Lists.extend (lists : Lists folder items found) (item : Json) :
    Lists folder (items ++ [item]) (extend folder found item) := by
  have ordered := lists.ordered.imp fun before => before.append [item]
  by_cases known : ∀ uri, Means folder item uri → uri ∈ found
  · rw [extend_of_known known]
    refine ⟨fun uri => ?_, ordered⟩
    simp only [List.mem_append, List.mem_singleton, or_and_right, exists_or, exists_eq_left, ← lists.mem_iff]
    exact (or_iff_left_of_imp (known uri)).symm
  · obtain ⟨uri, means, new⟩ : ∃ uri, Means folder item uri ∧ uri ∉ found := by simpa using known
    -- a document that is not there yet is meant by no item so far, so it comes behind all others
    have unmeant : ∀ earlier ∈ items, ¬Means folder earlier uri :=
      fun earlier member meant => new ((lists.mem_iff uri).mpr ⟨earlier, member, meant⟩)
    rw [extend_of_new means new]
    refine ⟨fun other => ?_, ?_⟩
    · simp only [List.mem_append, List.mem_singleton, or_and_right, exists_or, exists_eq_left, ← lists.mem_iff]
      refine or_congr_right ⟨?_, fun meant => meant.unique means⟩
      rintro rfl
      exact means
    · refine List.pairwise_append.mpr ⟨ordered, List.pairwise_singleton _ _, fun earlier member last same => ?_⟩
      cases List.mem_singleton.mp same
      exact (meansFirst_of_unmeant ((lists.mem_iff earlier).mp member) unmeant).append [item]

/-! ## All items -/

private theorem lists_nil (folder : Uri) : Lists folder [] [] :=
  ⟨by simp, .nil⟩

private theorem Lists.foldl (lists : Lists folder items found) (more : List Json) :
    Lists folder (items ++ more) (more.foldl (View.extend folder) found) := by
  induction more generalizing items found with
  | nil => simpa using lists
  | cons item rest ih =>
    rw [List.append_cons, List.foldl_cons]
    exact ih (lists.extend item)

private theorem declared_eq (view : View) : view.declared = view.items.filterMap Json.asString? := by
  simp only [declared, View.items]
  cases view.entries.get? inputEntry with
  | none => rfl
  | some value => cases value <;> rfl

private theorem inputs_eq (view : View) : view.inputs = view.items.foldl (extend view.folder) [] := by
  have meant : (fun item => item.asString?.bind view.resolve?) = meaning? view.folder := by
    funext item
    cases item <;> rfl
  rw [inputs, declared_eq, List.filterMap_filterMap, meant, List.foldl_filterMap]
  congr 1
  funext found item
  rw [extend]
  cases meaning? view.folder item <;> rfl

private theorem lists_inputs (view : View) : Lists view.folder view.items view.inputs :=
  inputs_eq view ▸ (lists_nil view.folder).foldl view.items

private theorem inputs_of_known {other : View} {front back : List Json} (same : other.folder = view.folder)
    (without : view.items = front ++ back) (within : other.items = front ++ item :: back)
    (known : ∀ uri, Means view.folder item uri → ∃ earlier ∈ front, Means view.folder earlier uri) :
    other.inputs = view.inputs := by
  have lists := (lists_nil view.folder).foldl front
  have idle : extend view.folder (front.foldl (extend view.folder) []) item = front.foldl (extend view.folder) [] :=
    extend_of_known fun uri means => (lists.mem_iff uri).mpr (known uri means)
  rw [inputs_eq, inputs_eq, without, within, same, List.foldl_append, List.foldl_append, List.foldl_cons, idle]

/-- The inputs are the documents that the items of the list mean, each of them once, and of two the one that is meant
first comes first. One more item changes nothing if it means nothing, as it does if it is no text, or what an item
before it means. -/
theorem inputs_in_order (view : View) :
    view.inputs.Nodup ∧
      (∀ uri, uri ∈ view.inputs ↔ ∃ item ∈ view.items, Means view.folder item uri) ∧
      view.inputs.Pairwise (MeansFirst view.folder view.items) ∧
      ∀ (other : View) (front : List Json) (item : Json) (back : List Json), other.folder = view.folder →
        view.items = front ++ back → other.items = front ++ item :: back →
          (∀ uri, Means view.folder item uri → ∃ earlier ∈ front, Means view.folder earlier uri) →
            other.inputs = view.inputs := by
  have lists := lists_inputs view
  refine ⟨lists.ordered.imp ?_, lists.mem_iff, lists.ordered, fun other front item back same without within known => ?_⟩
  · rintro first _ before rfl
    exact not_meansFirst_self before
  · exact inputs_of_known same without within known

/-! ## One document, spelled twice -/

def apiFolder : Uri := ⟨"file".toList, some ⟨[], [], none⟩, "/work/api/".toList, none, none⟩

def declaring (items : List Json) : View := ⟨apiFolder, [(inputEntry, .array items)]⟩

/-- Spellings of one document count once, and what is no text or leads nowhere does not count. -/
example :
    (declaring [.string "pets.json", .null, .string "./store/orders.yaml", .string "http://[", .string " ../api/pets.json ",
      .string "file:///C%3A/x.json", .string "file:///c:/x.json"]).inputs.map Uri.render =
        ["file:///work/api/pets.json", "file:///work/api/store/orders.yaml", "file:///c:/x.json"] := by
  decide +kernel

theorem inputs_in_order_sample :
    let front : List Json := [.string "pets.json", .bool true]
    let item : Json := .string " ../api/pets.json "
    let back : List Json := [.string "./store/orders.yaml"]
    (declaring (front ++ back)).items = front ++ back ∧ (declaring (front ++ item :: back)).items = front ++ item :: back ∧
      (∀ uri, Means apiFolder item uri → ∃ earlier ∈ front, Means apiFolder earlier uri) ∧
      (declaring (front ++ item :: back)).inputs = (declaring (front ++ back)).inputs := by
  intro front item back
  have pets : ∃ uri, Means apiFolder (.string "pets.json") uri ∧ Means apiFolder item uri := by
    simp only [← meaning?_eq_some_iff]
    refine ⟨⟨"file".toList, some ⟨[], [], none⟩, "/work/api/pets.json".toList, none, none⟩, ?_⟩
    decide +kernel
  have known : ∀ uri, Means apiFolder item uri → ∃ earlier ∈ front, Means apiFolder earlier uri := by
    intro uri means
    obtain ⟨other, first, second⟩ := pets
    rw [means.unique second]
    exact ⟨_, List.mem_cons_self, first⟩
  have without : (declaring (front ++ back)).items = front ++ back := rfl
  have within : (declaring (front ++ item :: back)).items = front ++ item :: back := rfl
  obtain ⟨-, -, -, adding⟩ := inputs_in_order (declaring (front ++ back))
  exact ⟨without, within, known, adding (declaring (front ++ item :: back)) front item back rfl without within known⟩

end SpecServer.View
