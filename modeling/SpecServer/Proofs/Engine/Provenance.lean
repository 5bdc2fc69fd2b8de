import SpecServer.Proofs.Engine.Composition
set_option autoImplicit false

/-!
The input that a node of the merged definition is credited to. It is the first one that has a node at the same path and
an object wherever the merged document has one on the way: an array that another input has there may have elements that
the path leads to as well, but it was not merged.
-/

namespace SpecServer.Definition

/-- Whether a document has an object at a path. -/
def objectAt (document : Json) (path : Path) : Bool :=
  (path.resolve document).any Json.isObject

/-- Whether a path leads to a node of a document through objects wherever it leads through objects in the merged one. -/
def resolvesAlike (merged document : Json) (path : Path) : Bool :=
  (path.resolve document).isSome &&
    (List.range path.length).all fun length =>
      !objectAt merged (path.take length) || objectAt document (path.take length)

/-- Whether the source of a node of the merged definition is an input, which has the same node or an object as well. -/
def Credits (merged : Definition) (path : Path) (node : Json) (input : Uri × Entries String Json) : Prop :=
  merged.sourceOf? path = some input.1 ∧ ∃ own, path.resolve (.object input.2) = some own ∧ own.Resembles node

variable {sources : Entries Path Uri} {path rest : Path} {parts : List (Uri × Json)} {fields : List (String × Json)}
  {node found value child : Json} {key : String} {input : Uri}

/-! ## Steps of a path -/

theorem resolve_field (inner : node.field? key = some child) :
    Path.resolve (.key key :: rest) node = Path.resolve rest child := by
  cases node with
  | object fields =>
    rw [Json.field?] at inner
    simp only [Path.resolve, Path.child?, inner]
  | _ => cases inner

theorem field_of_resolve {segment : Segment} (reached : Path.resolve (segment :: rest) (.object fields) = some found) :
    ∃ key child, segment = .key key ∧ (Json.object fields).field? key = some child ∧
      Path.resolve rest child = some found := by
  cases segment with
  | index => simp [Path.resolve, Path.child?] at reached
  | key key =>
    cases inner : (Json.object fields).field? key with
    | none =>
      rw [Json.field?] at inner
      simp [Path.resolve, Path.child?, inner] at reached
    | some child => exact ⟨key, child, rfl, inner, (resolve_field inner).symm.trans reached⟩

private theorem resolvesAlike_self (reached : path.resolve node = some found) :
    resolvesAlike node node path = true := by
  simp [resolvesAlike, reached]

/-- A path into a field of a merged object is followed by those objects that have the field as well. -/
theorem resolvesAlike_field (inner : (Json.object fields).field? key = some child) (document : Json) :
    resolvesAlike (.object fields) document (.key key :: rest) =
      (document.field? key).any fun node => resolvesAlike child node rest := by
  have top : objectAt (.object fields) [] = true := rfl
  have deeper : ∀ front, objectAt (.object fields) (.key key :: front) = objectAt child front := by
    intro front
    rw [objectAt, resolve_field inner, objectAt]
  cases document with
  | object own =>
    have whole : objectAt (.object own) [] = true := rfl
    cases has : (Json.object own).field? key with
    | none =>
      rw [Json.field?] at has
      simp [resolvesAlike, Path.resolve, Path.child?, has]
    | some node =>
      have same : ∀ front, objectAt (.object own) (.key key :: front) = objectAt node front := by
        intro front
        rw [objectAt, resolve_field has, objectAt]
      simp only [resolvesAlike, Option.any_some, resolve_field has, List.length_cons,
        List.range_succ_eq_map, List.all_cons, List.all_map, List.take_zero, List.take_succ_cons, Function.comp_def,
        Nat.succ_eq_add_one, deeper, same, top, whole, Bool.or_true, Bool.true_and]
  | _ => simp [resolvesAlike, objectAt, Path.resolve, Json.isObject, Json.field?, List.range_succ_eq_map]

/-! ## The first input -/

/-- The first of the composing nodes that follows a path into the composed one. -/
theorem Composed.first_follows (composed : Composed sources path parts node) (reached : rest.resolve node = some found)
    (below : path ++ rest ≠ Path.root) :
    ∃ part own, parts.find? (fun part => resolvesAlike node part.2 rest) = some part ∧
      nearest? sources (path ++ rest) = some part.1 ∧ rest.resolve part.2 = some own ∧ own.Resembles found := by
  induction composed generalizing rest with
  | whole path input node others leaf credited bare =>
    refine ⟨(input, node), found, ?_, ?_, reached, .refl found⟩
    · apply List.find?_cons_of_pos
      exact resolvesAlike_self reached
    · exact (nearest?_append bare rest).trans credited
  | object path parts fields lead inhabited absent present ih =>
    cases rest with
    | nil =>
      rw [List.append_nil] at below ⊢
      cases reached
      cases parts with
      | nil => exact absurd rfl (inhabited.resolve_left below)
      | cons first others =>
        obtain ⟨mapping, credited⟩ := lead first rfl
        refine ⟨first, first.2, ?_, credited.resolve_left below, rfl, mapping, nofun⟩
        apply List.find?_cons_of_pos
        simp [resolvesAlike, Path.resolve]
    | cons segment rest =>
      obtain ⟨key, child, rfl, inner, further⟩ := field_of_resolve reached
      rw [List.append_cons] at below ⊢
      obtain ⟨part, own, first, credited, resolved, shape⟩ := ih key child inner further below
      rw [children, List.find?_filterMap, Option.bind_eq_some_iff] at first
      obtain ⟨whole, earliest, taken⟩ := first
      obtain ⟨node, has, rfl⟩ := Option.map_eq_some_iff.mp taken
      refine ⟨whole, own, ?_, credited, ?_, shape⟩
      · rw [← earliest]
        congr 1
        funext part
        rw [resolvesAlike_field inner, Option.any_map]
      · exact (resolve_field has).trans resolved

/-- Each node of the merged definition but its root is credited to the first input that has it in the same way. -/
theorem credits_first_alike {documents : List (Uri × Entries String Json)}
    (ordered : ∀ input ∈ documents, (Json.object input.2).Ordered) (below : path ≠ Path.root)
    (reached : path.resolve (ofDocuments documents).document = some node) :
    ∃ input, documents.find? (fun input => resolvesAlike (ofDocuments documents).document (.object input.2) path) =
        some input ∧
      Credits (ofDocuments documents) path node input := by
  obtain ⟨part, own, first, credited, resolved, shape⟩ :=
    (composed_ofDocuments ordered).first_follows reached below
  rw [inputParts, List.find?_map, Option.map_eq_some_iff] at first
  obtain ⟨input, earliest, rfl⟩ := first
  exact ⟨input, earliest, credited, own, resolved, shape⟩

/-- Three inputs. The second one has an array where the first and the third have an object. -/
def clashingInputs : List (Uri × Entries String Json) :=
  [(⟨"file".toList, some ⟨[], [], none⟩, "/a".toList, none, none⟩, [("a", .object [("x", .bool true)])]),
    (⟨"file".toList, some ⟨[], [], none⟩, "/b".toList, none, none⟩, [("a", .array [.string "p"])]),
    (⟨"file".toList, some ⟨[], [], none⟩, "/c".toList, none, none⟩, [("a", .object [("0", .null)])])]

theorem ordered_clashingInputs : ∀ input ∈ clashingInputs, (Json.object input.2).Ordered := by
  have single : ∀ (key : String) (value : Json), value.Ordered → (Json.object [(key, value)]).Ordered := by
    intro key value ordered
    apply Json.Ordered.object
    · exact List.pairwise_singleton _ _
    · intro field member
      rw [List.mem_singleton.mp member]
      exact ordered
  simp only [clashingInputs, List.forall_mem_cons, List.not_mem_nil, false_implies, implies_true, and_true]
  refine ⟨single _ _ (single _ _ (.bool true)), single _ _ (.array _ ?_), single _ _ (single _ _ .null)⟩
  intro item member
  rw [List.mem_singleton.mp member]
  exact .string "p"

private theorem resolve_clashingInputs :
    Path.resolve [.key "a", .key "0"] (ofDocuments clashingInputs).document = some .null := by
  decide +kernel

theorem credits_first_alike_sample :
    ∃ input, clashingInputs.find? (fun input => resolvesAlike (ofDocuments clashingInputs).document (.object input.2)
        [.key "a", .key "0"]) = some input ∧
      Credits (ofDocuments clashingInputs) [.key "a", .key "0"] .null input :=
  credits_first_alike ordered_clashingInputs nofun resolve_clashingInputs

/-- An input is not credited with a node for an element of an array that was not merged. -/
theorem not_always_credits_first :
    ¬ ∀ (documents : List (Uri × Entries String Json)), (∀ input ∈ documents, (Json.object input.2).Ordered) →
      (documents.map Prod.fst).Nodup → ∀ (path : Path) (node : Json), path ≠ Path.root →
      path.resolve (ofDocuments documents).document = some node →
      ∃ input, documents.find? (fun input => (path.resolve (.object input.2)).isSome) = some input ∧
        Credits (ofDocuments documents) path node input := by
  intro always
  obtain ⟨input, first, credited, -⟩ := always clashingInputs ordered_clashingInputs (by decide)
    [.key "a", .key "0"] .null nofun resolve_clashingInputs
  have second : clashingInputs.find? (fun input => (Path.resolve [.key "a", .key "0"] (.object input.2)).isSome) =
      clashingInputs[1]? := by
    decide +kernel
  have third : (ofDocuments clashingInputs).sourceOf? [.key "a", .key "0"] = clashingInputs[2]?.map Prod.fst := by
    decide +kernel
  rw [second] at first
  cases first
  rw [third] at credited
  revert credited
  decide

end SpecServer.Definition
