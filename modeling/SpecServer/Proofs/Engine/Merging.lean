import SpecServer.Proofs.Engine.Provenance
import SpecServer.Proofs.Engine.Replay
set_option autoImplicit false

/-!
What a merged definition has of its inputs. It loses a node only where it has a value that is no object and that an
input has as well, it has nothing that no input has, and further inputs take nothing away.
-/

namespace SpecServer

/-- The node that keys lead to through objects. -/
def Json.nodeAt? : List String → Json → Option Json
  | [], node => some node
  | key :: rest, node => (node.field? key).bind (nodeAt? rest)

/-- What a session keeps of a pass is the merged definition of the mappings among its inputs. -/
theorem Session.ofMerge_merged (texts : Texts) (inputs : List Uri) :
    .ofMerge (merged texts inputs) = Definition.ofDocuments (inputs.filterMap (mapping? texts)) :=
  rfl

namespace Definition

/-- Whether keys lead through a value of a document that is no object and that one of some inputs has there as well. -/
def Blocked (merged : Json) (inputs : List (Uri × Json)) (keys : List String) : Prop :=
  ∃ front leaf, front <+: keys ∧ leaf.isObject = false ∧ Json.nodeAt? front merged = some leaf ∧
    ∃ input ∈ inputs, Json.nodeAt? front input.2 = some leaf

variable {sources later : Entries Path Uri} {path : Path} {parts inputs : List (Uri × Json)} {node child merged : Json}
  {key : String} {keys rest : List String}

theorem nodeAt?_field (inner : node.field? key = some child) :
    Json.nodeAt? (key :: rest) node = Json.nodeAt? rest child := by
  rw [Json.nodeAt?, inner, Option.bind_some]

private theorem field_of_nodeAt? (has : (Json.nodeAt? (key :: rest) node).isSome) :
    ∃ child, node.field? key = some child ∧ (Json.nodeAt? rest child).isSome := by
  obtain ⟨found, reached⟩ := Option.isSome_iff_exists.mp has
  obtain ⟨child, inner, further⟩ := Option.bind_eq_some_iff.mp reached
  exact ⟨child, inner, further ▸ rfl⟩

private theorem Blocked.above (blocked : Blocked child (children key inputs) rest)
    (inner : merged.field? key = some child) :
    Blocked merged inputs (key :: rest) := by
  obtain ⟨front, leaf, short, plain, stands, input, member, has⟩ := blocked
  obtain ⟨whole, among, taken⟩ := List.mem_filterMap.mp member
  obtain ⟨own, field, rfl⟩ := Option.map_eq_some_iff.mp taken
  refine ⟨key :: front, leaf, List.cons_prefix_cons.mpr ⟨rfl, short⟩, plain, ?_, whole, among, ?_⟩
  · exact (nodeAt?_field inner).trans stands
  · exact (nodeAt?_field field).trans has

/-! ## What is kept -/

/-- A node of one of the composing nodes is kept, or a value of this node or of an earlier one stands in its way. -/
theorem Composed.keeps (composed : Composed sources path parts node) {front back : List (Uri × Json)}
    {part : Uri × Json} (place : parts = front ++ part :: back) (has : (Json.nodeAt? keys part.2).isSome) :
    (Json.nodeAt? keys node).isSome ∨ Blocked node (front ++ [part]) keys := by
  induction composed generalizing keys front part back with
  | whole path input node others plain =>
    refine .inr ⟨[], node, List.nil_prefix, plain, rfl, (input, node), ?_, rfl⟩
    cases front with
    | nil =>
      cases place
      exact List.mem_singleton_self _
    | cons first front =>
      cases place
      exact List.mem_cons_self
  | object path parts fields _ _ absent _ ih =>
    cases keys with
    | nil => exact .inl rfl
    | cons key rest =>
      obtain ⟨own, field, further⟩ := field_of_nodeAt? has
      have split : children key parts = children key front ++ (part.1, own) :: children key back := by
        rw [place, List.append_cons, children_append, children_append, children_singleton, field, Option.map_some,
          Option.toList_some, ← List.append_cons]
      cases inner : Entries.get? fields key with
      | none =>
        rw [(absent key inner).1] at split
        simp at split
      | some child =>
        have found : (Json.object fields).field? key = some child := inner
        rw [nodeAt?_field found]
        refine (ih key child inner split further).imp_right fun blocked => Blocked.above ?_ found
        rw [children_append, children_singleton, field]
        exact blocked

/-! ## Nothing else -/

/-- Keys that lead to a node of the composed one lead to a node of one of the composing nodes. -/
theorem Composed.stems (composed : Composed sources path parts node) (stands : (Json.nodeAt? keys node).isSome)
    (held : keys ≠ [] ∨ parts ≠ []) : ∃ part ∈ parts, (Json.nodeAt? keys part.2).isSome := by
  induction composed generalizing keys with
  | whole path input node => exact ⟨(input, node), List.mem_cons_self, stands⟩
  | object path parts fields _ _ _ present ih =>
    cases keys with
    | nil =>
      obtain ⟨part, member⟩ := List.exists_mem_of_ne_nil parts (held.resolve_left (· rfl))
      exact ⟨part, member, rfl⟩
    | cons key rest =>
      obtain ⟨child, inner, further⟩ := field_of_nodeAt? stands
      have composing := (present key child inner).inhabited (key_ne_root path key)
      obtain ⟨part, member, has⟩ := ih key child inner further (.inr composing)
      obtain ⟨whole, among, taken⟩ := List.mem_filterMap.mp member
      obtain ⟨own, field, rfl⟩ := Option.map_eq_some_iff.mp taken
      exact ⟨whole, among, (nodeAt?_field field).symm ▸ has⟩

/-! ## Further inputs -/

/-- A node that is composed of more is the same or both are objects, and so it is with all nodes below. -/
theorem Composed.extends (composed : Composed sources path parts node) {more : List (Uri × Json)} {grown found : Json}
    {route : Path} (extended : Composed later path (parts ++ more) grown)
    (object : path = Path.root → grown.isObject = true) (reached : route.resolve node = some found) :
    ∃ next, route.resolve grown = some next ∧ next.Resembles found := by
  induction composed generalizing more grown route with
  | whole path input node others plain =>
    cases extended with
    | whole => exact ⟨found, reached, .refl found⟩
    | object _ _ _ lead =>
      have mapping := (lead (input, node) rfl).1
      rw [plain] at mapping
      cases mapping
  | object path parts fields lead inhabited _ present ih =>
    generalize all : parts ++ more = grownParts at extended
    cases extended with
    | whole _ input _ others plain =>
      -- only the root is composed of nothing
      have mapping : grown.isObject = true := by
        by_cases top : path = Path.root
        · exact object top
        · obtain ⟨first, rest, rfl⟩ := List.exists_cons_of_ne_nil (inhabited.resolve_left top)
          cases all
          exact (lead _ rfl).1
      rw [plain] at mapping
      cases mapping
    | object _ _ fields' _ _ absent' present' =>
      subst all
      cases route with
      | nil =>
        cases reached
        exact ⟨.object fields', rfl, rfl, nofun⟩
      | cons segment rest =>
        obtain ⟨key, child, rfl, inner, further⟩ := field_of_resolve reached
        have nested := key_ne_root path key
        have held : children key parts ≠ [] := (present key child inner).inhabited nested
        cases inner' : Entries.get? fields' key with
        | none =>
          have empty := (absent' key inner').1
          rw [children_append] at empty
          exact absurd (List.append_eq_nil_iff.mp empty).1 held
        | some next =>
          have extended' := present' key next inner'
          rw [children_append] at extended'
          obtain ⟨last, reached', resembles⟩ := ih key child inner extended' (absurd · nested) further
          have found' : (Json.object fields').field? key = some next := inner'
          exact ⟨last, (resolve_field found').trans reached', resembles⟩

/-! ## The merged definition -/

/-- Every node of an input is in the merged definition, unless one of the values that are no objects there stands in its
way, which this input or an earlier one has; every other node of the merged definition is one of an input; and all that
was merged stays when further inputs are merged. -/
theorem merges_all_but_conflicts {documents more : List (Uri × Entries String Json)}
    (ordered : ∀ input ∈ documents ++ more, (Json.object input.2).Ordered) :
    (∀ earlier input later keys, documents = earlier ++ input :: later →
        (Json.nodeAt? keys (.object input.2)).isSome →
        (Json.nodeAt? keys (ofDocuments documents).document).isSome ∨
          Blocked (ofDocuments documents).document (inputParts (earlier ++ [input])) keys) ∧
      (∀ keys, keys ≠ [] ∨ documents ≠ [] → (Json.nodeAt? keys (ofDocuments documents).document).isSome →
        ∃ input ∈ documents, (Json.nodeAt? keys (.object input.2)).isSome) ∧
      ∀ path node, Path.resolve path (ofDocuments documents).document = some node →
        ∃ next, Path.resolve path (ofDocuments (documents ++ more)).document = some next ∧ next.Resembles node := by
  obtain ⟨first, -⟩ := List.forall_mem_append.mp ordered
  have composed := composed_ofDocuments first
  refine ⟨?_, ?_, ?_⟩
  · intro earlier input later keys place has
    have split : inputParts documents = inputParts earlier ++ (input.1, .object input.2) :: inputParts later := by
      rw [place, inputParts, List.map_append, List.map_cons]
      rfl
    rw [inputParts, List.map_append]
    exact composed.keeps split has
  · intro keys held stands
    have inhabited : keys ≠ [] ∨ inputParts documents ≠ [] := held.imp_right (mt List.map_eq_nil_iff.mp)
    obtain ⟨part, member, has⟩ := composed.stems stands inhabited
    obtain ⟨input, among, rfl⟩ := List.mem_map.mp member
    exact ⟨input, among, has⟩
  · intro path node reached
    have extended := composed_ofDocuments ordered
    rw [inputParts, List.map_append] at extended
    exact composed.extends extended (fun _ => rfl) reached

theorem merges_all_but_conflicts_sample :
    (∀ input ∈ clashingInputs ++ clashingInputs, (Json.object input.2).Ordered) ∧
    (∀ earlier input later keys, clashingInputs = earlier ++ input :: later →
        (Json.nodeAt? keys (.object input.2)).isSome →
        (Json.nodeAt? keys (ofDocuments clashingInputs).document).isSome ∨
          Blocked (ofDocuments clashingInputs).document (inputParts (earlier ++ [input])) keys) ∧
      (∀ keys, keys ≠ [] ∨ clashingInputs ≠ [] → (Json.nodeAt? keys (ofDocuments clashingInputs).document).isSome →
        ∃ input ∈ clashingInputs, (Json.nodeAt? keys (.object input.2)).isSome) ∧
      ∀ path node, Path.resolve path (ofDocuments clashingInputs).document = some node →
        ∃ next, Path.resolve path (ofDocuments (clashingInputs ++ clashingInputs)).document = some next ∧
          next.Resembles node := by
  have ordered : ∀ input ∈ clashingInputs ++ clashingInputs, (Json.object input.2).Ordered :=
    List.forall_mem_append.mpr ⟨ordered_clashingInputs, ordered_clashingInputs⟩
  exact ⟨ordered, merges_all_but_conflicts ordered⟩

end Definition

end SpecServer
