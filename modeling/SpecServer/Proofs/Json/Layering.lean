import SpecServer.Json.Merge
import SpecServer.Proofs.Engine.Merging
set_option autoImplicit false

/-!
Layers on documents, node by node. Where keys lead through objects of both, the node under the layer is made from the two
nodes there alone. An array stays an array under all layers and grows by what each of them has at its place.
-/

namespace SpecServer.Json

variable {base layer node : Json} {fields added : List (String × Json)} {key : String} {keys front : List String}

/-- What a node becomes under a layer, where both, one or none of them are there. -/
def layered : Option Json → Option Json → Option Json
  | some base, some layer => some (base.overlay layer)
  | some base, none => some base
  | none, some layer => some layer
  | none, none => none

/-- The elements that a layer has for an array at its place. -/
def elements : Option Json → List Json
  | none => []
  | some (array added) => added
  | some other => [other]

/-- Whether keys lead to an object. -/
def MapsAt (document : Json) (keys : List String) : Prop :=
  ∃ fields, nodeAt? keys document = some (object fields)

/-- Whether keys lead to an object or to nothing. -/
def ClearAt (document : Json) (keys : List String) : Prop :=
  document.MapsAt keys ∨ nodeAt? keys document = none

/-! ## Fields -/

private theorem layered_none (base : Option Json) : layered base none = base := by
  cases base <;> rfl

private theorem none_layered (layer : Option Json) : layered none layer = layer := by
  cases layer <;> rfl

private theorem get?_overlayField (base : Entries String Json) (field : String × Json) (key : String) :
    (overlayField base field).get? key =
      if field.1 = key then layered (base.get? key) (some field.2) else base.get? key := by
  obtain ⟨name, value⟩ := field
  rw [overlayField]
  split
  next existing found =>
    rw [Entries.get?_put]
    split
    next same => rw [← same, found, layered]
    next => rfl
  next absent =>
    rw [Entries.get?_put]
    split
    next same => rw [← same, absent, layered]
    next => rfl

private theorem get?_overlayFields (unique : (added.map Prod.fst).Nodup) (base : Entries String Json) (key : String) :
    (overlayFields base added).get? key = layered (base.get? key) (Entries.get? added key) := by
  induction added generalizing base with
  | nil =>
    rw [overlayFields, Entries.get?, layered_none]
  | cons field rest ih =>
    obtain ⟨absent, further⟩ := List.nodup_cons.mp unique
    rw [overlayFields, ih further, get?_overlayField, Entries.get?]
    split
    next same =>
      have single : Entries.get? rest key = none := Entries.get?_eq_none_iff.mpr (same ▸ absent)
      rw [single, layered_none]
    next => rfl

private theorem overlay_array (items : List Json) (layer : Json) :
    overlay (array items) layer = array (items ++ elements (some layer)) := by
  cases layer <;> rw [overlay] <;> first | rfl | nofun

/-! ## Nodes -/

private theorem nodeAt?_append (front rest : List String) (node : Json) :
    nodeAt? (front ++ rest) node = (nodeAt? front node).bind (nodeAt? rest) := by
  induction front generalizing node with
  | nil => rfl
  | cons key front ih =>
    rw [List.cons_append, nodeAt?, nodeAt?, Option.bind_assoc]
    congr
    funext child
    exact ih child

private theorem mapsAt_of_nodeAt? (stands : nodeAt? keys base = some node) (short : front <+: keys)
    (proper : front ≠ keys) :
    base.MapsAt front := by
  obtain ⟨rest, rfl⟩ := short
  rw [nodeAt?_append] at stands
  obtain ⟨above, found, further⟩ := Option.bind_eq_some_iff.mp stands
  cases rest with
  | nil => exact absurd (List.append_nil front).symm proper
  | cons key rest =>
    rw [nodeAt?] at further
    cases above with
    | object fields => exact ⟨fields, found⟩
    | null | bool | number | string | array => cases further

private theorem object_of_clearAt (clear : node.ClearAt []) : ∃ fields, node = object fields := by
  obtain ⟨fields, stands⟩ | absent := clear
  · exact ⟨fields, Option.some.inj stands⟩
  · cases absent

private theorem clearAt_cons {child : Json} (inner : node.field? key = some child) :
    node.ClearAt (key :: front) ↔ child.ClearAt front := by
  rw [ClearAt, ClearAt, MapsAt, MapsAt, Definition.nodeAt?_field inner]

/-- Where nothing but objects of the two stands in the way of the keys, the node is made from the two nodes. -/
theorem nodeAt?_overlay (ordered : layer.Ordered)
    (clear : ∀ front, front <+: keys → front ≠ keys → base.ClearAt front ∧ layer.ClearAt front) :
    nodeAt? keys (base.overlay layer) = layered (nodeAt? keys base) (nodeAt? keys layer) := by
  induction keys generalizing base layer with
  | nil => rfl
  | cons key rest ih =>
    obtain ⟨lower, upper⟩ := clear [] List.nil_prefix (List.cons_ne_nil key rest).symm
    obtain ⟨fields, rfl⟩ := object_of_clearAt lower
    obtain ⟨added, rfl⟩ := object_of_clearAt upper
    cases ordered with
    | object _ ascending each =>
      rw [overlay, nodeAt?, nodeAt?, nodeAt?, field?, field?, field?,
        get?_overlayFields (Json.Ordered.nodup ascending)]
      cases found : Entries.get? fields key with
      | none => rw [none_layered, Option.bind_none, none_layered]
      | some child =>
        cases found' : Entries.get? added key with
        | none => rw [layered_none, Option.bind_none, layered_none]
        | some child' =>
          rw [layered, Option.bind_some, Option.bind_some, Option.bind_some]
          apply ih (each _ (Entries.mem_of_get? found'))
          intro front short proper
          have down := clear (key :: front) (List.cons_prefix_cons.mpr ⟨rfl, short⟩)
            fun same => proper (List.cons.inj same).2
          have below : (object fields).field? key = some child := found
          have above : (object added).field? key = some child' := found'
          exact ⟨(clearAt_cons below).mp down.1, (clearAt_cons above).mp down.2⟩

private theorem nodeAt?_overlay_array {items : List Json} (ordered : layer.Ordered)
    (stands : nodeAt? keys base = some (array items))
    (clear : ∀ front, front <+: keys → front ≠ keys → layer.ClearAt front) :
    nodeAt? keys (base.overlay layer) = some (array (items ++ elements (nodeAt? keys layer))) := by
  have both : ∀ front, front <+: keys → front ≠ keys → base.ClearAt front ∧ layer.ClearAt front := by
    intro front short proper
    exact ⟨.inl (mapsAt_of_nodeAt? stands short proper), clear front short proper⟩
  rw [nodeAt?_overlay ordered both, stands]
  cases nodeAt? keys layer with
  | none => rw [layered, elements, List.append_nil]
  | some found => rw [layered, overlay_array]

/-- An array keeps its elements under all layers, and those of each layer follow in turn. -/
theorem nodeAt?_foldl_overlay {layers : List Json} {items : List Json} (ordered : ∀ layer ∈ layers, layer.Ordered)
    (stands : nodeAt? keys base = some (array items))
    (clear : ∀ layer ∈ layers, ∀ front, front <+: keys → front ≠ keys → layer.ClearAt front) :
    nodeAt? keys (layers.foldl overlay base) =
      some (array (items ++ layers.flatMap fun layer => elements (nodeAt? keys layer))) := by
  induction layers generalizing base items with
  | nil =>
    rw [List.flatMap_nil, List.append_nil]
    exact stands
  | cons layer layers ih =>
    obtain ⟨first, later⟩ := List.forall_mem_cons.mp ordered
    obtain ⟨leads, further⟩ := List.forall_mem_cons.mp clear
    have grown := nodeAt?_overlay_array first stands leads
    rw [List.foldl_cons, ih later grown further, List.flatMap_cons, List.append_assoc]

/-- A document under a layer has at each place what the two have there: one node under the other, the only one, or none.
An array keeps its elements under all layers, and those of each layer follow in turn. The fields of layers are in the
order of their keys, as all readers give them. -/
theorem layers_pointwise :
    (∀ (base layer : Json) (keys : List String), layer.Ordered →
        (∀ front, front <+: keys → front ≠ keys → base.MapsAt front ∧ layer.MapsAt front) →
        nodeAt? keys (base.overlay layer) = layered (nodeAt? keys base) (nodeAt? keys layer)) ∧
      ∀ (base : Json) (layers : List Json) (keys : List String) (items : List Json),
        (∀ layer ∈ layers, layer.Ordered) → nodeAt? keys base = some (array items) →
        (∀ layer ∈ layers, ∀ front, front <+: keys → front ≠ keys → layer.ClearAt front) →
        nodeAt? keys (layers.foldl overlay base) =
          some (array (items ++ layers.flatMap fun layer => elements (nodeAt? keys layer))) := by
  constructor
  · intro base layer keys ordered through
    apply nodeAt?_overlay ordered
    intro front short proper
    exact (through front short proper).imp .inl .inl
  · intro base layers keys items ordered stands clear
    exact nodeAt?_foldl_overlay ordered stands clear

/-- Two directives under a layer that replaces the second one, and a list of inputs under a layer with one more of them
and a layer without any. -/
theorem layers_pointwise_sample :
    nodeAt? ["directive", "where"] ((object [("directive", object [("from", string "a"), ("where", string "b")])]).overlay
        (object [("directive", object [("where", string "c")])])) = some (string "c") ∧
      nodeAt? ["input-file"]
          ([object [("input-file", string "store.json")], object [("azure-validator", bool true)]].foldl overlay
            (object [("input-file", array [string "pets.json"])])) =
        some (array [string "pets.json", string "store.json"]) := by
  have single : ∀ (key : String) (value : Json), value.Ordered → (object [(key, value)]).Ordered :=
    fun key value inner => .object _ (List.pairwise_singleton _ _) (List.forall_mem_singleton.mpr inner)
  have top : ∀ fields front, front <+: ["input-file"] → front ≠ ["input-file"] → (object fields).ClearAt front := by
    intro fields front short proper
    cases front with
    | nil => exact .inl ⟨fields, rfl⟩
    | cons key front =>
      obtain ⟨rfl, further⟩ := List.cons_prefix_cons.mp short
      exact absurd (congrArg (List.cons "input-file") (List.prefix_nil.mp further)) proper
  constructor
  · rw [layers_pointwise.1 _ _ _ (single _ _ (single _ _ (.string _)))]
    · rfl
    · intro front short proper
      rcases front with _ | ⟨first, _ | ⟨second, rest⟩⟩
      · exact ⟨⟨_, rfl⟩, ⟨_, rfl⟩⟩
      · obtain ⟨rfl, -⟩ := List.cons_prefix_cons.mp short
        exact ⟨⟨_, rfl⟩, ⟨_, rfl⟩⟩
      · obtain ⟨rfl, further⟩ := List.cons_prefix_cons.mp short
        obtain ⟨rfl, last⟩ := List.cons_prefix_cons.mp further
        exact absurd (List.prefix_nil.mp last ▸ rfl) proper
  · apply layers_pointwise.2 _ _ _ [string "pets.json"]
    · refine List.forall_mem_cons.mpr ⟨single _ _ (.string _), ?_⟩
      exact List.forall_mem_singleton.mpr (single _ _ (.bool _))
    · rfl
    · exact List.forall_mem_cons.mpr ⟨top _, List.forall_mem_singleton.mpr (top _)⟩

end SpecServer.Json
