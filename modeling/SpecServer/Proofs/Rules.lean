import Mathlib.Data.List.Nodup
import SpecServer.Proofs.Json.Pointer
import SpecServer.Proofs.Json.Query
import SpecServer.Rules
set_option autoImplicit false

/-!
Which nodes break the rules. The validator reports the property names of definitions that are not in camel case and the
operations without an id, and nothing else, each of them once and under the path that leads to it. Nodes of other shapes
than a rule expects are passed over.
-/

namespace SpecServer

variable {document node : Json} {key name : String} {path : Path} {id : String}

private theorem Json.leads_of_field? {child : Json} (held : node.field? key = some child) :
    node.Leads (.key key) child := by
  cases node with
  | object fields => exact .key fields key child held
  | null | bool | number | string | array => cases held

namespace Rule

/-! ## Names -/

/-- Whether a name is in camel case: an ASCII lower-case letter, and behind it ASCII letters and digits only. -/
def CamelCase (name : String) : Prop :=
  ∃ c rest, name.toList = c :: rest ∧ c.isLower = true ∧ ∀ d ∈ rest, d.isAlphanum = true

private theorem isLower_eq (c : Char) : isLower c = c.isLower := rfl

private theorem isAlphanumeric_eq (c : Char) : isAlphanumeric c = c.isAlphanum := by
  have upper : (decide ('A' ≤ c) && decide (c ≤ 'Z')) = c.isUpper := (Bool.decide_and _ _).symm
  have letter : c.isAlpha = (c.isUpper || c.isLower) := rfl
  rw [isAlphanumeric, Char.isAlphanum, letter, isLower_eq, upper, Bool.or_comm c.isUpper]
  rfl

private theorem isCamelCase_iff : isCamelCase name = true ↔ CamelCase name := by
  rw [isCamelCase, CamelCase]
  cases name.toList with
  | nil => simp
  | cons c rest => simp [isLower_eq, isAlphanumeric_eq]

/-! ## Fields of fields -/

private theorem mem_fieldsOf {entry : String × Json} :
    entry ∈ fieldsOf node key ↔ ∃ fields, node.field? key = some (.object fields) ∧ entry ∈ fields := by
  rw [fieldsOf]
  cases held : node.field? key with
  | none => simp
  | some child => cases child <;> simp [Json.asObject?]

private theorem fieldsOf_of_field? {fields : Entries String Json} (held : node.field? key = some (.object fields)) :
    fieldsOf node key = fields := by
  rw [fieldsOf, held]
  rfl

private theorem nodup_fieldsOf (ordered : node.Ordered) (key : String) : ((fieldsOf node key).map Prod.fst).Nodup := by
  rw [fieldsOf]
  cases held : (node.field? key).bind Json.asObject? with
  | none => exact List.nodup_nil
  | some fields =>
    obtain ⟨child, below, shape⟩ := Option.bind_eq_some_iff.mp held
    cases child with
    | object inner =>
      cases shape
      cases (Json.leads_of_field? below).ordered ordered with
      | object _ ascending _ => exact Json.Ordered.nodup ascending
    | null | bool | number | string | array => cases shape

/-- In an ordered document the fields of a field are those that are found under their names. -/
theorem get?_of_mem_fieldsOf (ordered : node.Ordered) {value : Json} (member : (name, value) ∈ fieldsOf node key) :
    ∃ fields, node.field? key = some (.object fields) ∧ Entries.get? fields name = some value := by
  obtain ⟨fields, held, among⟩ := mem_fieldsOf.mp member
  have distinct := nodup_fieldsOf ordered key
  rw [fieldsOf_of_field? held] at distinct
  exact ⟨fields, held, (Entries.get?_eq_some_iff distinct).mpr among⟩

private theorem ordered_of_mem_fieldsOf (ordered : node.Ordered) {entry : String × Json}
    (member : entry ∈ fieldsOf node key) :
    entry.2.Ordered := by
  obtain ⟨name, value⟩ := entry
  obtain ⟨fields, held, found⟩ := get?_of_mem_fieldsOf ordered member
  exact (Json.Leads.key fields name value found).ordered ((Json.leads_of_field? held).ordered ordered)

/-! ## Offences -/

/-- The nodes that break a rule, with the number of the rule and the paths to them: properties of definitions whose names
are not in camel case, and operations of path items whose id is missing or no text. -/
inductive Offence (document : Json) : String → Path → Json → Prop
  | property {definitions properties : Entries String Json} {schema node : Json} (definition property : String)
      (listed : document.field? "definitions" = some (.object definitions))
      (defined : definitions.get? definition = some schema)
      (described : schema.field? "properties" = some (.object properties))
      (held : properties.get? property = some node)
      (odd : ¬CamelCase property) :
      Offence document "R3016" (Path.ofKeys ["definitions", definition, "properties", property]) node
  | operation {paths : Entries String Json} {item node : Json} (route method : String)
      (listed : document.field? "paths" = some (.object paths))
      (routed : paths.get? route = some item)
      (known : method ∈ ["get", "put", "post", "patch", "delete", "head", "options"])
      (held : item.field? method = some node)
      (anonymous : ∀ text, node.field? "operationId" ≠ some (.string text)) :
      Offence document "R1001" (Path.ofKeys ["paths", route, method]) node

theorem Offence.reached (offence : Offence document id path node) :
    path.Straight document ∧ path.resolve document = some node := by
  cases offence with
  | property definition property listed defined described held =>
    have last := Path.straight_cons.mpr ⟨node, .key _ property node held, .root node, rfl⟩
    have third := Path.straight_cons.mpr ⟨_, Json.leads_of_field? described, last⟩
    have second := Path.straight_cons.mpr ⟨_, .key _ definition _ defined, third⟩
    exact Path.straight_cons.mpr ⟨_, Json.leads_of_field? listed, second⟩
  | operation route method listed routed _ held =>
    have last := Path.straight_cons.mpr ⟨node, Json.leads_of_field? held, .root node, rfl⟩
    have second := Path.straight_cons.mpr ⟨_, .key _ route _ routed, last⟩
    exact Path.straight_cons.mpr ⟨_, Json.leads_of_field? listed, second⟩

theorem Offence.named (offence : Offence document id path node) : ∃ above name, path = Path.key above name := by
  cases offence with
  | property definition property => exact ⟨Path.ofKeys ["definitions", definition, "properties"], property, rfl⟩
  | operation route method => exact ⟨Path.ofKeys ["paths", route], method, rfl⟩

private theorem hasOperationId_eq_false_iff :
    hasOperationId node = false ↔ ∀ text, node.field? "operationId" ≠ some (.string text) := by
  rw [hasOperationId]
  cases node.field? "operationId" with
  | none => simp
  | some value => cases value <;> simp [Json.asString?]

private theorem lacksOperationId_iff {method : Method} :
    lacksOperationId node method = true ↔
      ∃ operation, node.field? method.field = some operation ∧
        ∀ text, operation.field? "operationId" ≠ some (.string text) := by
  rw [lacksOperationId]
  cases node.field? method.field with
  | none => simp
  | some operation => simp [← hasOperationId_eq_false_iff]

theorem offence_of_mem (ordered : document.Ordered) {violation : Violation} (member : violation ∈ violations document) :
    ∃ node, Offence document violation.rule.id violation.path node := by
  rcases List.mem_append.mp member with broken | broken
  · obtain ⟨⟨definition, schema⟩, among, inside⟩ := List.mem_flatMap.mp broken
    obtain ⟨⟨property, node⟩, chosen, rfl⟩ := List.mem_map.mp inside
    obtain ⟨own, odd⟩ := List.mem_filter.mp chosen
    obtain ⟨definitions, listed, defined⟩ := get?_of_mem_fieldsOf ordered among
    obtain ⟨properties, described, held⟩ := get?_of_mem_fieldsOf (ordered_of_mem_fieldsOf ordered among) own
    refine ⟨node, .property definition property listed defined described held ?_⟩
    rw [← isCamelCase_iff]
    simpa using odd
  · obtain ⟨⟨route, item⟩, among, inside⟩ := List.mem_flatMap.mp broken
    obtain ⟨method, chosen, rfl⟩ := List.mem_map.mp inside
    obtain ⟨known, lacks⟩ := List.mem_filter.mp chosen
    obtain ⟨paths, listed, routed⟩ := get?_of_mem_fieldsOf ordered among
    obtain ⟨operation, held, anonymous⟩ := lacksOperationId_iff.mp lacks
    exact ⟨operation, .operation route method.field listed routed (List.mem_map_of_mem known) held anonymous⟩

private theorem Offence.exists_violation (offence : Offence document id path node) :
    ∃ violation ∈ violations document, violation.rule.id = id ∧ violation.path = path := by
  cases offence with
  | @property definitions properties schema _ definition property listed defined described held odd =>
    have among : (definition, schema) ∈ fieldsOf document "definitions" :=
      mem_fieldsOf.mpr ⟨definitions, listed, Entries.mem_of_get? defined⟩
    have own : (property, node) ∈ fieldsOf schema "properties" :=
      mem_fieldsOf.mpr ⟨properties, described, Entries.mem_of_get? held⟩
    have refused : isCamelCase property = false := by simpa [← isCamelCase_iff] using odd
    have chosen : (property, node) ∈ (fieldsOf schema "properties").filter fun field => !isCamelCase field.1 :=
      List.mem_filter.mpr ⟨own, by rw [refused, Bool.not_false]⟩
    refine ⟨propertyViolation definition property, List.mem_append_left _ ?_, rfl, rfl⟩
    exact List.mem_flatMap.mpr ⟨_, among, List.mem_map.mpr ⟨_, chosen, rfl⟩⟩
  | @operation paths item _ route method listed routed known held anonymous =>
    have among : (route, item) ∈ fieldsOf document "paths" :=
      mem_fieldsOf.mpr ⟨paths, listed, Entries.mem_of_get? routed⟩
    obtain ⟨entry, listed, rfl⟩ : ∃ entry ∈ methods, entry.field = method := List.mem_map.mp known
    have chosen := List.mem_filter.mpr ⟨listed, lacksOperationId_iff.mpr ⟨node, held, anonymous⟩⟩
    refine ⟨operationViolation route entry, List.mem_append_right _ ?_, rfl, rfl⟩
    exact List.mem_flatMap.mpr ⟨_, among, List.mem_map.mpr ⟨_, chosen, rfl⟩⟩

/-! ## No offence twice -/

/-- Paths made of the name of an entry and one of the names found in it are all different, if those names are. -/
theorem nodup_paths_of_names (keys : String → String → List String) {entries : Entries String Json}
    (distinct : (entries.map Prod.fst).Nodup) {names : String × Json → List String}
    (each : ∀ entry ∈ entries, (names entry).Nodup)
    (apart : ∀ outer inner outer' inner', keys outer inner = keys outer' inner' → outer = outer' ∧ inner = inner') :
    (entries.flatMap fun entry => (names entry).map fun name => Path.ofKeys (keys entry.1 name)).Nodup := by
  rw [List.nodup_flatMap]
  constructor
  · intro entry member
    apply (each entry member).map
    intro inner inner' same
    exact (apart _ _ _ _ (Path.ofKeys_injective same)).2
  · apply (List.pairwise_map.mp distinct).imp
    intro left right differ path first second
    obtain ⟨inner, -, rfl⟩ := List.mem_map.mp first
    obtain ⟨inner', -, same⟩ := List.mem_map.mp second
    exact differ (apart _ _ _ _ (Path.ofKeys_injective same)).1.symm

private theorem propertyPaths_eq (document : Json) :
    (propertyViolations document).map Violation.path =
      (fieldsOf document "definitions").flatMap fun definition =>
        (((fieldsOf definition.2 "properties").filter fun property => !isCamelCase property.1).map Prod.fst).map
          fun property => Path.ofKeys ["definitions", definition.1, "properties", property] := by
  simp only [propertyViolations, List.map_flatMap, List.map_map]
  rfl

private theorem operationPaths_eq (document : Json) :
    (operationViolations document).map Violation.path =
      (fieldsOf document "paths").flatMap fun route =>
        ((methods.filter (lacksOperationId route.2)).map Method.field).map
          fun method => Path.ofKeys ["paths", route.1, method] := by
  simp only [operationViolations, List.map_flatMap, List.map_map]
  rfl

private theorem nodup_paths (ordered : document.Ordered) : ((violations document).map Violation.path).Nodup := by
  rw [violations, List.map_append, propertyPaths_eq, operationPaths_eq]
  apply List.Nodup.append
  · apply nodup_paths_of_names (fun definition property => ["definitions", definition, "properties", property])
      (nodup_fieldsOf ordered "definitions")
    · intro definition member
      have distinct := nodup_fieldsOf (ordered_of_mem_fieldsOf ordered member) "properties"
      exact distinct.sublist (List.filter_sublist.map Prod.fst)
    · intro _ _ _ _ same
      simpa using same
  · apply nodup_paths_of_names (fun route method => ["paths", route, method]) (nodup_fieldsOf ordered "paths")
    · intro route _
      have distinct : (methods.map Method.field).Nodup := by decide
      exact distinct.sublist (List.filter_sublist.map Method.field)
    · intro _ _ _ _ same
      simpa using same
  · -- the first keys of the paths differ
    intro path first second
    obtain ⟨definition, -, inside⟩ := List.mem_flatMap.mp first
    obtain ⟨property, -, rfl⟩ := List.mem_map.mp inside
    obtain ⟨route, -, among⟩ := List.mem_flatMap.mp second
    obtain ⟨method, -, same⟩ := List.mem_map.mp among
    have keys := Path.ofKeys_injective same
    simp at keys

/-- In a document whose keys ascend, each finding has the number of a rule and the path to a node that breaks it, each node
that breaks a rule is found, and no two findings have the same path. -/
theorem violations_exact (ordered : document.Ordered) :
    (∀ violation ∈ violations document, ∃ node,
        Offence document violation.rule.id violation.path node ∧ violation.path.resolve document = some node) ∧
      (∀ id path node, Offence document id path node →
        ∃ violation ∈ violations document, violation.rule.id = id ∧ violation.path = path) ∧
      ((violations document).map Violation.path).Nodup := by
  refine ⟨?_, ?_, nodup_paths ordered⟩
  · intro violation member
    obtain ⟨node, offence⟩ := offence_of_mem ordered member
    exact ⟨node, offence, offence.reached.2⟩
  · intro id path node offence
    exact offence.exists_violation

/-- A property with an underscore in its name, an operation whose id is no text, one that is a list, and a path item that
is a list. -/
def oddSpecification : Json :=
  .object [
    ("definitions", .object [("Pet", .object [("properties", .object [("name", .null), ("owner_name", .null)])])]),
    ("paths", .object [
      ("/a", .object [("get", .object [("operationId", .null)]), ("put", .array [])]),
      ("/b", .array [])])]

private theorem ordered_oddSpecification : oddSpecification.Ordered := by
  have single : ∀ (key : String) (value : Json), value.Ordered → (Json.object [(key, value)]).Ordered :=
    fun key value inner => .object _ (List.pairwise_singleton _ _) (List.forall_mem_singleton.mpr inner)
  have pair : ∀ (key key' : String) (value value' : Json), key < key' → value.Ordered → value'.Ordered →
      (Json.object [(key, value), (key', value')]).Ordered := by
    intro key key' value value' less inner inner'
    refine .object _ (List.pairwise_pair.mpr less) ?_
    exact List.forall_mem_cons.mpr ⟨inner, List.forall_mem_singleton.mpr inner'⟩
  have properties := pair "name" "owner_name" .null .null (by decide) .null .null
  have item := pair "get" "put" _ _ (by decide) (single "operationId" .null .null) (.array [] nofun)
  have paths := pair "/a" "/b" _ _ (by decide) item (.array [] nofun)
  exact pair _ _ _ _ (by decide) (single _ _ (single _ _ properties)) paths

theorem violations_exact_sample :
    oddSpecification.Ordered ∧
      (violations oddSpecification).map (fun violation => (violation.rule.id, violation.path)) =
        [("R3016", Path.ofKeys ["definitions", "Pet", "properties", "owner_name"]),
          ("R1001", Path.ofKeys ["paths", "/a", "get"]), ("R1001", Path.ofKeys ["paths", "/a", "put"])] ∧
      ((violations oddSpecification).map Violation.path).Nodup := by
  have exact := violations_exact ordered_oddSpecification
  exact ⟨ordered_oddSpecification, by decide, exact.2.2⟩

end Rule

end SpecServer
