import Mathlib.Data.List.Forall2
import SpecServer.Json.Query
import SpecServer.Proofs.Engine.Composition
set_option autoImplicit false

/-!
What a path expression leads to. Its selectors are matched segment by segment along paths that take keys at objects and
indices at arrays only, and the nodes come in ascending order of their paths, so that none comes twice.
-/

namespace SpecServer

/-- Whether a node is right below another one: a field of an object under its key, or an item of an array under its
index. -/
inductive Json.Leads : Json → Segment → Json → Prop
  | key (fields : List (String × Json)) (name : String) (child : Json)
      (found : Entries.get? fields name = some child) : Leads (.object fields) (.key name) child
  | index (items : List Json) (i : Nat) (child : Json) (found : items[i]? = some child) :
      Leads (.array items) (.index i) child

/-- Whether a path leads down a document through keys at objects and indices at arrays only. -/
inductive Path.Straight : Path → Json → Prop
  | root (node : Json) : Straight [] node
  | down (segment : Segment) (rest : Path) (node child : Json) (leads : node.Leads segment child)
      (further : Straight rest child) : Straight (segment :: rest) node

/-- Whether a selector lets a segment pass. -/
def Selector.Admits : Selector → Segment → Prop
  | .key name, segment => segment = .key name
  | .index i, segment => segment = .index i
  | .wildcard, _ => True

/-! ## Straight paths -/

theorem Json.Leads.child?_eq {node child : Json} {segment : Segment} (leads : node.Leads segment child) :
    Path.child? node segment = some child := by
  cases leads with
  | key fields name child found => exact found
  | index items i child found => exact found

theorem Path.straight_cons {segment : Segment} {rest : Path} {node last : Json} :
    (Straight (segment :: rest) node ∧ resolve (segment :: rest) node = some last) ↔
      ∃ child, node.Leads segment child ∧ Straight rest child ∧ resolve rest child = some last := by
  constructor
  · rintro ⟨straight, reached⟩
    cases straight with
    | down _ _ _ child leads further =>
      rw [resolve, leads.child?_eq] at reached
      exact ⟨child, leads, further, reached⟩
  · rintro ⟨child, leads, further, reached⟩
    refine ⟨.down _ _ _ child leads further, ?_⟩
    rw [resolve, leads.child?_eq]
    exact reached

theorem Json.Leads.ordered {node child : Json} {segment : Segment} (leads : node.Leads segment child)
    (ordered : node.Ordered) : child.Ordered := by
  cases leads with
  | key fields name child found =>
    cases ordered with
    | object _ _ each => exact each (name, child) (Entries.mem_of_get? found)
  | index items i child found =>
    cases ordered with
    | array _ each => exact each child (List.mem_of_getElem? found)

namespace Query

variable {selector : Selector} {selectors : List Selector} {path : Path} {node child document : Json}
  {nodes found : List (Path × Json)}

/-! ## The nodes of a step and of a walk -/

private theorem mem_numbered {first : Nat} {items : List Json} {below : Path} :
    (below, child) ∈ numbered path first items ↔
      ∃ i, items[i]? = some child ∧ below = path.index (first + i) := by
  induction items generalizing first with
  | nil => simp [numbered]
  | cons item rest ih =>
    rw [numbered, List.mem_cons, ih]
    constructor
    · rintro (same | ⟨i, held, rfl⟩)
      · cases same
        exact ⟨0, rfl, rfl⟩
      · exact ⟨i + 1, held, by rw [Nat.add_assoc, Nat.add_comm 1]⟩
    · rintro ⟨i, held, rfl⟩
      cases i with
      | zero =>
        cases held
        exact .inl rfl
      | succ i => exact .inr ⟨i, held, by rw [Nat.add_assoc, Nat.add_comm 1]⟩

/-- A step goes one segment down, by any segment that the selector lets pass. -/
theorem mem_step (ordered : node.Ordered) {below : Path} :
    (below, child) ∈ step selector (path, node) ↔
      ∃ segment, below = path ++ [segment] ∧ selector.Admits segment ∧ node.Leads segment child := by
  constructor
  · intro member
    simp only [step] at member
    split at member
    next name fields =>
      simp only [Option.mem_toList, Option.map_eq_some_iff, Prod.mk.injEq] at member
      obtain ⟨_, held, rfl, rfl⟩ := member
      exact ⟨.key name, rfl, rfl, .key _ _ _ held⟩
    next i items =>
      simp only [Option.mem_toList, Option.map_eq_some_iff, Prod.mk.injEq] at member
      obtain ⟨_, held, rfl, rfl⟩ := member
      exact ⟨.index i, rfl, rfl, .index _ _ _ held⟩
    next fields =>
      obtain ⟨⟨name, value⟩, held, same⟩ := List.mem_map.mp member
      cases same
      cases ordered with
      | object _ ascending =>
        have looked := (Entries.get?_eq_some_iff (Json.Ordered.nodup ascending)).mpr held
        exact ⟨.key name, rfl, trivial, .key _ _ _ looked⟩
    next items =>
      obtain ⟨i, held, rfl⟩ := mem_numbered.mp member
      exact ⟨.index (0 + i), rfl, trivial, .index _ _ _ (by rwa [Nat.zero_add])⟩
    next => cases member
  · rintro ⟨segment, rfl, admitted, leads⟩
    cases leads with
    | key fields name child held =>
      cases selector with
      | key wanted =>
        cases admitted
        simp [step, held, Path.key]
      | index => cases admitted
      | wildcard => exact List.mem_map.mpr ⟨(name, child), Entries.mem_of_get? held, rfl⟩
    | index items i child held =>
      cases selector with
      | key => cases admitted
      | index wanted =>
        cases admitted
        simp [step, held, Path.index]
      | wildcard => exact mem_numbered.mpr ⟨i, held, by rw [Nat.zero_add]; rfl⟩

theorem walk_cons (selector : Selector) (rest : List Selector) (nodes : List (Path × Json)) :
    walk (selector :: rest) nodes = walk rest (nodes.flatMap (step selector)) :=
  rfl

private theorem step_ordered (ordered : ∀ start ∈ nodes, start.2.Ordered) :
    ∀ start ∈ nodes.flatMap (step selector), start.2.Ordered := by
  rintro ⟨below, child⟩ member
  obtain ⟨⟨path, node⟩, among, taken⟩ := List.mem_flatMap.mp member
  obtain ⟨segment, -, -, leads⟩ := (mem_step (ordered _ among)).mp taken
  exact leads.ordered (ordered _ among)

/-- A walk leads from some nodes along straight paths whose segments the selectors let pass one after another. -/
theorem mem_walk (ordered : ∀ start ∈ nodes, start.2.Ordered) {last : Json} :
    (path, last) ∈ walk selectors nodes ↔
      ∃ start ∈ nodes, ∃ rest : Path, path = start.1 ++ rest ∧ List.Forall₂ Selector.Admits selectors rest ∧
        rest.Straight start.2 ∧ rest.resolve start.2 = some last := by
  induction selectors generalizing nodes with
  | nil =>
    simp only [walk, List.foldl_nil, List.forall₂_nil_left_iff]
    constructor
    · intro member
      exact ⟨(path, last), member, [], (List.append_nil path).symm, rfl, .root last, rfl⟩
    · rintro ⟨⟨front, node⟩, member, rest, rfl, rfl, -, reached⟩
      cases reached
      rwa [List.append_nil]
  | cons selector selectors ih =>
    rw [walk_cons, ih (step_ordered ordered)]
    constructor
    · rintro ⟨⟨below, child⟩, member, rest, rfl, admitted, further⟩
      obtain ⟨start, among, taken⟩ := List.mem_flatMap.mp member
      obtain ⟨segment, rfl, first, leads⟩ := (mem_step (ordered start among)).mp taken
      exact ⟨start, among, segment :: rest, List.append_assoc _ _ _, .cons first admitted,
        Path.straight_cons.mpr ⟨child, leads, further⟩⟩
    · rintro ⟨start, among, rest, rfl, admitted, further⟩
      cases admitted with
      | cons first admitted =>
        obtain ⟨child, leads, further⟩ := Path.straight_cons.mp further
        have taken : (start.1 ++ [_], child) ∈ step _ start := (mem_step (ordered start among)).mpr ⟨_, rfl, first, leads⟩
        exact ⟨_, List.mem_flatMap.mpr ⟨start, among, taken⟩, _, List.append_cons _ _ _, admitted, further⟩

/-! ## The order of the paths -/

/-- Whether nodes come in strictly ascending order of their paths. -/
def Ascends (nodes : List (Path × Json)) : Prop :=
  nodes.Pairwise fun left right => left.1 < right.1

/-- Paths of one length that are in order stay so, however they go on. -/
theorem append_lt_append {left right : Path} (less : left < right) (even : left.length = right.length)
    (front back : Path) : left ++ front < right ++ back := by
  induction less with
  | nil => cases even
  | cons _ ih => exact .cons (ih (Nat.succ.inj even))
  | rel first => exact .rel first

private theorem concat_lt_concat (path : Path) {left right : Segment} (less : left < right) :
    path ++ [left] < path ++ [right] := by
  induction path with
  | nil => exact .rel less
  | cons segment path ih => exact .cons ih

private theorem ascends_numbered (path : Path) (first : Nat) (items : List Json) :
    Ascends (numbered path first items) := by
  induction items generalizing first with
  | nil => exact .nil
  | cons item rest ih =>
    refine List.pairwise_cons.mpr ⟨?_, ih (first + 1)⟩
    rintro ⟨below, child⟩ member
    obtain ⟨i, -, rfl⟩ := mem_numbered.mp member
    have less : first < first + 1 + i := by omega
    exact concat_lt_concat path (decide_eq_true less)

theorem ascends_step (ordered : node.Ordered) : Ascends (step selector (path, node)) := by
  simp only [step]
  split
  next name fields =>
    cases Entries.get? fields name with
    | none => exact .nil
    | some child => exact List.pairwise_singleton _ _
  next i items =>
    cases items[i]? with
    | none => exact .nil
    | some child => exact List.pairwise_singleton _ _
  next fields =>
    cases ordered with
    | object _ ascending =>
      refine List.pairwise_map.mpr ((List.pairwise_map.mp ascending).imp fun less => ?_)
      exact concat_lt_concat path (decide_eq_true less)
  next items => exact ascends_numbered path 0 items
  next => exact .nil

/-- Each step of a walk keeps the order, as all paths have the same length. -/
theorem ascends_walk (ordered : ∀ start ∈ nodes, start.2.Ordered) (ascends : Ascends nodes) (length : Nat)
    (even : ∀ start ∈ nodes, start.1.length = length) : Ascends (walk selectors nodes) := by
  induction selectors generalizing nodes length with
  | nil => exact ascends
  | cons selector selectors ih =>
    rw [walk_cons]
    refine ih (step_ordered ordered) ?_ (length + 1) ?_
    · refine List.pairwise_flatMap.mpr ⟨fun start among => ascends_step (ordered start among), ?_⟩
      refine ascends.imp_of_mem fun {left right} leftAmong rightAmong less => ?_
      rintro ⟨below, child⟩ member ⟨beside, other⟩ among
      obtain ⟨segment, rfl, -⟩ := (mem_step (ordered left leftAmong)).mp member
      obtain ⟨next, rfl, -⟩ := (mem_step (ordered right rightAmong)).mp among
      exact append_lt_append less ((even left leftAmong).trans (even right rightAmong).symm) _ _
    · rintro ⟨below, child⟩ member
      obtain ⟨start, among, taken⟩ := List.mem_flatMap.mp member
      obtain ⟨segment, rfl, -⟩ := (mem_step (ordered start among)).mp taken
      rw [List.length_append, even start among, List.length_singleton]

/-! ## Queries -/

/-- An expression with some selectors leads, in strictly ascending order of their paths, to exactly the nodes at straight
paths whose segments the selectors let pass one after another. -/
theorem run?_exact {expression : String} (ordered : document.Ordered) (parsed : parse? expression = some selectors) :
    ∃ found, run? document expression = some found ∧ (found.map Prod.fst).Pairwise (· < ·) ∧
      ∀ path node, (path, node) ∈ found ↔
        List.Forall₂ Selector.Admits selectors path ∧ path.Straight document ∧ path.resolve document = some node := by
  have start : ∀ start ∈ [(Path.root, document)], start.2.Ordered := by
    intro start member
    cases List.mem_singleton.mp member
    exact ordered
  refine ⟨walk selectors [(Path.root, document)], by rw [run?, parsed, Option.map_some], ?_, ?_⟩
  · refine List.pairwise_map.mpr (ascends_walk start (List.pairwise_singleton _ _) 0 ?_)
    intro start member
    cases List.mem_singleton.mp member
    rfl
  · intro path node
    rw [mem_walk start]
    constructor
    · rintro ⟨start, member, rest, rfl, admitted, further⟩
      cases List.mem_singleton.mp member
      exact ⟨admitted, further⟩
    · rintro ⟨admitted, further⟩
      exact ⟨_, List.mem_singleton_self _, path, rfl, admitted, further⟩

/-- An object that holds an array, an object and a text. -/
def mixedShapes : Json :=
  .object [("a", .array [.null, .bool true]), ("b", .object [("0", .null), ("c", .array [])]), ("c", .string "0")]

private theorem ordered_mixedShapes : mixedShapes.Ordered := by
  refine .object _ (by unfold Entries.Ascending; decide) ?_
  simp only [List.forall_mem_cons, List.not_mem_nil, false_implies, implies_true, and_true]
  refine ⟨.array _ ?_, .object _ (by unfold Entries.Ascending; decide) ?_, .string "0"⟩
  · simpa using ⟨.null, .bool true⟩
  · simpa using ⟨.null, .array [] nofun⟩

theorem run?_exact_sample :
    mixedShapes.Ordered ∧ parse? "$.*[*]" = some [.wildcard, .wildcard] ∧
      ∃ found, run? mixedShapes "$.*[*]" = some found ∧ (found.map Prod.fst).Pairwise (· < ·) ∧
        ∀ path node, (path, node) ∈ found ↔
          List.Forall₂ Selector.Admits [.wildcard, .wildcard] path ∧ path.Straight mixedShapes ∧
            path.resolve mixedShapes = some node := by
  have parsed : parse? "$.*[*]" = some [.wildcard, .wildcard] := by decide +kernel
  exact ⟨ordered_mixedShapes, parsed, run?_exact ordered_mixedShapes parsed⟩

end Query

end SpecServer
