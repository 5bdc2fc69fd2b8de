import SpecServer.Engine.Definition
import SpecServer.Proofs.Registry.Lookup
set_option autoImplicit false

/-!
How a merged definition is composed of its inputs. The nodes that the inputs have at a path are merged field by field as
long as the first of them is an object, and any other first node is taken whole. The nearest source that is recorded for
a merged node is the input that has the first of its nodes. Merging one more input adds its nodes behind all others.
-/

namespace SpecServer

/-- Whether a document is an object. -/
def Json.isObject : Json → Bool
  | .object _ => true
  | _ => false

/-- Whether a node is another one or both are objects. -/
def Json.Resembles (left right : Json) : Prop :=
  left.isObject = right.isObject ∧ (right.isObject = false → left = right)

theorem Json.Resembles.refl (node : Json) : node.Resembles node :=
  ⟨rfl, fun _ => rfl⟩

theorem Json.Ordered.nodup {fields : List (String × Json)} (ascending : Entries.Ascending fields) :
    (fields.map Prod.fst).Nodup := by
  apply List.Pairwise.imp _ ascending
  intro first second less same
  subst same
  exact String.lt_irrefl first less

namespace Definition

/-! ## The nearest source -/

theorem key_ne_root (path : Path) (key : String) : path.key key ≠ Path.root :=
  List.append_ne_nil_of_right_ne_nil _ (List.cons_ne_nil _ _)

def nearest? (sources : Entries Path Uri) (path : Path) : Option Uri :=
  (ancestors path).findSome? sources.get?

private theorem ancestors_concat (path : Path) (segment : Segment) :
    ancestors (path ++ [segment]) = (path ++ [segment]) :: ancestors path := by
  have whole : (path ++ [segment]).take (path.length + 1) = path ++ [segment] :=
    List.take_of_length_le (by simp)
  have above : ∀ length ∈ (List.range (path.length + 1)).reverse,
      (path ++ [segment]).take length = path.take length := by
    intro length member
    apply List.take_append_of_le_length
    simpa [Nat.lt_succ_iff] using member
  simp only [ancestors, List.length_append, List.length_singleton]
  rw [List.range_succ, List.reverse_append, List.reverse_singleton, List.singleton_append,
    List.map_cons, whole, List.map_congr_left above]

private theorem nearest?_concat (sources : Entries Path Uri) (path : Path) (segment : Segment) :
    nearest? sources (path ++ [segment]) = (sources.get? (path ++ [segment])).or (nearest? sources path) := by
  rw [nearest?, ancestors_concat, List.findSome?_cons]
  cases sources.get? (path ++ [segment]) <;> rfl

private theorem nearest?_key (sources : Entries Path Uri) (path : Path) (key : String) :
    nearest? sources (path.key key) = (sources.get? (path.key key)).or (nearest? sources path) :=
  nearest?_concat sources path (.key key)

private theorem nearest?_congr {before after : Entries Path Uri} {path : Path}
    (same : ∀ front, front <+: path → after.get? front = before.get? front) :
    nearest? after path = nearest? before path := by
  have above : ∀ front ∈ ancestors path, front <+: path := by
    intro front member
    obtain ⟨length, -, rfl⟩ := List.mem_map.mp member
    exact List.take_prefix length path
  simp only [nearest?]
  generalize ancestors path = fronts at above
  induction fronts with
  | nil => rfl
  | cons front rest ih =>
    rw [List.findSome?_cons, List.findSome?_cons, same front (above front List.mem_cons_self),
      ih fun other member => above other (List.mem_cons_of_mem front member)]

/-- Where nothing is recorded further down, all that is there has the source of the path. -/
theorem nearest?_append {sources : Entries Path Uri} {path : Path}
    (bare : ∀ segment rest, sources.get? (path ++ segment :: rest) = none) (rest : Path) :
    nearest? sources (path ++ rest) = nearest? sources path := by
  induction rest generalizing path with
  | nil => rw [List.append_nil]
  | cons segment rest ih =>
    have further := @ih (path ++ [segment]) fun next more => by
      rw [List.append_assoc]
      exact bare segment (next :: more)
    rw [List.append_assoc] at further
    exact further.trans (by rw [nearest?_concat, bare segment [], Option.none_or])

/-! ## Composition -/

/-- The nodes under a key of those nodes that are objects, each with its input. -/
def children (key : String) (parts : List (Uri × Json)) : List (Uri × Json) :=
  parts.filterMap fun part => (part.2.field? key).map fun node => (part.1, node)

/-- Whether the node at a path of a merged document is composed of the nodes that the inputs have there, and its source
is recorded. Only the root may be composed of nothing, and it needs no source. -/
inductive Composed (sources : Entries Path Uri) : Path → List (Uri × Json) → Json → Prop
  | whole (path : Path) (input : Uri) (node : Json) (rest : List (Uri × Json)) (leaf : node.isObject = false)
      (credited : nearest? sources path = some input)
      (bare : ∀ segment rest, sources.get? (path ++ segment :: rest) = none) :
    Composed sources path ((input, node) :: rest) node
  | object (path : Path) (parts : List (Uri × Json)) (fields : List (String × Json))
      (lead : ∀ first ∈ parts.head?, first.2.isObject = true ∧
        (path = Path.root ∨ nearest? sources path = some first.1))
      (inhabited : path = Path.root ∨ parts ≠ [])
      (absent : ∀ key, Entries.get? fields key = none →
        children key parts = [] ∧ ∀ rest, sources.get? (path ++ .key key :: rest) = none)
      (present : ∀ key node, Entries.get? fields key = some node →
        Composed sources (path.key key) (children key parts) node) :
    Composed sources path parts (.object fields)

variable {sources before after : Entries Path Uri} {path : Path} {parts front : List (Uri × Json)}
  {fields done : List (String × Json)} {input : Uri} {key : String} {node value : Json}

private theorem Composed.of_object (composed : Composed sources path parts (.object fields)) :
    (∀ first ∈ parts.head?, first.2.isObject = true ∧ (path = Path.root ∨ nearest? sources path = some first.1)) ∧
      (path = Path.root ∨ parts ≠ []) ∧
      (∀ key, Entries.get? fields key = none →
        children key parts = [] ∧ ∀ rest, sources.get? (path ++ .key key :: rest) = none) ∧
      ∀ key node, Entries.get? fields key = some node →
        Composed sources (path.key key) (children key parts) node := by
  cases composed with
  | whole _ _ _ _ leaf => cases leaf
  | object _ _ _ lead inhabited absent present => exact ⟨lead, inhabited, absent, present⟩

theorem Composed.inhabited (composed : Composed sources path parts node) (further : path ≠ Path.root) : parts ≠ [] := by
  cases composed with
  | whole => exact List.cons_ne_nil _ _
  | object _ _ _ _ inhabited => exact inhabited.resolve_left further

theorem children_append (key : String) (front back : List (Uri × Json)) :
    children key (front ++ back) = children key front ++ children key back :=
  List.filterMap_append

theorem children_singleton (key : String) (input : Uri) (node : Json) :
    children key [(input, node)] = ((node.field? key).map fun child => (input, child)).toList := by
  simp only [children, List.filterMap_cons, List.filterMap_nil]
  cases node.field? key <;> rfl

/-- Whether only sources at a path or further down were changed. -/
def SameBut (path : Path) (before after : Entries Path Uri) : Prop :=
  ∀ other, ¬path <+: other → after.get? other = before.get? other

private theorem SameBut.trans {first second third : Entries Path Uri} (left : SameBut path first second)
    (right : SameBut path second third) : SameBut path first third :=
  fun other apart => (right other apart).trans (left other apart)

private theorem SameBut.above (same : SameBut (path.key key) before after) : SameBut path before after := by
  intro other apart
  apply same
  intro further
  exact apart ((List.prefix_append path _).trans further)

private theorem not_prefix_of_length {path : Path} (key : String) {front : Path} (short : front <+: path) :
    ¬path.key key <+: front := by
  intro further
  have := (further.trans short).length_le
  rw [Path.key, List.length_append, List.length_singleton] at this
  omega

private theorem not_prefix_of_ne {key other : String} (apart : key ≠ other) {below : Path}
    (along : path.key other <+: below ∨ below <+: path.key other) : ¬path.key key <+: below := by
  intro further
  have equal : path.key key = path.key other := by
    have both : (path.key key).length = (path.key other).length := by
      simp only [Path.key, List.length_append, List.length_singleton]
    rcases along with down | up
    · exact (List.prefix_of_prefix_length_le further down (Nat.le_of_eq both)).eq_of_length both
    · exact (further.trans up).eq_of_length both
  have last := List.append_cancel_left equal
  simp only [List.cons.injEq, Segment.key.injEq, and_true] at last
  exact apart last

private theorem SameBut.nearest?_eq (same : SameBut (path.key key) before after) :
    nearest? after path = nearest? before path :=
  nearest?_congr fun _ short => same _ (not_prefix_of_length key short)

/-- How a node is composed depends on the sources along its path only. -/
theorem Composed.congr (composed : Composed before path parts node)
    (same : ∀ other, path <+: other ∨ other <+: path → after.get? other = before.get? other) :
    Composed after path parts node := by
  have nearest : nearest? after path = nearest? before path := nearest?_congr fun front short => same front (.inr short)
  induction composed with
  | whole path input node rest leaf credited bare =>
    refine .whole path input node rest leaf (nearest.trans credited) fun segment more => ?_
    rw [same _ (.inl (List.prefix_append _ _))]
    exact bare segment more
  | object path parts fields lead inhabited absent present ih =>
    refine .object path parts fields ?_ inhabited ?_ ?_
    · intro first member
      rw [nearest]
      exact lead first member
    · intro key missing
      refine ⟨(absent key missing).1, fun rest => ?_⟩
      rw [same _ (.inl (List.prefix_append _ _))]
      exact (absent key missing).2 rest
    · intro key node found
      have further : ∀ other, path.key key <+: other ∨ other <+: path.key key →
          after.get? other = before.get? other := by
        intro other along
        apply same
        rcases along with down | up
        · exact .inl ((List.prefix_append path _).trans down)
        · rcases List.prefix_concat_iff.mp up with whole | above
          · exact .inl (whole ▸ List.prefix_append path _)
          · exact .inr above
      exact ih key node found further (nearest?_congr fun front short => further front (.inr short))

/-! ## One more input -/

private theorem Composed.padded (composed : Composed sources path parts node)
    (blank : node.isObject = true → ∀ key, value.field? key = none)
    (follows : parts ≠ [] ∨ path = Path.root ∧ value.isObject = true) (input : Uri) :
    Composed sources path (parts ++ [(input, value)]) node := by
  cases composed with
  | whole _ first _ rest leaf credited bare =>
    exact .whole path first node (rest ++ [(input, value)]) leaf credited bare
  | object _ _ fields lead inhabited absent present =>
    have same : ∀ key, children key (parts ++ [(input, value)]) = children key parts := by
      intro key
      rw [children_append, children_singleton, blank rfl key, Option.map_none, Option.toList_none, List.append_nil]
    refine .object path _ fields ?_ (.inr (by simp)) ?_ ?_
    · cases parts with
      | nil =>
        obtain ⟨top, mapping⟩ := follows.resolve_left (· rfl)
        intro first member
        cases member
        exact ⟨mapping, .inl top⟩
      | cons first rest => exact lead
    · intro key missing
      rw [same]
      exact absent key missing
    · intro key child found
      rw [same]
      exact present key child found

private theorem composed_single (ordered : node.Ordered) {path : Path} (credited : nearest? sources path = some input)
    (bare : ∀ segment rest, sources.get? (path ++ segment :: rest) = none) :
    Composed sources path [(input, node)] node := by
  induction ordered generalizing path with
  | null => exact .whole _ _ _ _ rfl credited bare
  | bool => exact .whole _ _ _ _ rfl credited bare
  | number => exact .whole _ _ _ _ rfl credited bare
  | string => exact .whole _ _ _ _ rfl credited bare
  | array => exact .whole _ _ _ _ rfl credited bare
  | object fields _ _ ih =>
    refine .object path _ fields ?_ (.inr (List.cons_ne_nil _ _)) ?_ ?_
    · intro first member
      cases member
      exact ⟨rfl, .inr credited⟩
    · intro key missing
      refine ⟨?_, fun rest => bare _ rest⟩
      rw [children_singleton, Json.field?, missing]
      rfl
    · intro key child found
      have inner := @ih (key, child) (Entries.mem_of_get? found) (path.key key)
        (by rw [nearest?_key, Path.key, bare, Option.none_or, credited])
        (by
          intro segment rest
          rw [Path.key, List.append_assoc]
          exact bare (.key key) (segment :: rest))
      rw [children_singleton, Json.field?, found]
      exact inner

/-- One more field of the last input changes the node under its key and no other. -/
theorem Composed.replace {fields' : List (String × Json)}
    (composed : Composed before path (front ++ [(input, .object done)]) (.object fields))
    (new : key ∉ done.map Prod.fst) (same : SameBut (path.key key) before after)
    (shown : ∀ other, Entries.get? fields' other = if key = other then some node else Entries.get? fields other)
    (inner : Composed after (path.key key) (children key front ++ [(input, value)]) node) :
    Composed after path (front ++ [(input, .object (done ++ [(key, value)]))]) (.object fields') := by
  obtain ⟨lead, -, absent, present⟩ := composed.of_object
  have own : children key (front ++ [(input, .object (done ++ [(key, value)]))]) =
      children key front ++ [(input, value)] := by
    have missing : Entries.get? done key = none := Entries.get?_eq_none_iff.mpr new
    rw [children_append, children_singleton, Json.field?, Entries.get?_append, missing, Option.none_or, Entries.get?,
      if_pos rfl]
    rfl
  have others : ∀ other, key ≠ other → children other (front ++ [(input, .object (done ++ [(key, value)]))]) =
      children other (front ++ [(input, .object done)]) := by
    intro other apart
    rw [children_append, children_append, children_singleton, children_singleton, Json.field?, Json.field?,
      Entries.get?_append, Entries.get?, if_neg apart, Entries.get?, Option.or_none]
  refine .object path _ fields' ?_ (.inr (by simp)) ?_ ?_
  · rw [same.nearest?_eq]
    cases front with
    | nil =>
      intro first member
      cases member
      exact ⟨rfl, (lead _ rfl).2⟩
    | cons first rest => exact lead
  · intro other missing
    rw [shown] at missing
    split at missing
    · cases missing
    next apart =>
      rw [others other apart]
      refine ⟨(absent other missing).1, fun rest => ?_⟩
      have along : path.key other <+: path ++ .key other :: rest := ⟨rest, by simp [Path.key]⟩
      rw [same _ (not_prefix_of_ne apart (.inl along))]
      exact (absent other missing).2 rest
  · intro other child found
    rw [shown] at found
    split at found
    next equal =>
      subst equal
      cases found
      rw [own]
      exact inner
    next apart =>
      rw [others other apart]
      exact (present other child found).congr fun below along => same below (not_prefix_of_ne apart along)

/-- Whether merging the fields of an object into a composed one adds that object to what it is composed of. -/
def Adds (input : Uri) (fields : List (String × Json)) : Prop :=
  ∀ (merge : Merge) (path : Path) (parts : List (Uri × Json)),
    Composed merge.sources path parts (.object merge.fields) →
    Composed (addFields input path merge fields).sources path (parts ++ [(input, .object fields)])
        (.object (addFields input path merge fields).fields) ∧
      SameBut path merge.sources (addFields input path merge fields).sources

private theorem composed_addField {merge : Merge} (ordered : value.Ordered)
    (adds : ∀ fields, value = .object fields → Adds input fields)
    (composed : Composed merge.sources path (front ++ [(input, .object done)]) (.object merge.fields))
    (new : key ∉ done.map Prod.fst) :
    Composed (addField input path merge (key, value)).sources path
        (front ++ [(input, .object (done ++ [(key, value)]))])
        (.object (addField input path merge (key, value)).fields) ∧
      SameBut (path.key key) merge.sources (addField input path merge (key, value)).sources := by
  obtain ⟨-, -, absent, present⟩ := composed.of_object
  have earlier : children key (front ++ [(input, .object done)]) = children key front := by
    have missing : Entries.get? done key = none := Entries.get?_eq_none_iff.mpr new
    rw [children_append, children_singleton, Json.field?, missing, Option.map_none, Option.toList_none, List.append_nil]
  -- a node that stays as it is
  have stays : ∀ node, Entries.get? merge.fields key = some node →
      (node.isObject = true → ∀ key, value.field? key = none) →
      Composed merge.sources path (front ++ [(input, .object (done ++ [(key, value)]))]) (.object merge.fields) := by
    intro node found blank
    have inner := earlier ▸ present key node found
    have padded := inner.padded blank (.inl (inner.inhabited (key_ne_root path key))) input
    refine composed.replace new (fun _ _ => rfl) (fun other => ?_) padded
    split
    next equal => exact equal ▸ found
    next => rfl
  have leaf : ∀ node, Entries.get? merge.fields key = some node → node.isObject = false →
      Composed merge.sources path (front ++ [(input, .object (done ++ [(key, value)]))]) (.object merge.fields) := by
    intro node found plain
    apply stays node found
    intro mapping
    cases plain.symm.trans mapping
  simp only [addField]
  cases found : Entries.get? merge.fields key with
  | none =>
    obtain ⟨missing, bare⟩ := absent key found
    have same : SameBut (path.key key) merge.sources (merge.sources.put (path.key key) input) := by
      intro other apart
      rw [Entries.get?_put, if_neg]
      rintro rfl
      exact apart List.prefix_rfl
    refine ⟨composed.replace new same (fun other => Entries.get?_put _ _ _ _) ?_, same⟩
    rw [← earlier, missing]
    refine composed_single ordered ?_ fun segment rest => ?_
    · rw [nearest?_key, Entries.get?_put, if_pos rfl, Option.some_or]
    · rw [Entries.get?_put, if_neg (by simp), Path.key, List.append_assoc]
      exact bare (segment :: rest)
  | some node =>
    cases node with
    | object existing =>
      cases value with
      | object fields =>
        have stood := earlier ▸ present key _ found
        obtain ⟨inner, same⟩ := adds fields rfl ⟨existing, merge.sources⟩ (path.key key) _ stood
        exact ⟨composed.replace new same (fun other => Entries.get?_put _ _ _ _) inner, same⟩
      | _ => exact ⟨stays _ found fun _ _ => rfl, fun _ _ => rfl⟩
    | _ => exact ⟨leaf _ found rfl, fun _ _ => rfl⟩

private theorem composed_addFields {merge : Merge} {rest : List (String × Json)}
    (ordered : ∀ field ∈ rest, field.2.Ordered)
    (adds : ∀ field ∈ rest, ∀ fields, field.2 = .object fields → Adds input fields)
    (composed : Composed merge.sources path (front ++ [(input, .object done)]) (.object merge.fields))
    (unique : ((done ++ rest).map Prod.fst).Nodup) :
    Composed (addFields input path merge rest).sources path (front ++ [(input, .object (done ++ rest))])
        (.object (addFields input path merge rest).fields) ∧
      SameBut path merge.sources (addFields input path merge rest).sources := by
  induction rest generalizing merge done with
  | nil =>
    rw [List.append_nil]
    exact ⟨composed, fun _ _ => rfl⟩
  | cons field rest ih =>
    obtain ⟨key, value⟩ := field
    obtain ⟨first, later⟩ := List.forall_mem_cons.mp ordered
    obtain ⟨firstAdds, laterAdds⟩ := List.forall_mem_cons.mp adds
    have new : key ∉ done.map Prod.fst := by
      intro member
      rw [List.map_append, List.map_cons] at unique
      exact (List.nodup_append.mp unique).2.2 key member key List.mem_cons_self rfl
    obtain ⟨next, changed⟩ := composed_addField first firstAdds composed new
    rw [List.append_cons done] at unique ⊢
    obtain ⟨last, changed'⟩ := ih later laterAdds next unique
    exact ⟨last, changed.above.trans changed'⟩

private theorem adds_of_ordered (input : Uri) {document : Json} (ordered : document.Ordered)
    {fields : List (String × Json)}
    (shape : document = .object fields) : Adds input fields := by
  induction ordered generalizing fields with
  | object own ascending each ih =>
    cases shape
    intro merge path parts composed
    have begun : Composed merge.sources path (parts ++ [(input, .object [])]) (.object merge.fields) := by
      refine composed.padded (fun _ _ => rfl) ?_ input
      by_cases top : path = Path.root
      · exact .inr ⟨top, rfl⟩
      · exact .inl (composed.inhabited top)
    exact composed_addFields each (fun field member fields => ih field member) begun (Json.Ordered.nodup ascending)
  | _ => cases shape

/-! ## All inputs -/

/-- The merge of objects of inputs, in their order. -/
def mergeAll (documents : List (Uri × Entries String Json)) : Merge :=
  documents.foldl (fun merge document => merge.add document.1 (.object document.2)) .empty

/-- The merged definition of objects of inputs. -/
def ofDocuments (documents : List (Uri × Entries String Json)) : Definition :=
  .ofMerge (mergeAll documents)

/-- The objects as documents. -/
def inputParts (documents : List (Uri × Entries String Json)) : List (Uri × Json) :=
  documents.map fun document => (document.1, .object document.2)

theorem composed_ofDocuments {documents : List (Uri × Entries String Json)}
    (ordered : ∀ document ∈ documents, (Json.object document.2).Ordered) :
    Composed (ofDocuments documents).sources Path.root (inputParts documents) (ofDocuments documents).document := by
  have run : ∀ (rest : List (Uri × Entries String Json)) (merge : Merge) (front : List (Uri × Json)),
      (∀ document ∈ rest, (Json.object document.2).Ordered) →
      Composed merge.sources Path.root front (.object merge.fields) →
      let last := rest.foldl (fun merge document => merge.add document.1 (.object document.2)) merge
      Composed last.sources Path.root (front ++ inputParts rest) (.object last.fields) := by
    intro rest
    induction rest with
    | nil =>
      intro merge front _ composed
      rw [inputParts, List.map_nil, List.append_nil]
      exact composed
    | cons document rest ih =>
      intro merge front ordered composed
      obtain ⟨first, later⟩ := List.forall_mem_cons.mp ordered
      have next := (adds_of_ordered document.1 first rfl merge Path.root front composed).1
      rw [inputParts, List.map_cons, List.append_cons front]
      exact ih _ _ later next
  refine run documents .empty [] ordered (.object _ _ _ nofun (.inl rfl) ?_ nofun)
  exact fun _ _ => ⟨rfl, fun _ => rfl⟩

end Definition

end SpecServer
