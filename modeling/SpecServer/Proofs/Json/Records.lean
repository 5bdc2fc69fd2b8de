import SpecServer.Json.Shape
import SpecServer.Proofs.Entries
import SpecServer.Proofs.Registry.Lookup
set_option autoImplicit false

/-!
Records whose fields may all be missing. Whether they are written as an object or as an array, they are read field by field:
each one that stands there must have its shape, and what is read of it does not depend on the others.
-/

namespace SpecServer

/-- What stands for the fields of a record: the entries of an object, or the items of an array, in the order of the fields
and not more than these. -/
def Json.pairs? (names : List String) : Json → Option (List (String × Json))
  | .object entries => some entries
  | .array items => if items.length ≤ names.length then some (names.zip items) else none
  | _ => none

namespace Shape

variable {buffered : Bool} {fields : List (String × Presence × Shape)}
  {known : String → Json → Except ShapeError (Option Json)} {entries read : List (String × Json)}
  {key : String} {node value result : Json}

/-! ## Fields -/

private theorem readField_of_mem (distinct : (fields.map Prod.fst).Nodup) {presence : Presence} {shape : Shape}
    (member : (key, presence, shape) ∈ fields) (value : Json) :
    readField buffered fields key value = (readAs buffered shape value).map some := by
  induction fields with
  | nil => cases member
  | cons first rest ih =>
    obtain ⟨name, found, inner⟩ := first
    obtain ⟨absent, distinct⟩ := List.nodup_cons.mp distinct
    rw [readField]
    rcases List.mem_cons.mp member with same | later
    · cases same
      exact if_pos rfl
    · have differs : name ≠ key := by
        intro same
        exact absent (List.mem_map.mpr ⟨_, later, same.symm⟩)
      rw [if_neg differs, ih distinct later]

private theorem readField_of_not_mem (absent : key ∉ fields.map Prod.fst) (value : Json) :
    readField buffered fields key value = .ok none := by
  induction fields with
  | nil => rw [readField]
  | cons first rest ih =>
    obtain ⟨name, found, inner⟩ := first
    rw [List.map_cons, List.mem_cons, not_or] at absent
    rw [readField, if_neg (Ne.symm absent.1), ih absent.2]

/-! ## Entries -/

/-- What is read of an entry, if its field is known. -/
def taken? (known : String → Json → Except ShapeError (Option Json)) (entry : String × Json) : Option (String × Json) :=
  (known entry.1 entry.2).toOption.join.map fun read => (entry.1, read)

private theorem readEntries_eq_ok_iff : readEntries known entries = .ok read ↔
    (∀ entry ∈ entries, (known entry.1 entry.2).isOk = true) ∧ entries.filterMap (taken? known) = read := by
  induction entries generalizing read with
  | nil => simp [readEntries]
  | cons first rest ih =>
    rw [readEntries, List.forall_mem_cons, List.filterMap_cons, taken?, and_assoc]
    cases known first.1 first.2 with
    | error error => exact iff_of_false nofun fun both => Bool.false_ne_true both.1
    | ok found =>
      cases found with
      | none => exact ih.trans (and_iff_right rfl).symm
      | some value =>
        refine Iff.trans ?_ (and_iff_right rfl).symm
        constructor
        · intro reads
          cases later : readEntries known rest with
          | error error => simp [later, Except.map] at reads
          | ok more =>
            rw [later] at reads
            obtain ⟨each, same⟩ := ih.mp later
            exact ⟨each, by rw [same]; exact Except.ok.inj reads⟩
        · rintro ⟨each, rfl⟩
          rw [ih.mpr ⟨each, rfl⟩]
          rfl

private theorem isOk_readEntries_iff :
    (readEntries known entries).isOk = true ↔ ∀ entry ∈ entries, (known entry.1 entry.2).isOk = true := by
  constructor
  · intro reads
    cases found : readEntries known entries with
    | error error => rw [found] at reads; cases reads
    | ok read => exact (readEntries_eq_ok_iff.mp found).1
  · intro each
    rw [readEntries_eq_ok_iff.mpr ⟨each, rfl⟩]
    rfl

private theorem mem_readEntries (reads : readEntries known entries = .ok read) :
    (key, result) ∈ read ↔ ∃ value, (key, value) ∈ entries ∧ known key value = .ok (some result) := by
  obtain ⟨-, rfl⟩ := readEntries_eq_ok_iff.mp reads
  have found (value : Json) : (known key value).toOption.join = some result ↔ known key value = .ok (some result) := by
    cases known key value <;> simp [Except.toOption]
  simp only [List.mem_filterMap, taken?, Option.map_eq_some_iff, Prod.mk.injEq, Prod.exists]
  constructor
  · rintro ⟨_, value, member, _, read, rfl, rfl⟩
    exact ⟨value, member, (found value).mp read⟩
  · rintro ⟨value, member, read⟩
    exact ⟨key, value, member, result, (found value).mpr read, rfl, rfl⟩

private theorem sublist_taken (known : String → Json → Except ShapeError (Option Json))
    (entries : List (String × Json)) :
    ((entries.filterMap (taken? known)).map Prod.fst).Sublist (entries.map Prod.fst) := by
  induction entries with
  | nil => exact .refl _
  | cons first rest ih =>
    rw [List.filterMap_cons]
    cases takes : taken? known first with
    | none => exact ih.cons _
    | some found =>
      obtain ⟨_, -, rfl⟩ := Option.map_eq_some_iff.mp takes
      exact ih.cons_cons _

private theorem readEntries_congr {other : String → Json → Except ShapeError (Option Json)}
    (same : ∀ entry ∈ entries, known entry.1 entry.2 = other entry.1 entry.2) :
    readEntries known entries = readEntries other entries := by
  induction entries with
  | nil => rfl
  | cons first rest ih =>
    obtain ⟨here, later⟩ := List.forall_mem_cons.mp same
    rw [readEntries, readEntries, here, ih later]

/-! ## Records -/

/-- The items of an array are read as if they stood in an object under the names of the fields. -/
theorem readItems_eq (distinct : (fields.map Prod.fst).Nodup) (defaulted : ∀ field ∈ fields, field.2.1 = .defaulted)
    (name : String) (count taken : Nat) (items : List Json) : readItems buffered name count taken fields items =
      (readEntries (readField buffered fields) ((fields.map Prod.fst).zip items)).map (·, items.drop fields.length) := by
  induction fields generalizing taken items with
  | nil => simp [readItems, readEntries, Except.map]
  | cons first rest ih =>
    obtain ⟨key, presence, shape⟩ := first
    obtain ⟨absent, distinct'⟩ := List.nodup_cons.mp distinct
    obtain ⟨missing, defaulted⟩ := List.forall_mem_cons.mp defaulted
    cases items with
    | nil =>
      rw [readItems, if_pos missing, ih distinct' defaulted]
      simp [readEntries, Except.map]
    | cons item items =>
      have here : readField buffered ((key, presence, shape) :: rest) key item =
          (readAs buffered shape item).map some := readField_of_mem distinct List.mem_cons_self item
      have others : readEntries (readField buffered ((key, presence, shape) :: rest)) ((rest.map Prod.fst).zip items) =
          readEntries (readField buffered rest) ((rest.map Prod.fst).zip items) := by
        refine readEntries_congr fun entry member => ?_
        have differs : key ≠ entry.1 := by
          rintro rfl
          exact absent (List.of_mem_zip member).1
        rw [readField, if_neg differs]
      rw [readItems, ih distinct' defaulted, List.map_cons, List.zip_cons_cons, readEntries, here, others]
      cases readAs buffered shape item with
      | error error => rfl
      | ok value => cases readEntries (readField buffered rest) ((rest.map Prod.fst).zip items) <;> rfl

/-- What is read of the entries makes the standard form, in whatever order. -/
theorem readAs_record_eq (buffered : Bool) (distinct : (fields.map Prod.fst).Nodup)
    (defaulted : ∀ field ∈ fields, field.2.1 = .defaulted)
    (name : String) (stands : node.pairs? (fields.map Prod.fst) = some entries) :
    ∃ form : List (String × Json) → List (String × Json),
      (∀ read, (read.map Prod.fst).Nodup → (form read).Perm read) ∧
        readAs buffered (.record name fields) node =
          (readEntries (readField buffered fields) entries).map fun read => .object (form read) := by
  cases node with
  | object found =>
    cases stands
    have whole (read : List (String × Json)) : complete fields read = .ok (.object read) := by
      have none : missing? fields read = none := by
        rw [missing?, Option.map_eq_none_iff, List.find?_eq_none]
        intro field member
        simp [defaulted field member]
      rw [complete, none]
    refine ⟨id, fun _ _ => .refl _, ?_⟩
    rw [readAs]
    cases readEntries (readField buffered fields) entries with
    | error error => rfl
    | ok read => exact whole read
  | array items =>
    rw [Json.pairs?, Option.ite_none_right_eq_some, List.length_map] at stands
    obtain ⟨short, same⟩ := stands
    refine ⟨Entries.ofList, fun _ => Entries.ofList_perm, ?_⟩
    rw [readAs, readItems_eq distinct defaulted, List.drop_of_length_le short, Option.some.inj same]
    cases readEntries (readField buffered fields) entries <;> rfl
  | null | bool | number | string => cases stands

/-- A record all of whose fields may be missing is read field by field. -/
theorem readAs_record (buffered : Bool) (distinct : (fields.map Prod.fst).Nodup)
    (defaulted : ∀ field ∈ fields, field.2.1 = .defaulted)
    (name : String) (stands : node.pairs? (fields.map Prod.fst) = some entries) (unique : (entries.map Prod.fst).Nodup) :
    ((readAs buffered (.record name fields) node).isOk = true ↔
        ∀ entry ∈ entries, (readField buffered fields entry.1 entry.2).isOk = true) ∧
      ∀ standard, readAs buffered (.record name fields) node = .ok standard → ∀ key result,
        standard.field? key = some result ↔
          ∃ value, (key, value) ∈ entries ∧ readField buffered fields key value = .ok (some result) := by
  obtain ⟨form, perm, reads⟩ := readAs_record_eq buffered distinct defaulted name stands
  rw [reads, ← isOk_readEntries_iff]
  cases found : readEntries (readField buffered fields) entries with
  | error error => exact ⟨Iff.rfl, nofun⟩
  | ok read =>
    refine ⟨Iff.rfl, ?_⟩
    rintro _ ⟨⟩ key result
    obtain ⟨-, same⟩ := readEntries_eq_ok_iff.mp found
    have once : (read.map Prod.fst).Nodup := unique.sublist (same ▸ sublist_taken _ entries)
    have formed := perm read once
    rw [← mem_readEntries found, ← formed.mem_iff]
    exact Entries.get?_eq_some_iff ((formed.map Prod.fst).nodup_iff.mpr once)

/-- What a field holds in the standard form: nothing where nothing stands for it, and else what is read of that. -/
inductive Fills (buffered : Bool) (shape : Shape) (entries : List (String × Json)) (standard : Json) (key : String) : Prop
  | missing (absent : Entries.get? entries key = none) (empty : standard.field? key = none)
  | given (value result : Json) (found : Entries.get? entries key = some value)
      (read : readAs buffered shape value = .ok result) (held : standard.field? key = some result)

theorem fills_of_readAs (distinct : (fields.map Prod.fst).Nodup) (defaulted : ∀ field ∈ fields, field.2.1 = .defaulted)
    {name : String} (stands : node.pairs? (fields.map Prod.fst) = some entries) (unique : (entries.map Prod.fst).Nodup)
    {standard : Json} (reads : readAs buffered (.record name fields) node = .ok standard) {presence : Presence}
    {shape : Shape} (member : (key, presence, shape) ∈ fields) : Fills buffered shape entries standard key := by
  obtain ⟨each, reading⟩ := readAs_record buffered distinct defaulted name stands unique
  rw [reads] at each
  cases found : Entries.get? entries key with
  | none =>
    refine .missing found (Option.eq_none_iff_forall_ne_some.mpr fun result holds => ?_)
    obtain ⟨value, among, -⟩ := (reading standard reads key result).mp holds
    cases found.symm.trans ((Entries.get?_eq_some_iff unique).mpr among)
  | some value =>
    have among := (Entries.get?_eq_some_iff unique).mp found
    have ok := each.mp rfl (key, value) among
    rw [readField_of_mem distinct member] at ok
    cases result : readAs buffered shape value with
    | error error => rw [result] at ok; cases ok
    | ok inner =>
      refine .given value inner found result ((reading standard reads key inner).mpr ⟨value, among, ?_⟩)
      rw [readField_of_mem distinct member, result]
      rfl

theorem isOk_readAs_record_iff (buffered : Bool) (distinct : (fields.map Prod.fst).Nodup)
    (defaulted : ∀ field ∈ fields, field.2.1 = .defaulted) (name : String)
    (stands : node.pairs? (fields.map Prod.fst) = some entries) (unique : (entries.map Prod.fst).Nodup) :
    (readAs buffered (.record name fields) node).isOk = true ↔ ∀ field ∈ fields, ∀ value,
      Entries.get? entries field.1 = some value → (readAs buffered field.2.2 value).isOk = true := by
  have ok (shape : Shape) (value : Json) :
      ((readAs buffered shape value).map some).isOk = (readAs buffered shape value).isOk := by
    cases readAs buffered shape value <;> rfl
  rw [(readAs_record buffered distinct defaulted name stands unique).1]
  constructor
  · rintro each ⟨key, presence, shape⟩ member value found
    have read := each (key, value) ((Entries.get?_eq_some_iff unique).mp found)
    rwa [readField_of_mem distinct member, ok] at read
  · rintro each ⟨key, value⟩ among
    by_cases named : key ∈ fields.map Prod.fst
    · obtain ⟨⟨_, presence, shape⟩, member, rfl⟩ := List.mem_map.mp named
      rw [readField_of_mem distinct member, ok]
      exact each _ member value ((Entries.get?_eq_some_iff unique).mpr among)
    · rw [readField_of_not_mem named]
      rfl

private theorem readAs_record_of_none (buffered : Bool) (distinct : (fields.map Prod.fst).Nodup)
    (defaulted : ∀ field ∈ fields, field.2.1 = .defaulted) (name : String)
    (stands : node.pairs? (fields.map Prod.fst) = none) : (readAs buffered (.record name fields) node).isOk = false := by
  cases node with
  | object found => cases stands
  | array items =>
    rw [Json.pairs?, ite_eq_right_iff, List.length_map] at stands
    have long : fields.length < items.length := Nat.lt_of_not_le fun short => Option.some_ne_none _ (stands short)
    obtain ⟨item, left, rest⟩ := List.exists_cons_of_length_pos (List.length_drop ▸ Nat.sub_pos_of_lt long)
    rw [readAs, readItems_eq distinct defaulted, rest]
    cases readEntries (readField buffered fields) ((fields.map Prod.fst).zip items) <;> rfl
  | null | bool | number | string =>
    rw [readAs]
    · rfl
    · exact nofun
    · exact nofun

/-- Only an object, or an array of at most as many items as there are fields, can be read as a record. -/
theorem exists_pairs? (distinct : (fields.map Prod.fst).Nodup) (defaulted : ∀ field ∈ fields, field.2.1 = .defaulted)
    {name : String} {standard : Json} (reads : readAs buffered (.record name fields) node = .ok standard) :
    ∃ entries, node.pairs? (fields.map Prod.fst) = some entries := by
  cases stands : node.pairs? (fields.map Prod.fst) with
  | some entries => exact ⟨entries, rfl⟩
  | none =>
    have fails := readAs_record_of_none buffered distinct defaulted name stands
    rw [reads] at fails
    cases fails

end Shape

end SpecServer
