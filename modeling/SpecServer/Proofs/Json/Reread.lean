import Mathlib.Data.List.DropRight
import SpecServer.Proofs.Json.Numbers
import SpecServer.Proofs.Json.Proper
import SpecServer.Proofs.Json.Strings
set_option autoImplicit false

/-!
A document that is written with one entry a line is read back, if no more containers lie within each other than the reader
allows. Only floating-point numbers may come back as others.
-/

namespace SpecServer.Json

/-! ## Nesting and floating-point numbers of a document -/

mutual

/-- How many containers lie within each other. -/
def depth : Json → Nat
  | array items => itemsDepth items + 1
  | object fields => fieldsDepth fields + 1
  | _ => 0

def itemsDepth : List Json → Nat
  | [] => 0
  | item :: rest => max (depth item) (itemsDepth rest)

def fieldsDepth : List (String × Json) → Nat
  | [] => 0
  | (_, value) :: rest => max (depth value) (fieldsDepth rest)

end

mutual

/-- The document with other floating-point numbers. -/
def mapFloats (change : Decimal.Binary64 → Decimal.Binary64) : Json → Json
  | number (.float x) => number (.float (change x))
  | array items => array (mapItems change items)
  | object fields => object (mapFields change fields)
  | document => document

def mapItems (change : Decimal.Binary64 → Decimal.Binary64) : List Json → List Json
  | [] => []
  | item :: rest => mapFloats change item :: mapItems change rest

def mapFields (change : Decimal.Binary64 → Decimal.Binary64) : List (String × Json) → List (String × Json)
  | [] => []
  | (key, value) :: rest => (key, mapFloats change value) :: mapFields change rest

end

variable {change : Decimal.Binary64 → Decimal.Binary64} {items : List Json} {fields : List (String × Json)}
  {document : Json} {rest text : List Char} {fuel bound level : Nat} {c : Char} {key : String}

theorem mapFields_eq_map (change : Decimal.Binary64 → Decimal.Binary64) (fields : List (String × Json)) :
    mapFields change fields = fields.map fun field => (field.1, mapFloats change field.2) := by
  induction fields with
  | nil => rfl
  | cons field rest ih => rw [mapFields, ih, List.map_cons]

private theorem itemsDepth_le_iff : itemsDepth items ≤ bound ↔ ∀ item ∈ items, item.depth ≤ bound := by
  induction items with
  | nil => simp [itemsDepth]
  | cons item rest ih => rw [itemsDepth, Nat.max_le, ih, List.forall_mem_cons]

private theorem fieldsDepth_le_iff : fieldsDepth fields ≤ bound ↔ ∀ field ∈ fields, field.2.depth ≤ bound := by
  induction fields with
  | nil => simp [fieldsDepth]
  | cons field rest ih => rw [fieldsDepth, Nat.max_le, ih, List.forall_mem_cons]

/-! ## Numbers -/

/-- The number that the text of a floating-point number is read as. -/
def reread (x : Decimal.Binary64) : Decimal.Binary64 :=
  match Json.document (numberText (.float x)) with
  | .ok (number (.float y)) => y
  | _ => x

def rereadNumber : Number → Number
  | .integer n => .integer n
  | .float x => .float (reread x)

private theorem skipSpaces_cons (solid : isSpace c = false) (text : List Char) :
    skipSpaces (c :: text) = c :: text := by
  rw [skipSpaces, List.dropWhile_cons_of_neg (by simp [solid])]

private theorem value_minus (fuel bound : Nat) (text : List Char) :
    value fuel bound ('-' :: text) = (readNumber true text).map fun (n, after) => (.number n, after) := by
  rw [value, skipSpaces_cons rfl]
  rfl

private theorem isSpace_of_isDigit (digit : isDigit c = true) : isSpace c = false := by
  by_contra space
  simp only [isSpace, Bool.not_eq_false, Bool.or_eq_true, beq_iff_eq] at space
  rcases space with ((rfl | rfl) | rfl) | rfl <;> cases digit

private theorem value_of_readNumber {n : Number} (read : readNumber false text = .ok (n, rest)) (fuel bound : Nat) :
    value fuel bound text = .ok (.number n, rest) := by
  obtain ⟨c, after, rfl, digit⟩ := isDigit_of_readNumber read
  rw [value, skipSpaces_cons (isSpace_of_isDigit digit)]
  split
  next same => cases same
  -- no word, string, container or negative number starts with a digit
  iterate 7 next same => cases same; cases digit
  next same =>
    cases same
    rw [if_pos digit, read]
    rfl

private theorem value_integerText {n : Int} (fits : (Number.integer n).Fits) (fuel bound : Nat) (stops : Stops rest) :
    value fuel bound (integerText n ++ rest) = .ok (.number (.integer n), rest) := by
  obtain ⟨least, most⟩ := fits
  have small : n.natAbs < 2 ^ 64 := by omega
  rw [integerText]
  split
  next below =>
    have signed : signedNumber true n.natAbs = .integer n := by
      have room : 0 < n.natAbs ∧ n.natAbs ≤ Nat.pow 2 63 := ⟨by omega, show n.natAbs ≤ 2 ^ 63 by omega⟩
      simp only [signedNumber, Bool.not_true, Bool.false_eq_true, ↓reduceIte, if_pos room, Number.integer.injEq]
      omega
    rw [List.cons_append, value_minus, readNumber_toDigits small stops, signed]
    rfl
  next above =>
    have unsigned : signedNumber false n.natAbs = .integer n := by
      simp only [signedNumber, Bool.not_false, ↓reduceIte, Number.integer.injEq]
      omega
    exact value_of_readNumber (unsigned ▸ readNumber_toDigits small stops false) fuel bound

private theorem value_floatText (x : Decimal.Binary64) (fuel bound : Nat) (stops : Stops rest) :
    value fuel bound (numberText (.float x) ++ rest) = .ok (.number (.float (reread x)), rest) := by
  obtain ⟨text, y, written, read⟩ := readNumber_write x
  have found : ∀ fuel bound rest, Stops rest →
      value fuel bound (numberText (.float x) ++ rest) = .ok (.number (.float y), rest) := by
    intro fuel bound rest stops
    rw [numberText, written]
    cases sign : x.negative with
    | true =>
      rw [sign] at read
      simp only [↓reduceIte, List.cons_append, List.nil_append, value_minus, read rest stops]
      rfl
    | false =>
      rw [sign] at read
      exact value_of_readNumber (read rest stops) fuel bound
  have same : reread x = y := by
    have whole := found ((numberText (.float x)).length + 1) depthLimit [] nofun
    rw [List.append_nil] at whole
    rw [reread, Json.document, whole]
    rfl
  rw [same]
  exact found fuel bound rest stops

private theorem value_numberText {n : Number} (fits : n.Fits) (fuel bound : Nat) (stops : Stops rest) :
    value fuel bound (numberText n ++ rest) = .ok (.number (rereadNumber n), rest) := by
  cases n with
  | integer n => exact value_integerText fits fuel bound stops
  | float x => exact value_floatText x fuel bound stops

/-! ## Spaces between the parts -/

private theorem skipSpaces_newLine (level : Nat) (text : List Char) :
    skipSpaces (newLine level ++ text) = skipSpaces text := by
  refine List.dropWhile_append_of_pos fun c member => ?_
  rcases List.mem_cons.mp member with rfl | space
  · rfl
  · rw [List.eq_of_mem_replicate space]
    rfl

private theorem value_skipSpaces (fuel bound : Nat) (text : List Char) :
    value fuel bound (skipSpaces text) = value fuel bound text := by
  have twice : skipSpaces (skipSpaces text) = skipSpaces text := List.dropWhile_idempotent isSpace text
  rw [value, twice, value]

private theorem value_newLine (fuel bound level : Nat) (text : List Char) :
    value fuel bound (newLine level ++ text) = value fuel bound text := by
  rw [← value_skipSpaces, skipSpaces_newLine, value_skipSpaces]

private theorem start_of_value {found : Json × List Char} (read : value fuel bound text = .ok found) :
    ∃ c after, skipSpaces text = c :: after ∧ c ≠ ']' := by
  cases start : skipSpaces text with
  | nil =>
    rw [value, start] at read
    cases read
  | cons c after =>
    refine ⟨c, after, rfl, ?_⟩
    rintro rfl
    rw [value, start] at read
    cases read

private theorem stops_newLine (level : Nat) (text : List Char) : Stops (newLine level ++ text) :=
  Text.endsRun_cons rfl _

/-! ## Lists -/

private theorem items_of_value {item : Json} (read : value fuel bound text = .ok (item, rest)) (limit : Nat) :
    Json.items (value fuel bound) limit text = itemsFrom (value fuel bound) limit [item] rest := by
  obtain ⟨c, after, start, open_⟩ := start_of_value read
  rw [← value_skipSpaces, start] at read
  rw [Json.items, start]
  split
  next same => cases same
  next same => exact absurd (List.cons.inj same).1 open_
  next => rw [read]

private theorem itemsFrom_of_value {item : Json} (read : value fuel bound text = .ok (item, rest)) (limit : Nat)
    (before : List Json) :
    itemsFrom (value fuel bound) (limit + 1) before (',' :: text) =
      itemsFrom (value fuel bound) limit (item :: before) rest := by
  obtain ⟨c, after, start, open_⟩ := start_of_value read
  rw [← value_skipSpaces, start] at read
  rw [itemsFrom, skipSpaces_cons rfl]
  simp only [start]
  split
  next same => cases same
  next same => exact absurd (List.cons.inj same).1 open_
  next => rw [read]

/-- Whether a document is read back from its text at a level, whatever follows it. -/
def Returns (fuel bound level : Nat) (document : Json) : Prop :=
  ∀ rest, Stops rest → value fuel bound (pretty level document ++ rest) = .ok (document.mapFloats reread, rest)

private theorem stops_prettyItems (level : Nat) (items : List Json) (stops : Stops rest) :
    Stops (prettyItems level items ++ rest) := by
  cases items with
  | nil => exact stops
  | cons item items => exact Text.endsRun_cons rfl _

private theorem itemsFrom_prettyItems (each : ∀ item ∈ items, Returns fuel bound level item) {limit : Nat}
    (enough : items.length < limit) (before : List Json) (base : Nat) (rest : List Char) :
    itemsFrom (value fuel bound) limit before (prettyItems level items ++ (newLine base ++ ']' :: rest)) =
      .ok (.array (before.reverse ++ mapItems reread items), rest) := by
  induction items generalizing limit before with
  | nil =>
    obtain ⟨limit, rfl⟩ := Nat.exists_eq_add_of_lt enough
    rw [prettyItems, List.nil_append, itemsFrom, skipSpaces_newLine, mapItems, List.append_nil]
    rfl
  | cons item items ih =>
    obtain ⟨first, later⟩ := List.forall_mem_cons.mp each
    obtain ⟨limit, rfl⟩ := Nat.exists_eq_succ_of_ne_zero (Nat.ne_of_gt (Nat.zero_lt_of_lt enough))
    have read := first _ (stops_prettyItems level items (stops_newLine base (']' :: rest)))
    rw [← value_newLine fuel bound level] at read
    have ended := ih later (Nat.lt_of_succ_lt_succ enough) (item.mapFloats reread :: before)
    rw [← itemsFrom_of_value read] at ended
    simpa [prettyItems, mapItems] using ended

/-! ## Objects -/

private theorem field_of_value {found : Json} (read : value fuel bound text = .ok (found, rest)) {limit : Nat}
    (enough : (stringText key).length ≤ limit) :
    ∃ start, stringText key ++ ':' :: ' ' :: text = '\x22' :: start ∧
      field (value fuel bound) limit start = .ok ((key, found), rest) := by
  obtain ⟨start, written, name⟩ := stringFrom_stringText enough (':' :: ' ' :: text)
  have spaced : value fuel bound (' ' :: text) = .ok (found, rest) := by
    rw [← value_skipSpaces] at read ⊢
    exact read
  refine ⟨start, written, ?_⟩
  simp only [field, name, skipSpaces_cons (show isSpace ':' = false from rfl), spaced]

private theorem fields_of_value {found : Json} (read : value fuel bound text = .ok (found, rest)) {limit : Nat}
    (enough : (stringText key).length ≤ limit) (level : Nat) :
    Json.fields (value fuel bound) limit (newLine level ++ (stringText key ++ ':' :: ' ' :: text)) =
      fieldsFrom (value fuel bound) limit limit [(key, found)] rest := by
  obtain ⟨start, written, name⟩ := field_of_value read enough
  rw [Json.fields, skipSpaces_newLine, written, skipSpaces_cons rfl]
  simp only [name]
  rfl

private theorem fieldsFrom_of_value {found : Json} (read : value fuel bound text = .ok (found, rest)) {limit : Nat}
    (enough : (stringText key).length ≤ limit) (level steps : Nat) (before : Entries String Json) :
    fieldsFrom (value fuel bound) limit (steps + 1) before
        (',' :: (newLine level ++ (stringText key ++ ':' :: ' ' :: text))) =
      fieldsFrom (value fuel bound) limit steps (before.put key found) rest := by
  obtain ⟨start, written, name⟩ := field_of_value read enough
  rw [fieldsFrom, skipSpaces_cons rfl]
  simp only [skipSpaces_newLine, written, skipSpaces_cons (show isSpace '\x22' = false from rfl), name]

private theorem stops_prettyFields (level : Nat) (fields : List (String × Json)) (stops : Stops rest) :
    Stops (prettyFields level fields ++ rest) := by
  cases fields with
  | nil => exact stops
  | cons field fields => exact Text.endsRun_cons rfl _

/-- The fields after the first one are read up to the end of the object. Their keys ascend, so each is stored at the end. -/
theorem fieldsFrom_prettyFields (each : ∀ field ∈ fields, Returns fuel bound level field.2) {limit steps : Nat}
    (keys : ∀ field ∈ fields, (stringText field.1).length ≤ limit) (enough : fields.length < steps)
    (before : Entries String Json) (ascending : (before.map Prod.fst ++ fields.map Prod.fst).Pairwise (· < ·))
    (base : Nat) (rest : List Char) :
    fieldsFrom (value fuel bound) limit steps before (prettyFields level fields ++ (newLine base ++ '\x7d' :: rest)) =
      .ok (.object (before ++ mapFields reread fields), rest) := by
  induction fields generalizing steps before with
  | nil =>
    obtain ⟨steps, rfl⟩ := Nat.exists_eq_add_of_lt enough
    rw [prettyFields, List.nil_append, fieldsFrom, skipSpaces_newLine, mapFields, List.append_nil]
    rfl
  | cons field fields ih =>
    obtain ⟨key, content⟩ := field
    obtain ⟨first, later⟩ := List.forall_mem_cons.mp each
    obtain ⟨short, shorter⟩ := List.forall_mem_cons.mp keys
    obtain ⟨steps, rfl⟩ := Nat.exists_eq_succ_of_ne_zero (Nat.ne_of_gt (Nat.zero_lt_of_lt enough))
    have above : ∀ entry ∈ before, entry.1 < key := by
      intro entry member
      exact (List.pairwise_append.mp ascending).2.2 _ (List.mem_map_of_mem member) key List.mem_cons_self
    have read := first _ (stops_prettyFields level fields (stops_newLine base ('\x7d' :: rest)))
    have stored : before.put key (content.mapFloats reread) = before ++ [(key, content.mapFloats reread)] :=
      Entries.put_above above
    have ended := ih later shorter (Nat.lt_of_succ_lt_succ enough) (before ++ [(key, content.mapFloats reread)])
      (by simpa using ascending)
    rw [← stored, ← fieldsFrom_of_value read short level steps before] at ended
    simpa [prettyFields, mapFields, stored] using ended

/-! ## Documents -/

private theorem length_prettyItems (level : Nat) (items : List Json) :
    items.length ≤ (prettyItems level items).length ∧
      ∀ item ∈ items, (pretty level item).length ≤ (prettyItems level items).length := by
  induction items with
  | nil => exact ⟨Nat.le_refl _, nofun⟩
  | cons item items ih =>
    obtain ⟨count, each⟩ := ih
    simp only [prettyItems, List.length_append, List.length_cons, List.forall_mem_cons]
    exact ⟨by omega, by omega, fun other member => Nat.le_trans (each other member) (by omega)⟩

private theorem length_prettyFields (level : Nat) (fields : List (String × Json)) :
    fields.length ≤ (prettyFields level fields).length ∧
      (∀ field ∈ fields, (pretty level field.2).length ≤ (prettyFields level fields).length) ∧
        ∀ field ∈ fields, (stringText field.1).length ≤ (prettyFields level fields).length := by
  induction fields with
  | nil => exact ⟨Nat.le_refl _, nofun, nofun⟩
  | cons field fields ih =>
    obtain ⟨count, each, keys⟩ := ih
    simp only [prettyFields, List.length_append, List.length_cons, List.forall_mem_cons]
    exact ⟨by omega, ⟨by omega, fun other member => Nat.le_trans (each other member) (by omega)⟩,
      by omega, fun other member => Nat.le_trans (keys other member) (by omega)⟩

/-- Every document that texts hold is read back from its text at each level. -/
theorem Proper.returns (proper : document.Proper) (level : Nat) (shallow : document.depth ≤ bound)
    (enough : (pretty level document).length < fuel) : Returns fuel bound level document := by
  -- the fuel stays the same further in: it only has to exceed the length of each part
  induction proper generalizing bound level with
  | null =>
    intro rest _
    rw [value]
    rfl
  | bool b =>
    intro rest _
    cases b <;> (rw [value]; rfl)
  | number n fits =>
    intro rest stops
    have read := value_numberText fits fuel bound stops
    cases n <;> exact read
  | string s =>
    intro rest _
    rw [pretty] at enough
    obtain ⟨text, written, read⟩ := stringFrom_stringText (Nat.le_of_lt enough) rest
    rw [pretty, written, value, skipSpaces_cons rfl]
    simp only [read]
    rfl
  | array items each ih =>
    intro rest _
    rw [depth] at shallow
    obtain ⟨bound, rfl⟩ := Nat.exists_eq_succ_of_ne_zero (Nat.ne_of_gt (Nat.zero_lt_of_lt shallow))
    have inner := itemsDepth_le_iff.mp (Nat.le_of_succ_le_succ shallow)
    cases items with
    | nil =>
      rw [value]
      rfl
    | cons item items =>
      obtain ⟨count, lengths⟩ := length_prettyItems (level + 1) items
      simp only [pretty, List.length_append, List.length_cons] at enough
      have returns : ∀ other ∈ items, Returns fuel bound (level + 1) other := fun other member =>
        ih other (List.mem_cons_of_mem _ member) (level + 1) (inner other (List.mem_cons_of_mem _ member))
          (Nat.lt_of_le_of_lt (lengths other member) (by omega))
      have first := ih item List.mem_cons_self (level + 1) (inner item List.mem_cons_self) (by omega)
        (prettyItems (level + 1) items ++ (newLine level ++ ']' :: rest))
        (stops_prettyItems _ items (stops_newLine level _))
      rw [← value_newLine fuel bound (level + 1)] at first
      have whole := items_of_value first fuel
      rw [itemsFrom_prettyItems returns (by omega)] at whole
      rw [value]
      simpa [pretty, skipSpaces_cons (show isSpace '[' = false from rfl), mapFloats, mapItems] using whole
  | object fields ascending each ih =>
    intro rest _
    rw [depth] at shallow
    obtain ⟨bound, rfl⟩ := Nat.exists_eq_succ_of_ne_zero (Nat.ne_of_gt (Nat.zero_lt_of_lt shallow))
    have inner := fieldsDepth_le_iff.mp (Nat.le_of_succ_le_succ shallow)
    cases fields with
    | nil =>
      rw [value]
      rfl
    | cons field fields =>
      obtain ⟨key, content⟩ := field
      obtain ⟨count, lengths, keys⟩ := length_prettyFields (level + 1) fields
      simp only [pretty, List.length_append, List.length_cons] at enough
      have returns : ∀ other ∈ fields, Returns fuel bound (level + 1) other.2 := fun other member =>
        ih other (List.mem_cons_of_mem _ member) (level + 1) (inner other (List.mem_cons_of_mem _ member))
          (Nat.lt_of_le_of_lt (lengths other member) (by omega))
      have first := ih (key, content) List.mem_cons_self (level + 1) (inner _ List.mem_cons_self) (by simp only; omega)
        (prettyFields (level + 1) fields ++ (newLine level ++ '\x7d' :: rest))
        (stops_prettyFields _ fields (stops_newLine level _))
      have short : (stringText key).length ≤ fuel := by omega
      have shorter : ∀ other ∈ fields, (stringText other.1).length ≤ fuel :=
        fun other member => Nat.le_trans (keys other member) (by omega)
      have whole := fields_of_value first short (level + 1)
      rw [fieldsFrom_prettyFields returns shorter (by omega) [(key, content.mapFloats reread)] ascending] at whole
      rw [value]
      simpa [pretty, skipSpaces_cons (show isSpace '\x7b' = false from rfl), mapFloats, mapFields] using whole

/-- A document that is written as text is read back, but for its floating-point numbers. -/
theorem read_renderPretty (proper : document.Proper) (shallow : document.depth ≤ depthLimit) :
    read (renderPretty document) = .ok (document.mapFloats reread) := by
  have whole : Json.document (pretty 0 document) = .ok (document.mapFloats reread) := by
    have returned := proper.returns 0 shallow (Nat.lt_succ_self _) [] nofun
    rw [List.append_nil] at returned
    rw [Json.document, returned]
    rfl
  rw [read, renderPretty, String.toList_ofList, whole]

end SpecServer.Json
