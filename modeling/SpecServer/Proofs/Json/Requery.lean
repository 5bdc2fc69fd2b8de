import SpecServer.Proofs.Json.Display
import SpecServer.Proofs.Json.Query
import SpecServer.Proofs.Uri.Address
import SpecServer.Proofs.Uri.Authority
set_option autoImplicit false

/-!
The text of a path as a path expression. It leads back to the node at the path unless a key has a quote, which is read
with its escape, or a closing bracket, which is taken for the end of the key.
-/

namespace SpecServer

namespace Text

variable {text : List Char} {c : Char}

private theorem mem_of_mem_trim (member : c ∈ trim text) : c ∈ text := by
  have front := List.mem_reverse.mp member
  have back := List.mem_reverse.mp (List.dropWhile_subset _ front)
  exact List.dropWhile_subset _ back

private theorem trim_cons (plain : isBlank c = false) (text : List Char) : ∃ rest, trim (c :: text) = c :: rest := by
  rw [trim, trimStart, List.dropWhile_cons_of_neg (by simpa using plain), dropEndWhile, List.reverse_cons,
    List.dropWhile_append]
  split
  · rw [List.dropWhile_cons_of_neg (by simpa using plain)]
    exact ⟨[], rfl⟩
  · rw [List.reverse_append]
    exact ⟨_, rfl⟩

private theorem trim_eq_self (first : ∀ c ∈ text.head?, isBlank c = false)
    (last : ∀ c ∈ text.getLast?, isBlank c = false) :
    trim text = text := by
  have kept : ∀ {run : List Char}, (∀ c ∈ run.head?, isBlank c = false) → run.dropWhile isBlank = run := by
    intro run plain
    cases run with
    | nil => rfl
    | cons c run => rw [List.dropWhile_cons_of_neg (by simpa using plain c rfl)]
  rw [trim, trimStart, kept first, dropEndWhile, kept, List.reverse_reverse]
  rwa [List.head?_reverse]

end Text

/-- An index is written in digits, which are read back if it has 64 bits. -/
theorem Decimal.index?_toDigits (i : Nat) : index? (Nat.toDigits 10 i) = if i < bound64 then some i else none := by
  obtain ⟨digit, digits, written⟩ := List.exists_cons_of_ne_nil (Nat.toDigits_ne_nil (n := i) (b := 10))
  have first := Path.isDigit_toDigits i digit (written ▸ List.mem_cons_self)
  have unsigned : digit ≠ '+' := by
    rintro rfl
    cases first
  have value : digits? 10 (Nat.toDigits 10 i) = some i := digits?_toDigits (by decide) (by decide) i
  rw [written] at value ⊢
  rw [index?, natural?]
  · simp only [value, Option.filter_some, decide_eq_true_eq]
  · intro rest same
    exact unsigned (List.cons.inj same).1

def Segment.selector : Segment → Selector
  | .key name => .key name
  | .index i => .index i

/-- Whether the text of a segment is read as the segment. -/
def Segment.Legible : Segment → Prop
  | .key name => '\x27' ∉ name.toList ∧ ']' ∉ name.toList
  | .index i => i < Decimal.bound64

namespace Query

open SpecServer.Path

variable {path : Path} {name rest token inner : List Char} {segment : Segment} {fuel : Nat}
  {selectors : List Selector} {document node : Json}

/-! ## Reading a segment -/

private theorem selectorsFrom?_bracket (absent : ']' ∉ token) (fuel : Nat) (rest : List Char) :
    selectorsFrom? (fuel + 1) ('[' :: (token ++ ']' :: rest)) =
      (bracketed? token).bind fun selector => (selectorsFrom? fuel rest).map (selector :: ·) := by
  simp only [selectorsFrom?, Text.splitOnce_append absent]
  cases bracketed? token <;> rfl

private theorem bracketed?_quoted (name : List Char) :
    bracketed? ('\x27' :: (name ++ ['\x27'])) = some (.key (String.ofList name)) := by
  have trimmed : Text.trim ('\x27' :: (name ++ ['\x27'])) = '\x27' :: (name ++ ['\x27']) := by
    apply Text.trim_eq_self
    · intro c first
      cases first
      rfl
    · intro c last
      rw [← List.cons_append, List.getLast?_concat] at last
      cases last
      rfl
  have between : unquote? ('\x27' :: (name ++ ['\x27'])) = some name := by
    rw [unquote?, if_pos (.inl rfl), Text.before?_eq_some_iff]
  rw [bracketed?, trimmed, between]
  simp

/-- A text that starts with a quote is read as a key, if at all, and the key has no character that the text has not. -/
theorem bracketed?_open {selector : Selector} (read : bracketed? ('\x27' :: inner) = some selector) :
    ∃ name : List Char, selector = .key (String.ofList name) ∧ ∀ c ∈ name, c ∈ '\x27' :: inner := by
  obtain ⟨trimmed, shape⟩ := Text.trim_cons (c := '\x27') rfl inner
  have inside : ∀ c ∈ trimmed, c ∈ '\x27' :: inner := fun c member =>
    Text.mem_of_mem_trim (shape ▸ List.mem_cons_of_mem _ member)
  rw [bracketed?, shape, if_neg (by simp)] at read
  split at read
  next name between =>
    cases read
    rw [unquote?, if_pos (.inl rfl), Text.before?_eq_some_iff] at between
    exact ⟨name, rfl, fun c member => inside c (between ▸ List.mem_append_left _ member)⟩
  next =>
    have refused : Decimal.index? ('\x27' :: trimmed) = none := rfl
    rw [refused] at read
    cases read

private theorem bracketed?_index (i : Nat) :
    bracketed? (Nat.toDigits 10 i) = if i < Decimal.bound64 then some (.index i) else none := by
  have digits := isDigit_toDigits i
  have solid : ∀ c ∈ Nat.toDigits 10 i, Text.isBlank c = false := by
    intro c member
    obtain ⟨d, small, rfl⟩ := Uri.mem_toDigits (by decide) member
    exact (by decide : ∀ d < 10, Text.isBlank (Nat.digitChar d) = false) d small
  have trimmed : Text.trim (Nat.toDigits 10 i) = Nat.toDigits 10 i :=
    Text.trim_eq_self (fun c first => solid c (List.mem_of_mem_head? first))
      fun c last => solid c (List.mem_of_mem_getLast? last)
  obtain ⟨digit, more, written⟩ := List.exists_cons_of_ne_nil (Nat.toDigits_ne_nil (n := i) (b := 10))
  have first := digits digit (written ▸ List.mem_cons_self)
  have unquoted : unquote? (Nat.toDigits 10 i) = none := by
    rw [written, unquote?, if_neg]
    rintro (rfl | rfl) <;> cases first
  have literal : Nat.toDigits 10 i ≠ ['*'] := by
    intro same
    rw [written] at same
    cases same
    cases first
  rw [bracketed?, trimmed, if_neg literal, unquoted, Decimal.index?_toDigits]
  exact apply_ite (Option.map Selector.index) _ _ _

/-! ## Reading the text of a path -/

/-- A legible segment is read as the selector that lets only this segment pass. -/
theorem selectorsFrom?_legible (legible : segment.Legible) (fuel : Nat) (path : Path) :
    selectorsFrom? (fuel + 1) (segmentText segment ++ path.spelled) =
      (selectorsFrom? fuel path.spelled).map (segment.selector :: ·) := by
  cases segment with
  | index i =>
    have small : i < Decimal.bound64 := legible
    rw [segmentText_index, selectorsFrom?_bracket, bracketed?_index, if_pos small]
    · rfl
    · intro member
      cases isDigit_toDigits i _ member
  | key name =>
    cases bare : isIdentifier name.toList with
    | false =>
      have token : closed name.toList path.spelled = name.toList ++ ['\x27'] ++ ']' :: path.spelled := by
        rw [closed, escaped_eq_self_iff.mpr legible.1]
        simp
      rw [segmentText_quoted bare, token, ← List.cons_append, selectorsFrom?_bracket, bracketed?_quoted,
        String.ofList_toList]
      · rfl
      · simpa using legible.2
    | true =>
      have named : ∀ c ∈ name.toList, !endsName c := by
        intro c member
        have continues := continuesIdentifier_of_mem bare member
        by_cases ends : endsName c
        · simp only [endsName, Bool.or_eq_true, beq_iff_eq] at ends
          rcases ends with rfl | rfl <;> cases continues
        · simpa using ends
      have stops : Text.EndsRun (!endsName ·) path.spelled := by
        intro c found
        rcases spelled_head path c found with rfl | rfl <;> rfl
      obtain ⟨taken, dropped⟩ := Text.takeWhile_run named stops
      rw [segmentText_identifier bare, List.cons_append, Segment.selector, ← String.ofList_toList (s := name)]
      generalize name.toList = letters at bare taken dropped ⊢
      rw [String.toList_ofList]
      cases letters with
      | nil => cases bare
      | cons c letters =>
        have literal : c ≠ '*' := by
          rintro rfl
          cases bare
        rw [List.cons_append] at taken dropped ⊢
        rw [selectorsFrom?]
        · simp only [taken, dropped]
        · intro rest same
          exact literal (List.cons.inj same).1

/-- What an illegible segment is read as does not let the segment pass. -/
theorem selectorsFrom?_illegible (illegible : ¬segment.Legible) (rest : List Char)
    (read : selectorsFrom? fuel (segmentText segment ++ rest) = some selectors) :
    ∃ first more, selectors = first :: more ∧ ¬first.Admits segment := by
  cases fuel with
  | zero =>
    rw [selectorsFrom?, if_neg] at read
    · cases read
    · simp [segmentText_ne_nil segment]
  | succ fuel =>
    cases segment with
    | index i =>
      have large : ¬i < Decimal.bound64 := illegible
      rw [segmentText_index, selectorsFrom?_bracket, bracketed?_index, if_neg large] at read
      · cases read
      · intro member
        cases isDigit_toDigits i _ member
    | key name =>
      have differs : ∀ {label : List Char}, String.ofList label ≠ name →
          ¬(Selector.key (String.ofList label)).Admits (.key name) :=
        fun apart same => apart (Segment.key.inj same).symm
      cases bare : isIdentifier name.toList with
      | true =>
        refine absurd ?_ illegible
        constructor <;> exact fun member => nomatch continuesIdentifier_of_mem bare member
      | false =>
        rw [segmentText_quoted bare] at read
        by_cases bracket : ']' ∈ name.toList
        · -- the key is taken to end at its first bracket
          obtain ⟨front, back, split, absent⟩ := List.eq_append_cons_of_mem bracket
          have open' : ']' ∉ '\x27' :: escaped front := by
            simpa [mem_escaped] using absent
          have token : closed name.toList rest = escaped front ++ ']' :: (escaped back ++ '\x27' :: ']' :: rest) := by
            rw [closed, split, escaped_append, escaped_cons (by decide), List.append_assoc, List.cons_append]
          rw [token, ← List.cons_append, selectorsFrom?_bracket open'] at read
          obtain ⟨selector, first, further⟩ := Option.bind_eq_some_iff.mp read
          obtain ⟨more, -, rfl⟩ := Option.map_eq_some_iff.mp further
          obtain ⟨label, rfl, inside⟩ := bracketed?_open first
          refine ⟨_, more, rfl, differs ?_⟩
          rintro rfl
          rw [String.toList_ofList] at bracket
          exact open' (inside _ bracket)
        · have quote : '\x27' ∈ name.toList := by
            by_contra absent
            exact illegible ⟨absent, bracket⟩
          have token : closed name.toList rest = escaped name.toList ++ ['\x27'] ++ ']' :: rest := by
            rw [closed]
            simp
          have closes : ']' ∉ '\x27' :: (escaped name.toList ++ ['\x27']) := by
            simpa [mem_escaped] using bracket
          rw [token, ← List.cons_append, selectorsFrom?_bracket closes, bracketed?_quoted, Option.bind_some] at read
          obtain ⟨more, -, rfl⟩ := Option.map_eq_some_iff.mp read
          refine ⟨_, more, rfl, differs fun same => ?_⟩
          have unchanged : escaped name.toList = name.toList := by
            simpa using congrArg String.toList same
          exact escaped_eq_self_iff.mp unchanged quote

/-- The text of a path with legible segments is read as the selectors of the segments. -/
theorem selectorsFrom?_spelled (legible : ∀ segment ∈ path, segment.Legible) (enough : path.length ≤ fuel) :
    selectorsFrom? fuel path.spelled = some (path.map Segment.selector) := by
  induction path generalizing fuel with
  | nil => cases fuel <;> rfl
  | cons segment path ih =>
    obtain ⟨first, later⟩ := List.forall_mem_cons.mp legible
    cases fuel with
    | zero => cases enough
    | succ fuel =>
      rw [spelled_cons, selectorsFrom?_legible first, ih later (Nat.le_of_succ_le_succ enough)]
      rfl

/-- Selectors that are read from the text of a path and let its segments pass show that all segments are legible. -/
theorem legible_of_admits (read : selectorsFrom? fuel path.spelled = some selectors)
    (admitted : List.Forall₂ Selector.Admits selectors path) : ∀ segment ∈ path, segment.Legible := by
  induction path generalizing fuel selectors with
  | nil => nofun
  | cons segment path ih =>
    rw [spelled_cons] at read
    have first : segment.Legible := by
      by_contra illegible
      obtain ⟨selector, more, rfl, refused⟩ := selectorsFrom?_illegible illegible _ read
      cases admitted with
      | cons passes _ => exact refused passes
    cases fuel with
    | zero =>
      rw [selectorsFrom?, if_neg] at read
      · cases read
      · simp [segmentText_ne_nil segment]
    | succ fuel =>
      rw [selectorsFrom?_legible first] at read
      obtain ⟨more, further, rfl⟩ := Option.map_eq_some_iff.mp read
      cases admitted with
      | cons _ rest => exact List.forall_mem_cons.mpr ⟨first, ih further rest⟩

private theorem length_le_spelled (path : Path) : path.length ≤ path.spelled.length := by
  induction path with
  | nil => exact Nat.le_refl 0
  | cons segment path ih =>
    have some := List.length_pos_of_ne_nil (segmentText_ne_nil segment)
    rw [spelled_cons, List.length_append, List.length_cons]
    omega

private theorem solid_of_continuesIdentifier {c : Char} (continues : continuesIdentifier c = true) :
    Text.isBlank c = false := by
  have range : 48 ≤ c.toNat ∧ c.toNat ≤ 122 := by
    simp only [continuesIdentifier, startsIdentifier, Bool.or_eq_true, Bool.and_eq_true, decide_eq_true_eq, beq_iff_eq,
      Char.le_def, UInt32.le_iff_toNat_le] at continues
    rcases continues with ((⟨low, high⟩ | ⟨low, high⟩) | rfl) | ⟨low, high⟩
    · exact ⟨Nat.le_trans (by decide) low, high⟩
    · exact ⟨Nat.le_trans (by decide) low, Nat.le_trans high (by decide)⟩
    · decide
    · exact ⟨low, Nat.le_trans high (by decide)⟩
  simp only [Text.isBlank, Bool.or_eq_false_iff, Bool.and_eq_false_iff, decide_eq_false_iff_not, beq_eq_false_iff_ne]
  omega

private theorem solid_segmentText (segment : Segment) :
    ∀ c ∈ (segmentText segment).getLast?, Text.isBlank c = false := by
  intro c last
  cases segment with
  | index i =>
    rw [segmentText, List.getLast?_concat] at last
    cases last
    rfl
  | key name =>
    cases bare : isIdentifier name.toList with
    | true =>
      rw [segmentText_identifier bare] at last
      rcases List.mem_cons.mp (List.mem_of_mem_getLast? last) with rfl | member
      · rfl
      · exact solid_of_continuesIdentifier (continuesIdentifier_of_mem bare member)
    | false =>
      rw [segmentText, if_neg (by simp [bare]), List.append_cons, List.getLast?_concat] at last
      cases last
      rfl

private theorem parse?_display (path : Path) :
    parse? path.display = selectorsFrom? path.spelled.length path.spelled := by
  have trimmed : Text.trim ('$' :: path.spelled) = '$' :: path.spelled := by
    apply Text.trim_eq_self
    · intro c first
      cases first
      rfl
    · intro c last
      rcases List.eq_nil_or_concat path with rfl | ⟨front, segment, rfl⟩
      · cases last
        rfl
      · apply solid_segmentText segment
        have split : '$' :: spelled (front.concat segment) = ('$' :: spelled front) ++ segmentText segment := by
          simp [spelled]
        rwa [split, List.getLast?_append_of_ne_nil _ (segmentText_ne_nil segment)] at last
  have whole : path.display.toList = '$' :: path.spelled := String.toList_ofList
  rw [parse?, whole, trimmed]
  rfl

/-! ## Queries by the text of a path -/

/-- The selectors of a straight path lead to the node at the path only. -/
theorem walk_selectors (straight : path.Straight document) (reached : path.resolve document = some node)
    (front : Path) : walk (path.map Segment.selector) [(front, document)] = [(front ++ path, node)] := by
  induction straight generalizing front with
  | root document =>
    cases reached
    rw [List.append_nil]
    rfl
  | down segment rest document child leads _ ih =>
    rw [resolve, leads.child?_eq] at reached
    have stepped : step segment.selector (front, document) = [(front ++ [segment], child)] := by
      cases leads with
      | key fields name child found => simp [step, Segment.selector, found, Path.key]
      | index items i child found => simp [step, Segment.selector, found, Path.index]
    rw [List.map_cons, walk_cons, List.flatMap_cons, List.flatMap_nil, stepped, List.append_nil, ih reached,
      List.append_assoc, List.singleton_append]

/-- The text of a straight path, as an expression, leads to its node and to no other one exactly if all its segments are
legible: no key has a quote or a closing bracket. -/
theorem run?_display_iff (ordered : document.Ordered) (straight : path.Straight document)
    (reached : path.resolve document = some node) :
    run? document path.display = some [(path, node)] ↔ ∀ segment ∈ path, segment.Legible := by
  constructor
  · intro found
    obtain ⟨selectors, parsed, walked⟩ := Option.map_eq_some_iff.mp found
    have start : ∀ start ∈ [(Path.root, document)], start.2.Ordered := by
      intro start member
      cases List.mem_singleton.mp member
      exact ordered
    have member : (path, node) ∈ walk selectors [(Path.root, document)] := walked ▸ List.mem_singleton_self _
    obtain ⟨_, only, rest, rfl, admitted, -⟩ := (mem_walk start).mp member
    cases List.mem_singleton.mp only
    rw [parse?_display] at parsed
    exact legible_of_admits parsed admitted
  · intro legible
    rw [run?, parse?_display, selectorsFrom?_spelled legible (length_le_spelled path), Option.map_some,
      walk_selectors straight reached]
    rfl

/-- A query by the text of a path leads nowhere if the key has a quote. -/
theorem not_always_requeried :
    ¬ ∀ (document : Json) (path : Path) (node : Json), document.Ordered → path.Straight document →
      path.resolve document = some node → (∀ i, .index i ∈ path → i < Decimal.bound64) →
      run? document path.display = some [(path, node)] := by
  intro always
  have quoted := always (.object [("it's", .null)]) [.key "it's"] .null
    (.object _ (List.pairwise_singleton _ _) (by simpa using .null))
    (.down _ _ _ .null (.key _ _ _ rfl) (.root _)) rfl (by simp)
  revert quoted
  decide +kernel

/-- A document with an empty key, a key with a dot and one that ends with a backslash, above an array. -/
def oddKeys : Json :=
  .object [("", .object [("a.b", .object [("c\\", .array [.null, .string "found"])])])]

def oddPath : Path :=
  [.key "", .key "a.b", .key "c\\", .index 1]

theorem run?_display_iff_sample :
    oddKeys.Ordered ∧ oddPath.Straight oddKeys ∧ oddPath.resolve oddKeys = some (.string "found") ∧
      (run? oddKeys oddPath.display = some [(oddPath, .string "found")] ↔ ∀ segment ∈ oddPath, segment.Legible) := by
  have ordered : oddKeys.Ordered := by
    have single : ∀ (key : String) (value : Json), value.Ordered → (Json.object [(key, value)]).Ordered :=
      fun key value inner => .object _ (List.pairwise_singleton _ _) (by simpa using inner)
    exact single _ _ (single _ _ (single _ _ (.array _ (by simpa using ⟨.null, .string "found"⟩))))
  have straight : oddPath.Straight oddKeys :=
    .down _ _ _ _ (.key _ _ _ rfl) (.down _ _ _ _ (.key _ _ _ rfl) (.down _ _ _ _ (.key _ _ _ rfl)
      (.down _ _ _ _ (.index _ _ _ rfl) (.root _))))
  have reached : oddPath.resolve oddKeys = some (.string "found") := rfl
  exact ⟨ordered, straight, reached, run?_display_iff ordered straight reached⟩

end Query

end SpecServer
