import Mathlib.Order.MinMax
import SpecServer.Locate
import SpecServer.Proofs.Text.Runs
import SpecServer.Proofs.Text.Search
set_option autoImplicit false

/-!
Where nodes are located. What is found is a key of the path that is spelled as one, and further segments lead further into
the text or not on, but never back. The search by byte offsets, which cuts the text at each step, finds the same places:
every cut is between two characters, and a search that ends takes at most one round more than there are characters. Only
the search for an empty key may not end, in whatever number of rounds.
-/

namespace SpecServer.Locate

open Text

variable {text passed before front back behind line key : List Char} {keys : List (List Char)} {found : Option Nat}
  {cursor count spot rounds : Nat}

/-! ## Keys in a text -/

/-- Whether what stands between two parts of a text is marked as a key: it stands in double quotes, with blanks and a colon
behind them, or only spaces and hyphens stand before it on its line and a colon follows directly. -/
inductive Marked : List Char → List Char → Prop
  | quoted (before blanks behind : List Char) (blank : ∀ c ∈ blanks, c = ' ' ∨ c = '\t') :
      Marked (before ++ ['\x22']) ('\x22' :: blanks ++ ':' :: behind)
  | bare (before indentation behind : List Char) (starts : before = [] ∨ before.getLast? = some '\n')
      (indented : ∀ c ∈ indentation, c = ' ' ∨ c = '-') : Marked (before ++ indentation) (':' :: behind)

/-- A key in double quotes. -/
def inQuotes (key : List Char) : List Char :=
  '\x22' :: key ++ ['\x22']

private theorem inQuotes_ne_nil (key : List Char) : inQuotes key ≠ [] :=
  List.cons_ne_nil _ _

/-- Whether what stands behind an occurrence in quotes makes it a quoted key. -/
def quotedAt (_before behind : List Char) : Bool :=
  colonFollows behind

/-- Whether what stands before an occurrence and behind it makes it a bare key. -/
def bareAt (before behind : List Char) : Bool :=
  before.foldl indentedAfter true && behind.head? == some ':'

private theorem exists_blanks (follows : colonFollows text = true) :
    ∃ blanks behind, text = blanks ++ ':' :: behind ∧ ∀ c ∈ blanks, c = ' ' ∨ c = '\t' := by
  obtain ⟨blanks, whole, blank⟩ := exists_run (fun c => c = ' ' || c = '\t') text
  rw [colonFollows, beq_iff_eq] at follows
  obtain ⟨behind, rest⟩ := List.head?_eq_some_iff.mp follows
  rw [rest] at whole
  exact ⟨blanks, behind, whole, by simpa using blank⟩

private theorem exists_lastLine (text : List Char) :
    ∃ before line, text = before ++ line ∧ (before = [] ∨ before.getLast? = some '\n') ∧ '\n' ∉ line := by
  by_cases newline : '\n' ∈ text
  · obtain ⟨line, before, turned, absent⟩ := List.eq_append_cons_of_mem (List.mem_reverse.mpr newline)
    refine ⟨before.reverse ++ ['\n'], line.reverse, ?_, .inr List.getLast?_concat, by simpa using absent⟩
    rw [← List.reverse_reverse text, turned]
    simp
  · exact ⟨[], text, rfl, .inl rfl, newline⟩

private theorem foldl_indentedAfter (starts : before = [] ∨ before.getLast? = some '\n') (within : '\n' ∉ line) :
    (before ++ line).foldl indentedAfter true = line.all fun c => c = ' ' || c = '-' := by
  have start : before.foldl indentedAfter true = true := by
    obtain rfl | ends := starts
    · rfl
    · obtain ⟨more, rfl⟩ := List.getLast?_eq_some_iff.mp ends
      rw [List.foldl_append]
      rfl
  have further (indented : Bool) : line.foldl indentedAfter indented =
      (indented && line.all fun c => c = ' ' || c = '-') := by
    clear start
    induction line generalizing indented with
    | nil => exact (Bool.and_true indented).symm
    | cons c line ih =>
      rw [List.mem_cons, not_or] at within
      rw [List.foldl_cons, ih within.2, List.all_cons, indentedAfter, decide_eq_false (Ne.symm within.1), Bool.false_or,
        Bool.and_assoc]
  rw [List.foldl_append, start, further, Bool.true_and]

private theorem Marked.of_colonFollows (before : List Char) (follows : colonFollows back = true) :
    Marked (before ++ ['\x22']) ('\x22' :: back) := by
  obtain ⟨blanks, behind, rfl, blank⟩ := exists_blanks follows
  exact .quoted before blanks behind blank

private theorem Marked.of_bareAt (bare : bareAt front back = true) : Marked front back := by
  obtain ⟨before, line, rfl, starts, within⟩ := exists_lastLine front
  rw [bareAt, foldl_indentedAfter starts within, Bool.and_eq_true, beq_iff_eq, List.all_eq_true] at bare
  obtain ⟨indented, colon⟩ := bare
  obtain ⟨behind, rfl⟩ := List.head?_eq_some_iff.mp colon
  exact .bare before line behind starts (by simpa using indented)

/-! ## Both kinds of keys are searched alike -/

private theorem quotedKey?_eq (quoted passed : List Char) (skip : Nat) (text : List Char) :
    quotedKey? quoted skip text = scan quotedAt quoted passed skip text := by
  induction text generalizing passed skip with
  | nil => rw [quotedKey?.eq_def, scan.eq_def]
  | cons c text ih =>
    cases skip with
    | succ skip => rw [quotedKey?, scan, ih (passed ++ [c])]
    | zero =>
      rw [quotedKey?, scan, ih (passed ++ [c]), ih (passed ++ [c])]
      rfl

private theorem bareKey?_eq (nonempty : key ≠ []) (passed : List Char) (skip : Nat) (text : List Char) :
    bareKey? key (passed.foldl indentedAfter true) skip text = some (scan bareAt key passed skip text) := by
  have present : key.isEmpty = false := List.isEmpty_eq_false_iff.mpr nonempty
  induction text generalizing passed skip with
  | nil => rw [bareKey?.eq_def, scan.eq_def, present, if_neg Bool.false_ne_true]
  | cons c text ih =>
    have further : indentedAfter (passed.foldl indentedAfter true) c = (passed ++ [c]).foldl indentedAfter true := by
      rw [List.foldl_append]
      rfl
    cases skip with
    | succ skip => rw [bareKey?, scan, further, ih, Option.map_some]
    | zero =>
      rw [bareKey?, scan, further, ih, ih, present, if_neg Bool.false_ne_true]
      cases after? key (c :: text) with
      | none => rfl
      | some rest => exact (apply_ite some _ _ _).symm

/-- An empty key counts where the search for it begins, or its search does not end. -/
theorem bareKey?_nil (passed text : List Char) : bareKey? [] (passed.foldl indentedAfter true) 0 text =
    if bareAt passed text then some (some 0) else none := by
  cases text with
  | nil => simp [bareKey?, bareAt]
  | cons c text => simp [bareKey?, after?, bareAt]

private theorem least?_choice (left right : Option Nat) : least? left right = left ∨ least? left right = right := by
  cases left with
  | none => exact .inr rfl
  | some a =>
    cases right with
    | none => exact .inl rfl
    | some b => exact (min_choice a b).imp (congrArg some) (congrArg some)

private theorem least?_map {f : Nat → Nat} (monotone : Monotone f) (left right : Option Nat) :
    least? (left.map f) (right.map f) = (least? left right).map f := by
  cases left with
  | none => rfl
  | some a =>
    cases right with
    | none => rfl
    | some b => exact congrArg some monotone.map_min.symm

private theorem key?_eq (nonempty : key ≠ []) (passed text : List Char) : key? passed key text =
    some (least? ((scan quotedAt (inQuotes key) passed 0 text).map (· + 1)) (scan bareAt key passed 0 text)) := by
  rw [key?, quotedKey?_eq _ passed, bareKey?_eq nonempty]
  rfl

private theorem least?_zero (found : Option Nat) : least? found (some 0) = some 0 := by
  cases found with
  | none => rfl
  | some count => exact congrArg some (Nat.min_zero count)

private theorem key?_nil (passed text : List Char) :
    key? passed [] text = if bareAt passed text then some (some 0) else none := by
  rw [key?, bareKey?_nil]
  cases bareAt passed text with
  | true => exact congrArg some (least?_zero _)
  | false => rfl

private theorem exists_quoted (occurs : scan quotedAt (inQuotes key) passed 0 text = some count) :
    ∃ front back, text = front ++ '\x22' :: key ++ '\x22' :: back ∧ front.length = count ∧ colonFollows back = true := by
  have searched := searched_scan quotedAt (inQuotes_ne_nil key) passed text
  rw [occurs] at searched
  obtain ⟨front, back, rfl, length, follows⟩ := searched.spelled
  exact ⟨front, back, by simp [inQuotes], length, follows⟩

private theorem key?_marked (occurs : key? passed key text = some (some count)) :
    ∃ front back, text = front ++ key ++ back ∧ front.length = count ∧ Marked (passed ++ front) back := by
  by_cases empty : key = []
  · subst empty
    rw [key?_nil, Option.ite_none_right_eq_some] at occurs
    obtain ⟨bare, same⟩ := occurs
    refine ⟨[], text, rfl, Option.some.inj (Option.some.inj same), ?_⟩
    rw [List.append_nil]
    exact .of_bareAt bare
  rw [key?_eq empty, Option.some.injEq] at occurs
  obtain same | same := least?_choice ((scan quotedAt (inQuotes key) passed 0 text).map (· + 1))
    (scan bareAt key passed 0 text)
  · rw [occurs] at same
    obtain ⟨inner, within, rfl⟩ := Option.map_eq_some_iff.mp same.symm
    obtain ⟨front, back, rfl, rfl, follows⟩ := exists_quoted within
    refine ⟨front ++ ['\x22'], '\x22' :: back, by simp, by simp, ?_⟩
    rw [← List.append_assoc]
    exact .of_colonFollows (passed ++ front) follows
  · have searched := searched_scan bareAt empty passed text
    rw [← same, occurs] at searched
    obtain ⟨front, back, whole, length, bare⟩ := searched.spelled
    exact ⟨front, back, whole, length, .of_bareAt bare⟩

private theorem key?_spelled (within : cursor ≤ text.length)
    (occurs : key? (text.take cursor) key (text.drop cursor) = some (some count)) :
    ∃ front back, text = front ++ key ++ back ∧ front.length = cursor + count ∧ Marked front back := by
  obtain ⟨front, back, rest, rfl, marked⟩ := key?_marked occurs
  refine ⟨text.take cursor ++ front, back, ?_, ?_, marked⟩
  · rw [List.append_assoc (text.take cursor), List.append_assoc (text.take cursor), ← rest, List.take_append_drop]
  · rw [List.length_append, List.length_take, Nat.min_eq_left within]

private theorem key?_within (within : cursor ≤ text.length)
    (occurs : key? (text.take cursor) key (text.drop cursor) = some (some count)) :
    cursor + count + key.length ≤ text.length := by
  obtain ⟨front, back, whole, length, -⟩ := key?_spelled within occurs
  rw [whole, ← length, List.length_append, List.length_append]
  exact Nat.le_add_right _ _

private theorem key?_ne_none (nonempty : key ≠ []) (passed text : List Char) : key? passed key text ≠ none := by
  rw [key?_eq nonempty]
  exact Option.some_ne_none _

/-! ## Keys one after another -/

private theorem keys?_spelled (within : cursor ≤ text.length)
    (result : keys? text cursor found keys = some (some spot)) :
    found = some spot ∨
      ∃ key ∈ keys, ∃ front back, text = front ++ key ++ back ∧ front.length = spot ∧ Marked front back := by
  induction keys generalizing cursor found with
  | nil => exact .inl (Option.some.inj result)
  | cons key keys ih =>
    rw [keys?] at result
    split at result
    next => cases result
    next => exact .inl (Option.some.inj result)
    next count occurs =>
      obtain same | ⟨later, member, spelled⟩ := ih (key?_within within occurs) result
      · cases same
        exact .inr ⟨key, List.mem_cons_self, key?_spelled within occurs⟩
      · exact .inr ⟨later, List.mem_cons_of_mem key member, spelled⟩

private theorem keys?_ne_none (nonempty : [] ∉ keys) : keys? text cursor found keys ≠ none := by
  induction keys generalizing cursor found with
  | nil => exact Option.some_ne_none found
  | cons key keys ih =>
    rw [List.mem_cons, not_or] at nonempty
    rw [keys?]
    split
    next endless => exact absurd endless (key?_ne_none (Ne.symm nonempty.1) _ _)
    next => exact Option.some_ne_none found
    next => exact ih nonempty.2

/-- Keys that are found one after another, from where the search for them begins to where the last of them ends. -/
inductive Passes (text : List Char) : Nat → List (List Char) → Nat → Prop
  | nil (cursor : Nat) : Passes text cursor [] cursor
  | cons (cursor : Nat) (key : List Char) (keys : List (List Char)) (count spot : Nat)
      (occurs : key? (text.take cursor) key (text.drop cursor) = some (some count))
      (later : Passes text (cursor + count + key.length) keys spot) : Passes text cursor (key :: keys) spot

/-- The search for keys does not end exactly if it comes to an empty one that does not count where it is looked for first. -/
theorem keys?_eq_none_iff : keys? text cursor found keys = none ↔ ∃ front back spot, keys = front ++ [] :: back ∧
    Passes text cursor front spot ∧ bareAt (text.take spot) (text.drop spot) = false := by
  constructor
  · intro endless
    induction keys generalizing cursor found with
    | nil => cases endless
    | cons key keys ih =>
      rw [keys?] at endless
      split at endless
      next stays =>
        obtain rfl : key = [] := by
          by_contra nonempty
          exact key?_ne_none nonempty _ _ stays
        rw [key?_nil, ite_eq_right_iff] at stays
        exact ⟨[], keys, cursor, rfl, .nil cursor, Bool.eq_false_iff.mpr fun bare => nomatch stays bare⟩
      next => cases endless
      next count occurs =>
        obtain ⟨front, back, spot, rfl, passes, refused⟩ := ih endless
        exact ⟨key :: front, back, spot, rfl, .cons cursor key front count spot occurs passes, refused⟩
  · rintro ⟨front, back, spot, rfl, passes, refused⟩
    induction passes generalizing found with
    | nil cursor => simp [keys?, key?_nil, refused]
    | cons cursor key front count spot occurs later ih =>
      rw [List.cons_append, keys?, occurs]
      exact ih refused

/-- A search that ends does not lose what was found, and does not go back behind it. -/
theorem keys?_onward {result : Option Nat} (passed : spot ≤ cursor)
    (ends : keys? text cursor (some spot) keys = some result) : ∃ later, result = some later ∧ spot ≤ later := by
  induction keys generalizing cursor spot with
  | nil => exact ⟨spot, (Option.some.inj ends).symm, Nat.le_refl spot⟩
  | cons key keys ih =>
    rw [keys?] at ends
    split at ends
    next => cases ends
    next => exact ⟨spot, (Option.some.inj ends).symm, Nat.le_refl spot⟩
    next count _ =>
      obtain ⟨later, same, onward⟩ := ih (Nat.le_add_right (cursor + count) key.length) ends
      exact ⟨later, same, by omega⟩

private theorem keys?_append (passed : ∀ spot ∈ found, spot ≤ cursor) {more : List (List Char)} {result : Option Nat}
    (located : keys? text cursor found keys = some (some spot))
    (ends : keys? text cursor found (keys ++ more) = some result) : ∃ later, result = some later ∧ spot ≤ later := by
  induction keys generalizing cursor found with
  | nil =>
    obtain rfl : found = some spot := Option.some.inj located
    exact keys?_onward (passed spot rfl) ends
  | cons key keys ih =>
    rw [keys?] at located
    rw [List.cons_append, keys?] at ends
    split at located
    next => cases located
    next absent =>
      rw [absent] at ends
      exact ⟨spot, (Option.some.inj ends).symm.trans (Option.some.inj located), Nat.le_refl spot⟩
    next count occurs =>
      rw [occurs] at ends
      refine ih ?_ located ends
      rintro _ ⟨⟩
      exact Nat.le_add_right _ _

/-! ## Searching by offsets -/

/-- The byte offset at which the last line of a text starts. -/
def lineOffset : List Char → Nat
  | [] => 0
  | c :: text => if '\n' ∈ c :: text then c.utf8Size + lineOffset text else 0

/-- The test for a bare key, which cuts off its line. -/
def startsLine? (before behind : List Char) : Option Bool := do
  let (_, line) ← cut? (lineOffset before) before
  some (line.all (fun c => c = ' ' || c = '-') && behind.head? == some ':')

/-- The byte offset of the first occurrence of a key from an offset on. -/
def keyOffset? (text : List Char) (rounds start : Nat) (key : List Char) : Option (Option Nat) := do
  let quoted ← search? (fun _ behind => some (colonFollows behind)) text (inQuotes key) rounds start
  let bare ← search? startsLine? text key rounds start
  some (least? (quoted.map (· + 1)) bare)

/-- Searches keys one after another from an offset on. -/
def keyOffsets? (text : List Char) (rounds cursor : Nat) (found : Option Nat) : List (List Char) → Option (Option Nat)
  | [] => some (some (found.getD 0))
  | key :: keys => do
    match ← keyOffset? text rounds cursor key with
    | some offset => keyOffsets? text rounds (offset + byteLength key) (some offset) keys
    | none => some found

/-- The place of the node at a path, by offsets. Nothing is known if a text is cut within a character or if a search takes
more than the given number of rounds. -/
def located? (text : String) (path : Path) (rounds : Nat) : Option (Option Position) :=
  (keyOffsets? text.toList rounds 0 none (path.filterMap keyOf?)).map (Option.map (positionOf text.toList))

private theorem lineOffset_append (starts : before = [] ∨ before.getLast? = some '\n') (within : '\n' ∉ line) :
    lineOffset (before ++ line) = byteLength before := by
  induction before with
  | nil =>
    rw [List.nil_append, byteLength_nil]
    cases line with
    | nil => rw [lineOffset]
    | cons c line => rw [lineOffset, if_neg within]
  | cons c before ih =>
    have ends : (c :: before).getLast? = some '\n' := starts.resolve_left (List.cons_ne_nil c before)
    have newline : '\n' ∈ c :: (before ++ line) := List.mem_append_left line (List.mem_of_getLast? ends)
    rw [List.cons_append, lineOffset, if_pos newline, byteLength_cons, ih]
    cases before with
    | nil => exact .inl rfl
    | cons d before => exact .inr ((List.getLast?_cons_cons).symm.trans ends)

private theorem startsLine?_eq (before behind : List Char) :
    startsLine? before behind = some (bareAt before behind) := by
  obtain ⟨front, line, rfl, starts, within⟩ := exists_lastLine before
  rw [startsLine?, lineOffset_append starts within, cut?_append, bareAt, foldl_indentedAfter starts within]
  rfl

private theorem byteLength_take_monotone (passed text : List Char) :
    Monotone fun count => byteLength (passed ++ text.take count) := by
  intro count further less
  obtain ⟨rest, whole⟩ := List.take_prefix_take_left (l := text) less
  simp only [← whole, byteLength_append]
  omega

private theorem byteLength_quote (occurs : scan quotedAt (inQuotes key) passed 0 text = some count) :
    byteLength (passed ++ text.take count) + 1 = byteLength (passed ++ text.take (count + 1)) := by
  obtain ⟨front, back, rfl, rfl, -⟩ := exists_quoted occurs
  have quote : '\x22'.utf8Size = 1 := by decide
  rw [List.append_assoc, List.take_left, List.take_length_add_append, List.cons_append, List.take_succ_cons, List.take_zero,
    byteLength_append, byteLength_append, byteLength_append, byteLength_cons, byteLength_nil, quote, Nat.add_assoc]

/-- By offsets the search for a bare key finds the same, and where the one does not end the other does not. -/
theorem search?_startsLine? (enough : text.length < rounds) :
    search? startsLine? (passed ++ text) key rounds (byteLength passed) =
      (bareKey? key (passed.foldl indentedAfter true) 0 text).map
        (Option.map fun count => byteLength (passed ++ text.take count)) := by
  by_cases empty : key = []
  · subst empty
    have some_round : 0 < rounds := Nat.zero_lt_of_lt enough
    rw [search?_nil startsLine?_eq, bareKey?_nil, decide_eq_true some_round, Bool.and_true]
    cases bareAt passed text with
    | true => simp
    | false => rfl
  · rw [(searched_scan bareAt empty passed text).search? empty startsLine?_eq enough, bareKey?_eq empty]
    rfl

private theorem keyOffset?_eq (enough : text.length < rounds) :
    keyOffset? (passed ++ text) rounds (byteLength passed) key =
      (key? passed key text).map (Option.map fun count => byteLength (passed ++ text.take count)) := by
  have follows (before behind : List Char) : some (colonFollows behind) = some (quotedAt before behind) := rfl
  have quoted := (searched_scan quotedAt (inQuotes_ne_nil key) passed text).search? (inQuotes_ne_nil key) follows enough
  have inner (found : Option Nat) (result : scan quotedAt (inQuotes key) passed 0 text = found) :
      (found.map fun count => byteLength (passed ++ text.take count)).map (· + 1) =
        (found.map (· + 1)).map fun count => byteLength (passed ++ text.take count) := by
    cases found with
    | none => rfl
    | some count => exact congrArg some (byteLength_quote result)
  rw [keyOffset?, quoted, search?_startsLine? enough, key?, quotedKey?_eq _ passed]
  cases bareKey? key (passed.foldl indentedAfter true) 0 text with
  | none => rfl
  | some bare =>
    have both := least?_map (byteLength_take_monotone passed text)
      ((scan quotedAt (inQuotes key) passed 0 text).map (· + 1)) bare
    rw [← inner _ rfl] at both
    exact congrArg some both

private theorem keyOffsets?_eq (found : Option Nat) (within : cursor ≤ text.length) (enough : text.length < rounds)
    (started : keys = [] → found ≠ none) :
    keyOffsets? text rounds (byteLength (text.take cursor)) (found.map fun spot => byteLength (text.take spot)) keys =
      (keys? text cursor found keys).map (Option.map fun spot => byteLength (text.take spot)) := by
  induction keys generalizing cursor found with
  | nil =>
    obtain ⟨spot, rfl⟩ := Option.ne_none_iff_exists'.mp (started rfl)
    rfl
  | cons key keys ih =>
    have shorter : (text.drop cursor).length < rounds := by
      rw [List.length_drop]
      omega
    have first : keyOffset? (text.take cursor ++ text.drop cursor) rounds (byteLength (text.take cursor)) key = _ :=
      keyOffset?_eq shorter
    rw [List.take_append_drop] at first
    rw [keyOffsets?, first, keys?]
    cases occurs : key? (text.take cursor) key (text.drop cursor) with
    | none => rfl
    | some result =>
      cases result with
      | none => rfl
      | some count =>
        have here : text.take cursor ++ (text.drop cursor).take count = text.take (cursor + count) := List.take_add.symm
        have behind : byteLength (text.take (cursor + count)) + byteLength key =
            byteLength (text.take (cursor + count + key.length)) := by
          obtain ⟨front, back, whole, length, -⟩ := key?_spelled within occurs
          rw [← length, ← List.length_append, whole, List.take_left, List.append_assoc, List.take_left, byteLength_append]
        simp only [Option.map_some, here, Option.bind_eq_bind, Option.bind_some, behind]
        exact ih _ (key?_within within occurs) fun _ => Option.some_ne_none _

private theorem keyOffset?_more {start : Nat} (result : keyOffset? text rounds start key = some found) (more : Nat) :
    keyOffset? text (rounds + more) start key = some found := by
  simp only [keyOffset?, Option.bind_eq_bind, Option.bind_eq_some_iff] at result ⊢
  obtain ⟨quoted, first, bare, second, same⟩ := result
  exact ⟨quoted, search?_more first more, bare, search?_more second more, same⟩

private theorem keyOffsets?_more {start : Nat} {result : Option Nat}
    (located : keyOffsets? text rounds start found keys = some result)
    (more : Nat) : keyOffsets? text (rounds + more) start found keys = some result := by
  induction keys generalizing start found with
  | nil => exact located
  | cons key keys ih =>
    simp only [keyOffsets?, Option.bind_eq_bind, Option.bind_eq_some_iff] at located ⊢
    obtain ⟨offset, first, located⟩ := located
    refine ⟨offset, keyOffset?_more first more, ?_⟩
    cases offset with
    | none => exact located
    | some offset => exact ih located

/-! ## Paths -/

/-- Whether an offset of a text is at a key of a path that is spelled there as a key. -/
def Spells (text : String) (path : Path) (offset : Nat) : Prop :=
  ∃ name front back, .key name ∈ path ∧ text.toList = front ++ name.toList ++ back ∧ Marked front back ∧
    byteLength front = offset

private theorem mem_keys {path : Path} :
    key ∈ path.filterMap keyOf? ↔ ∃ name, .key name ∈ path ∧ name.toList = key := by
  rw [List.mem_filterMap]
  constructor
  · rintro ⟨_ | _, member, same⟩
    · exact ⟨_, member, Option.some.inj same⟩
    · cases same
  · rintro ⟨name, member, rfl⟩
    exact ⟨.key name, member, rfl⟩

private theorem keys_ne_nil_iff {path : Path} : path.filterMap keyOf? ≠ [] ↔ ∃ name, .key name ∈ path := by
  constructor
  · intro keyed
    obtain ⟨key, member⟩ := List.exists_mem_of_ne_nil _ keyed
    obtain ⟨name, within, -⟩ := mem_keys.mp member
    exact ⟨name, within⟩
  · rintro ⟨name, member⟩
    exact List.ne_nil_of_mem (mem_keys.mpr ⟨name, member, rfl⟩)

private theorem nil_not_mem_keys {path : Path} (nonempty : .key "" ∉ path) : [] ∉ path.filterMap keyOf? := by
  intro member
  obtain ⟨name, within, empty⟩ := mem_keys.mp member
  rw [String.toList_eq_nil_iff] at empty
  exact nonempty (empty ▸ within)

theorem place?_eq (text : String) {path : Path} (keyed : path.filterMap keyOf? ≠ []) : place? text path =
    (keys? text.toList 0 none (path.filterMap keyOf?)).map
      (Option.map fun found => Position.after (text.toList.take found)) := by
  rw [place?, if_neg (by rwa [List.isEmpty_iff])]

private theorem positionOf_take (text : List Char) (count : Nat) :
    positionOf text (byteLength (text.take count)) = Position.after (text.take count) := by
  have place := positionOf_append (text.take count) (text.drop count)
  rwa [List.take_append_drop] at place

private theorem located?_eq (text : String) (path : Path) (enough : text.length < rounds) :
    located? text path rounds = place? text path := by
  rw [located?]
  by_cases keyed : path.filterMap keyOf? = []
  · rw [place?, keyed]
    exact congrArg (some ∘ some) (positionOf_append [] text.toList)
  · rw [← String.length_toList] at enough
    have offsets := keyOffsets?_eq none (Nat.zero_le _) enough (absurd · keyed)
    rw [place?_eq text keyed]
    simp only [Option.map_none, List.take_zero, byteLength_nil] at offsets
    rw [offsets, Option.map_map]
    congr 1
    funext result
    cases result with
    | none => rfl
    | some spot => exact congrArg some (positionOf_take text.toList spot)

/-- The place of a node is what the search by offsets gives after however many rounds; nothing is known of it where that
search does not end. -/
theorem place?_eq_some_iff {text : String} {path : Path} {found : Option Position} :
    place? text path = some found ↔ ∃ rounds, located? text path rounds = some found := by
  constructor
  · intro known
    exact ⟨text.length + 1, (located?_eq text path (Nat.lt_succ_self _)).trans known⟩
  · rintro ⟨rounds, located⟩
    obtain ⟨offset, ends, rfl⟩ := Option.map_eq_some_iff.mp located
    rw [← located?_eq text path (show text.length < rounds + (text.length + 1) by omega), located?,
      keyOffsets?_more ends, Option.map_some]

theorem place?_eq_none_iff {text : String} {path : Path} :
    place? text path = none ↔ ∀ rounds, located? text path rounds = none := by
  simp only [Option.eq_none_iff_forall_ne_some, ne_eq, place?_eq_some_iff, not_exists]
  exact forall_comm

/-- The search for a node does not end exactly if all keys before an empty one are found and that one does not count
where it is looked for first. -/
theorem endless_iff {text : String} {path : Path} : (∀ rounds, located? text path rounds = none) ↔
    ∃ front back spot, path.filterMap keyOf? = front ++ [] :: back ∧ Passes text.toList 0 front spot ∧
      bareAt (text.toList.take spot) (text.toList.drop spot) = false := by
  rw [← place?_eq_none_iff]
  by_cases keyed : path.filterMap keyOf? = []
  · rw [place?, keyed]
    exact iff_of_false (Option.some_ne_none _) (by simp)
  · rw [place?_eq text keyed, Option.map_eq_none_iff, keys?_eq_none_iff]

/-- The search for the place of a node ends if no key of its path is empty. -/
theorem place?_ne_none (text : String) {path : Path} (nonempty : .key "" ∉ path) : place? text path ≠ none := by
  rw [place?]
  split
  · exact Option.some_ne_none _
  · rw [ne_eq, Option.map_eq_none_iff]
    exact keys?_ne_none (nil_not_mem_keys nonempty)

private theorem after_onward {less more : Nat} (text : List Char) (onward : less ≤ more) :
    Position.after (text.take less) = Position.after (text.take more) ∨
      (Position.after (text.take less)).Before (Position.after (text.take more)) := by
  obtain ⟨rest, whole⟩ := List.take_prefix_take_left (l := text) onward
  rw [← whole]
  by_cases none : rest = []
  · rw [none, List.append_nil]
    exact .inl rfl
  · right
    rw [Position.after, Position.after, List.foldl_append]
    exact Position.before_foldl _ none

private theorem place?_keyless (text : String) {path : Path} (keyless : ∀ name, .key name ∉ path) :
    place? text path = some (some .start) := by
  have none : path.filterMap keyOf? = [] := by
    by_contra keyed
    obtain ⟨name, member⟩ := keys_ne_nil_iff.mp keyed
    exact keyless name member
  rw [place?, none]
  rfl

private theorem exists_spot {text : String} {path : Path} {place : Position} (keyed : path.filterMap keyOf? ≠ [])
    (result : place? text path = some (some place)) :
    ∃ spot, keys? text.toList 0 none (path.filterMap keyOf?) = some (some spot) ∧
      Position.after (text.toList.take spot) = place := by
  rw [place?_eq text keyed] at result
  obtain ⟨found, located, same⟩ := Option.map_eq_some_iff.mp result
  obtain ⟨spot, rfl, after⟩ := Option.map_eq_some_iff.mp same
  exact ⟨spot, located, after⟩

private theorem place?_spells {text : String} {path : Path} {place : Position} (keyed : path.filterMap keyOf? ≠ [])
    (result : place? text path = some (some place)) :
    ∃ offset, Spells text path offset ∧ place = positionOf text.toList offset := by
  obtain ⟨spot, located, rfl⟩ := exists_spot keyed result
  obtain start | ⟨key, member, front, back, whole, length, marked⟩ := keys?_spelled (Nat.zero_le _) located
  · cases start
  · obtain ⟨name, within, rfl⟩ := mem_keys.mp member
    refine ⟨byteLength front, ⟨name, front, back, within, whole, marked, rfl⟩, ?_⟩
    rw [whole, List.append_assoc, ← length, List.take_left, positionOf_append]

private theorem place?_append {text : String} {path more : Path} {place : Position} {result : Option Position}
    (keyed : path.filterMap keyOf? ≠ []) (located : place? text path = some (some place))
    (ends : place? text (path ++ more) = some result) :
    ∃ later, result = some later ∧ (place = later ∨ place.Before later) := by
  have keyed_more : (path ++ more).filterMap keyOf? ≠ [] := by
    rw [List.filterMap_append]
    exact List.append_ne_nil_of_left_ne_nil keyed _
  obtain ⟨spot, occurs, rfl⟩ := exists_spot keyed located
  rw [place?_eq text keyed_more, List.filterMap_append] at ends
  obtain ⟨found, further, rfl⟩ := Option.map_eq_some_iff.mp ends
  have started : ∀ spot ∈ (none : Option Nat), spot ≤ 0 := by
    rintro _ ⟨⟩
  obtain ⟨later, rfl, onward⟩ := keys?_append started occurs further
  exact ⟨_, rfl, after_onward text.toList onward⟩

/-- For keys that are not empty, the search for a node by offsets ends, in at most one round more than there are characters
for each key, it cuts no text within a character, and it gives the place of the node. That is the start of the text for a
path without keys. For any other path it is that of a key of the path, spelled as a key, and for all paths that go on from
this one, if the search for their further keys ends, a place is found and not before it; it ends if these are not empty
either. -/
theorem places_spelled (text : String) (path : Path) (nonempty : .key "" ∉ path) :
    (∃ found, place? text path = some found ∧
        ∀ rounds, text.length < rounds → located? text path rounds = some found) ∧
      ((∀ name, .key name ∉ path) → place? text path = some (some .start)) ∧
      ((∃ name, .key name ∈ path) → ∀ place, place? text path = some (some place) →
        (∃ offset, Spells text path offset ∧ place = positionOf text.toList offset) ∧
          ∀ more, (.key "" ∉ more → place? text (path ++ more) ≠ none) ∧
            ∀ found, place? text (path ++ more) = some found →
              ∃ later, found = some later ∧ (place = later ∨ place.Before later)) := by
  refine ⟨?_, place?_keyless text, ?_⟩
  · obtain ⟨found, known⟩ := Option.ne_none_iff_exists'.mp (place?_ne_none text nonempty)
    exact ⟨found, known, fun rounds enough => (located?_eq text path enough).trans known⟩
  · intro exists_key place result
    have keyed := keys_ne_nil_iff.mpr exists_key
    refine ⟨place?_spells keyed result, fun more => ⟨fun further => ?_, fun found => place?_append keyed result⟩⟩
    exact place?_ne_none text fun member => (List.mem_append.mp member).elim nonempty further

/-- A text with a bare key and a quoted one that is not ASCII and stands as a value before. -/
def keyedText : String :=
  "paths:\n  - ü: \"süß\"\n  \"süß\"\t: 1\n"

theorem places_spelled_sample :
    Segment.key "" ∉ [.key "paths", .index 0, .key "süß"] ∧
      (∃ name, Segment.key name ∈ [.key "paths", .index 0, .key "süß"]) ∧
      place? keyedText [.key "paths", .index 0, .key "süß"] = some (some ⟨2, 3⟩) ∧
      (∃ found, place? keyedText [.key "paths", .index 0, .key "süß"] = some found ∧ ∀ rounds,
        keyedText.length < rounds → located? keyedText [.key "paths", .index 0, .key "süß"] rounds = some found) ∧
      (∃ offset, Spells keyedText [.key "paths", .index 0, .key "süß"] offset ∧
        ⟨2, 3⟩ = positionOf keyedText.toList offset) ∧
      ∀ more, (Segment.key "" ∉ more → place? keyedText ([.key "paths", .index 0, .key "süß"] ++ more) ≠ none) ∧
        ∀ found, place? keyedText ([.key "paths", .index 0, .key "süß"] ++ more) = some found →
          ∃ later, found = some later ∧ (⟨2, 3⟩ = later ∨ Position.Before ⟨2, 3⟩ later) := by
  have nonempty : Segment.key "" ∉ [.key "paths", .index 0, .key "süß"] := by decide
  have keyed : ∃ name, Segment.key name ∈ [.key "paths", .index 0, .key "süß"] := ⟨"paths", by decide⟩
  have result : place? keyedText [.key "paths", .index 0, .key "süß"] = some (some ⟨2, 3⟩) := by decide
  obtain ⟨offsets, -, spelled⟩ := places_spelled keyedText _ nonempty
  obtain ⟨at_key, onward⟩ := spelled keyed _ result
  exact ⟨nonempty, keyed, result, offsets, at_key, onward⟩

/-- Behind a brace there is no bare key, so that the search for an empty one goes round there. -/
example (rounds : Nat) : located? "\x7b\"\": 1\x7d" [.key ""] rounds = none :=
  endless_iff.mpr ⟨[], [], 0, rfl, .nil 0, rfl⟩ rounds

end SpecServer.Locate
