import Mathlib.Data.List.Forall2
import Mathlib.Data.List.Lex
import SpecServer.Engine.Basic
import SpecServer.Proofs.Text.Cuts
import SpecServer.Proofs.Text.Runs
set_option autoImplicit false

/-!
Which versions of the engine can be requested. A request is one to three numbers with dots between them, behind range marks
and with blanks around them, and it is met if the built-in version is not below it. The engine is acquired by the first
request that is met, and no other one changes it.
-/

namespace SpecServer

/-! ## Numbers -/

/-- How a number below `2 ^ 64` is written: in decimal digits, at least one of them, behind a plus sign or not. -/
def Decimal.Numeral (text : List Char) (n : Nat) : Prop :=
  ∃ digits, (text = digits ∨ text = '+' :: digits) ∧ digits ≠ [] ∧ (∀ c ∈ digits, c.isDigit = true) ∧
    n = Nat.ofDigitChars 10 digits 0 ∧ n < bound64

namespace Decimal

variable {text : List Char} {value n : Nat} {c : Char}

private theorem digit?_ten (c : Char) : digit? 10 c = if c.isDigit then some (c.toNat - '0'.toNat) else none := by
  by_cases digit : '0' ≤ c ∧ c ≤ '9'
  · have least : 48 ≤ c.toNat := digit.1
    have most : c.toNat ≤ 57 := digit.2
    have decimal : c.isDigit = true := by
      simp only [Char.isDigit, Bool.and_eq_true, decide_eq_true_eq]
      exact digit
    have small : decide (c.toNat - 48 < 10) = true := decide_eq_true (by omega)
    rw [digit?, if_pos digit, Option.filter_some, if_pos small, if_pos decimal]
    rfl
  · have other : ¬c.isDigit = true := by
      simp only [Char.isDigit, Bool.and_eq_true, decide_eq_true_eq]
      exact digit
    have dropped : ∀ n, 10 ≤ n → (some n).filter (· < 10) = none := by
      intro n large
      rw [Option.filter_some, if_neg (by simpa using large)]
    -- the letters stand for ten and more
    rw [digit?, if_neg digit, if_neg other]
    split
    next letter => exact dropped _ (Nat.le_sub_of_add_le letter.1)
    · split
      next letter => exact dropped _ (Nat.le_sub_of_add_le letter.1)
      · rfl

private theorem digitsFrom?_ten :
    digitsFrom? 10 value text = some n ↔ (∀ c ∈ text, c.isDigit = true) ∧ n = Nat.ofDigitChars 10 text value := by
  induction text generalizing value with
  | nil =>
    rw [digitsFrom?, Option.some.injEq, eq_comm]
    exact ⟨fun same => ⟨nofun, same⟩, And.right⟩
  | cons c text ih =>
    rw [digitsFrom?, digit?_ten]
    by_cases digit : c.isDigit = true
    · simp only [digit, ↓reduceIte, ih, List.forall_mem_cons, true_and, Nat.ofDigitChars_cons, Nat.mul_comm value]
    · simp [digit]

private theorem digits?_ten :
    digits? 10 text = some n ↔
      text ≠ [] ∧ (∀ c ∈ text, c.isDigit = true) ∧ n = Nat.ofDigitChars 10 text 0 := by
  rw [digits?, ← digitsFrom?_ten]
  cases text <;> simp

private theorem index?_eq_some_iff : index? text = some n ↔ Numeral text n := by
  have bounded : ∀ digits, (digits? 10 digits).filter (· < bound64) = some n ↔
      digits ≠ [] ∧ (∀ c ∈ digits, c.isDigit = true) ∧ n = Nat.ofDigitChars 10 digits 0 ∧ n < bound64 := by
    intro digits
    rw [Option.filter_eq_some_iff, digits?_ten, decide_eq_true_eq, and_assoc, and_assoc]
  unfold index? natural?
  split
  next rest =>
    rw [bounded]
    constructor
    · intro facts
      exact ⟨rest, .inr rfl, facts⟩
    · rintro ⟨digits, rfl | same, facts⟩
      · -- a plus sign is no digit
        exact absurd (facts.2.1 '+' List.mem_cons_self) (by decide)
      · cases same
        exact facts
  next unsigned =>
    rw [bounded]
    constructor
    · intro facts
      exact ⟨text, .inl rfl, facts⟩
    · rintro ⟨digits, rfl | same, facts⟩
      · exact facts
      · exact absurd same (unsigned digits)

private theorem Numeral.plain (numeral : Numeral text n) (member : c ∈ text) : c.isDigit = true ∨ c = '+' := by
  obtain ⟨digits, rfl | rfl, -, decimal, -⟩ := numeral
  · exact .inl (decimal c member)
  · rcases List.mem_cons.mp member with rfl | later
    · exact .inr rfl
    · exact .inl (decimal c later)

private theorem Numeral.ne_nil (numeral : Numeral text n) : text ≠ [] := by
  obtain ⟨digits, rfl | rfl, nonempty, -⟩ := numeral
  · exact nonempty
  · exact List.cons_ne_nil _ _

end Decimal

namespace Version

variable {text : String} {numbers : List Nat} {version : Version}

/-! ## Requests -/

/-- How a version is requested: by one to three numbers with dots between them, with blanks around and range marks before
them. -/
def Requests (text : String) (numbers : List Nat) : Prop :=
  ∃ left marks pieces right, text.toList = left ++ marks ++ Text.joinWith ['.'] pieces ++ right ∧
    (∀ c ∈ left, Text.isBlank c = true) ∧ (∀ c ∈ marks, c ∈ ['^', '~', '>', '=', 'v']) ∧
    (∀ c ∈ right, Text.isBlank c = true) ∧ pieces ≠ [] ∧ pieces.length ≤ 3 ∧
    List.Forall₂ Decimal.Numeral pieces numbers

/-- The numbers of a version; those that are left out are zero. -/
def padded (numbers : List Nat) : List Nat :=
  (numbers ++ [0, 0, 0]).take 3

private theorem exists_version (numbers : List Nat) :
    ∃ version : Version, [version.major, version.minor, version.patch] = padded numbers := by
  match numbers with
  | [] => exact ⟨⟨0, 0, 0⟩, rfl⟩
  | [major] => exact ⟨⟨major, 0, 0⟩, rfl⟩
  | [major, minor] => exact ⟨⟨major, minor, 0⟩, rfl⟩
  | major :: minor :: patch :: _ => exact ⟨⟨major, minor, patch⟩, rfl⟩

/-- What a request says without the blanks around it and the marks before it. -/
def body (text : String) : List Char :=
  (Text.trim text.toList).dropWhile isRangeMark

private theorem solid_of_isRangeMark {c : Char} (mark : isRangeMark c = true) :
    Text.isBlank c = false ∧ c.isDigit = false := by
  have each : (['^', '~', '>', '=', 'v'].all fun d => !Text.isBlank d && !d.isDigit) = true := by decide
  simpa using List.all_eq_true.mp each c (List.contains_iff_mem.mp mark)

private theorem solid_of_isDigit {c : Char} (digit : c.isDigit = true) :
    Text.isBlank c = false ∧ isRangeMark c = false := by
  constructor
  · simp only [Char.isDigit, Bool.and_eq_true, decide_eq_true_eq] at digit
    have least : 48 ≤ c.toNat := digit.1
    have most : c.toNat ≤ 57 := digit.2
    simp only [Text.isBlank, Bool.or_eq_false_iff, Bool.and_eq_false_iff, decide_eq_false_iff_not,
      beq_eq_false_iff_ne]
    omega
  · rw [← Bool.not_eq_true]
    intro mark
    rw [(solid_of_isRangeMark mark).2] at digit
    cases digit

private theorem plain_of_numerals {pieces : List (List Char)} (read : List.Forall₂ Decimal.Numeral pieces numbers) :
    ∀ piece ∈ pieces, piece ≠ [] ∧ ∀ c ∈ piece, c.isDigit = true ∨ c = '+' := by
  have facts := read.imp fun piece n numeral =>
    (⟨⟨numeral.ne_nil, fun c => numeral.plain⟩, numeral⟩ :
      (piece ≠ [] ∧ ∀ c ∈ piece, c.isDigit = true ∨ c = '+') ∧ Decimal.Numeral piece n)
  exact ((List.forall₂_and_left pieces numbers).mp facts).1

/-- The numbers and the dots between them are neither blanks nor marks. -/
theorem solid_joinWith {pieces : List (List Char)} (read : List.Forall₂ Decimal.Numeral pieces numbers) :
    ∀ c ∈ Text.joinWith ['.'] pieces, Text.isBlank c = false ∧ isRangeMark c = false := by
  intro c member
  rcases Text.mem_joinWith member with dot | ⟨piece, among, inside⟩
  · cases List.mem_singleton.mp dot
    decide
  · rcases (plain_of_numerals read piece among).2 c inside with digit | rfl
    · exact solid_of_isDigit digit
    · decide

private theorem body_eq {left marks right rest : List Char} (written : text.toList = left ++ marks ++ rest ++ right)
    (before : ∀ c ∈ left, Text.isBlank c = true) (range : ∀ c ∈ marks, isRangeMark c = true)
    (behind : ∀ c ∈ right, Text.isBlank c = true) (solid : ∀ c ∈ rest, Text.isBlank c = false ∧ isRangeMark c = false)
    (nonempty : rest ≠ []) : body text = rest := by
  have inner : ∀ c ∈ marks ++ rest, Text.isBlank c = false := by
    intro c member
    rcases List.mem_append.mp member with mark | number
    · exact (solid_of_isRangeMark (range c mark)).1
    · exact (solid c number).1
  have starts : Text.EndsRun isRangeMark rest := fun c first => (solid c (List.mem_of_mem_head? first)).2
  have full : marks ++ rest ≠ [] := List.append_ne_nil_of_right_ne_nil _ nonempty
  rw [body, written, List.append_assoc left, Text.trim_between before behind inner full,
    (Text.takeWhile_run range starts).2]

private theorem exists_body (text : String) :
    ∃ left marks right, text.toList = left ++ marks ++ body text ++ right ∧ (∀ c ∈ left, Text.isBlank c = true) ∧
      (∀ c ∈ marks, isRangeMark c = true) ∧ ∀ c ∈ right, Text.isBlank c = true := by
  obtain ⟨left, right, whole, before, behind⟩ := Text.exists_trim text.toList
  obtain ⟨marks, trimmed, range⟩ := Text.exists_run isRangeMark (Text.trim text.toList)
  refine ⟨left, marks, right, ?_, before, range, behind⟩
  rw [body, List.append_assoc left, ← trimmed]
  exact whole

/-- A request is read by trimming it, dropping the marks, and cutting what is left at the dots. -/
theorem requests_iff :
    Requests text numbers ↔
      List.Forall₂ Decimal.Numeral (Text.splitAt '.' (body text)) numbers ∧ numbers.length ≤ 3 := by
  constructor
  · rintro ⟨left, marks, pieces, right, written, before, range, behind, nonempty, few, read⟩
    have solid := solid_joinWith read
    obtain ⟨piece, more, rfl⟩ := List.exists_cons_of_ne_nil nonempty
    have dotless : ∀ other ∈ piece :: more, '.' ∉ other := by
      intro other among dot
      exact absurd ((plain_of_numerals read other among).2 '.' dot) (by decide)
    have cut := Text.splitAt_joinWith piece more dotless
    have first := (plain_of_numerals read piece List.mem_cons_self).1
    have full : Text.joinWith ['.'] (piece :: more) ≠ [] := by
      cases more with
      | nil => exact first
      | cons next more => simp [Text.joinWith]
    rw [body_eq written before (fun c mark => List.contains_iff_mem.mpr (range c mark)) behind solid full, cut]
    exact ⟨read, read.length_eq ▸ few⟩
  · rintro ⟨read, few⟩
    obtain ⟨left, marks, right, written, before, range, behind⟩ := exists_body text
    rw [← Text.joinWith_splitAt '.' (body text)] at written
    exact ⟨left, marks, _, right, written, before, fun c mark => List.contains_iff_mem.mp (range c mark), behind,
      Text.splitAt_ne_nil '.' _, read.length_eq ▸ few, read⟩

private theorem numerals_iff {pieces : List (List Char)} :
    List.Forall₂ Decimal.Numeral pieces numbers ↔ pieces.map Decimal.index? = numbers.map some := by
  rw [← List.forall₂_eq_eq_eq, List.forall₂_map_left_iff, List.forall₂_map_right_iff]
  simp only [Decimal.index?_eq_some_iff]

private theorem parse?_eq_some_iff :
    parse? text = some version ↔
      ∃ numbers, Requests text numbers ∧ [version.major, version.minor, version.patch] = padded numbers := by
  have nonempty := Text.splitAt_ne_nil '.' (body text)
  simp only [requests_iff, numerals_iff]
  rw [parse?, ← body]
  generalize Text.splitAt '.' (body text) = pieces at nonempty ⊢
  constructor
  · intro read
    split at read
    next major same =>
      cases read
      exact ⟨[major], ⟨same, by simp⟩, rfl⟩
    next major minor same =>
      cases read
      exact ⟨[major, minor], ⟨same, by simp⟩, rfl⟩
    next major minor patch same =>
      cases read
      exact ⟨[major, minor, patch], ⟨same, by simp⟩, rfl⟩
    next => cases read
  · rintro ⟨numbers, ⟨same, few⟩, parts⟩
    obtain ⟨major, minor, patch⟩ := version
    rw [same]
    match numbers, few with
    | [], _ => exact absurd (List.map_eq_nil_iff.mp same) nonempty
    | [_], _ => cases parts; rfl
    | [_, _], _ => cases parts; rfl
    | [_, _, _], _ => cases parts; rfl

private theorem atMost_iff {left right : Version} :
    left.atMost right = true ↔ [left.major, left.minor, left.patch] ≤ [right.major, right.minor, right.patch] := by
  simp only [atMost, le_iff_lt_or_eq, Bool.decide_or, Bool.or_eq_true, decide_eq_true_eq, Bool.and_eq_true,
    beq_iff_eq, List.cons_lt_cons_iff, lt_self_iff_false, and_false, or_false, List.cons.injEq, and_true]
  omega

/-- Whether the built-in engine meets a request. -/
def Met (text : String) : Prop :=
  text = "latest-installed" ∨ ∃ numbers, Requests text numbers ∧ padded numbers ≤ [3, 0, 0]

private theorem Requests.unique {others : List Nat} (first : Requests text numbers) (second : Requests text others) :
    numbers = others := by
  have same := (numerals_iff.mp (requests_iff.mp first).1).symm.trans (numerals_iff.mp (requests_iff.mp second).1)
  exact List.map_injective_iff.mpr (fun _ _ => Option.some.inj) same

private theorem Met.le_of_requests (met : Met text) (requested : Requests text numbers) :
    padded numbers ≤ [3, 0, 0] := by
  rcases met with rfl | ⟨others, requested', below⟩
  · -- the word for any version is no number
    obtain ⟨version, parts⟩ := exists_version numbers
    have read := parse?_eq_some_iff.mpr ⟨numbers, requested, parts⟩
    cases (by decide : parse? "latest-installed" = none).symm.trans read
  · rw [requested.unique requested']
    exact below

private theorem meets_iff : meets text = true ↔ Met text := by
  rw [meets, Met, Bool.or_eq_true, beq_iff_eq, Option.any_eq_true]
  apply or_congr_right
  constructor
  · rintro ⟨version, read, below⟩
    obtain ⟨numbers, requested, parts⟩ := parse?_eq_some_iff.mp read
    rw [atMost_iff, parts] at below
    exact ⟨numbers, requested, below⟩
  · rintro ⟨numbers, requested, below⟩
    obtain ⟨version, parts⟩ := exists_version numbers
    refine ⟨version, parse?_eq_some_iff.mpr ⟨numbers, requested, parts⟩, ?_⟩
    rw [atMost_iff, parts]
    exact below

end Version

/-! ## Acquisition -/

namespace Engine

open Version

/-- The engine after some requests. -/
def after (requests : List String) : Engine :=
  requests.foldl (fun engine request => (engine.acquire request).2) idle

private theorem acquire_of_met {request : String} (met : Met request) (engine : Engine) :
    engine.acquire request = (.ok (), ⟨some .builtin⟩) :=
  if_pos (meets_iff.mpr met)

private theorem acquire_of_not_met {request : String} (unmet : ¬Met request) (engine : Engine) :
    engine.acquire request = (.error (.notAcquired request), engine) :=
  if_neg fun meets => unmet (meets_iff.mp meets)

private theorem acquire_ok_iff {request : String} (engine : Engine) :
    (engine.acquire request).1 = .ok () ↔ Met request := by
  by_cases met : Met request
  · rw [acquire_of_met met]
    exact iff_of_true rfl met
  · rw [acquire_of_not_met met]
    exact iff_of_false nofun met

/-- Whether one of some requests was met when it came. -/
def Succeeded (requests : List String) : Prop :=
  ∃ front request back, requests = front ++ request :: back ∧ ((after front).acquire request).1 = .ok ()

private theorem succeeded_iff {requests : List String} : Succeeded requests ↔ ∃ request ∈ requests, Met request := by
  constructor
  · rintro ⟨front, request, back, rfl, done⟩
    exact ⟨request, List.mem_append_right _ List.mem_cons_self, (acquire_ok_iff _).mp done⟩
  · rintro ⟨request, member, met⟩
    obtain ⟨front, back, split⟩ := List.append_of_mem member
    exact ⟨front, request, back, split, (acquire_ok_iff _).mpr met⟩

/-- The requests that come keep a version, and the first of them that is met brings the built-in one. -/
theorem version_foldl (engine : Engine) (requests : List String) :
    (requests.foldl (fun engine request => (engine.acquire request).2) engine).version = some .builtin ∧
        (∃ request ∈ requests, Met request) ∨
      (requests.foldl (fun engine request => (engine.acquire request).2) engine).version = engine.version ∧
        ¬∃ request ∈ requests, Met request := by
  induction requests generalizing engine with
  | nil => exact .inr ⟨rfl, fun ⟨_, member, _⟩ => List.not_mem_nil member⟩
  | cons request requests ih =>
    rw [List.foldl_cons]
    by_cases met : Met request
    · have found : ∃ other ∈ request :: requests, Met other := ⟨request, List.mem_cons_self, met⟩
      rw [acquire_of_met met]
      rcases ih ⟨some .builtin⟩ with ⟨version, -⟩ | ⟨version, -⟩
      · exact .inl ⟨version, found⟩
      · exact .inl ⟨version, found⟩
    · rw [acquire_of_not_met met]
      refine (ih engine).imp (And.imp_right ?_) (And.imp_right ?_)
      · rintro ⟨other, member, met'⟩
        exact ⟨other, List.mem_cons_of_mem _ member, met'⟩
      · rintro none ⟨other, member, met'⟩
        rcases List.mem_cons.mp member with rfl | later
        · exact met met'
        · exact none ⟨other, later, met'⟩

/-- A request is met exactly if it is for any version or for one up to the built-in one, so every lower one is met, too; a
request that is not met changes nothing; and the engine has a version exactly if some request was met. -/
theorem acquisitions_exact (requests : List String) (request : String) :
    (((after requests).acquire request).1 = .ok () ↔
        request = "latest-installed" ∨ ∃ numbers, Requests request numbers ∧ padded numbers ≤ [3, 0, 0]) ∧
      (∀ numbers other lower, ((after requests).acquire request).1 = .ok () → Requests request numbers →
        Requests other lower → padded lower ≤ padded numbers → ((after requests).acquire other).1 = .ok ()) ∧
      (((after requests).acquire request).1 ≠ .ok () →
        (after requests).acquire request = (.error (.notAcquired request), after requests)) ∧
      ((after requests).version = some .builtin ∧ Succeeded requests ∨
        (after requests).version = none ∧ ¬Succeeded requests) := by
  refine ⟨acquire_ok_iff _, ?_, ?_, ?_⟩
  · intro numbers other lower done requested requested' less
    have below := ((acquire_ok_iff _).mp done).le_of_requests requested
    exact (acquire_ok_iff _).mpr (.inr ⟨lower, requested', less.trans below⟩)
  · intro failed
    rw [ne_eq, acquire_ok_iff] at failed
    exact acquire_of_not_met failed _
  · rw [succeeded_iff]
    exact version_foldl idle requests

/-- Only the second of these requests is met, and it stays the only one. -/
example : (after ["3.1", " ^v2.+0 ", "3.0.0.0"]).version = some .builtin ∧ (after ["3.1"]).version = none := by decide

end Engine

end SpecServer
