import Mathlib.Data.List.Nodup
import SpecServer.Json.Path
import SpecServer.Proofs.Text.Runs
import SpecServer.Protocol.Encode
set_option autoImplicit false

/-!
The text of a path tells the path. A quote in a key is escaped but a backslash is not, so a key may end like one that
goes on; yet what follows would then have to be the text of two different paths again and again, and it is too short for
that. Thus the sources of a merged definition are told apart by the texts of their paths.
-/

namespace SpecServer

namespace Path

variable {left right name more front back rest : List Char} {path other : Path} {c : Char}

def spelled (path : Path) : List Char :=
  path.flatMap segmentText

def escaped (name : List Char) : List Char :=
  Text.replaceChar '\x27' ['\\', '\x27'] name

def closed (name rest : List Char) : List Char :=
  escaped name ++ '\x27' :: ']' :: rest

theorem spelled_cons (segment : Segment) (path : Path) : spelled (segment :: path) = segmentText segment ++ spelled path :=
  List.flatMap_cons

theorem escaped_quote (name : List Char) : escaped ('\x27' :: name) = '\\' :: '\x27' :: escaped name :=
  rfl

theorem escaped_cons (plain : c ≠ '\x27') (name : List Char) : escaped (c :: name) = c :: escaped name := by
  rw [escaped, Text.replaceChar, List.flatMap_cons, if_neg plain]
  rfl

theorem escaped_append (front back : List Char) : escaped (front ++ back) = escaped front ++ escaped back :=
  List.flatMap_append

theorem mem_escaped (plain : c ≠ '\x27') (other : c ≠ '\\') : c ∈ escaped name ↔ c ∈ name := by
  induction name with
  | nil => rfl
  | cons d name ih =>
    by_cases quote : d = '\x27'
    · subst quote
      simp [escaped_quote, plain, other, ih]
    · rw [escaped_cons quote, List.mem_cons, List.mem_cons, ih]

private theorem length_escaped (name : List Char) : (escaped name).length = name.length + name.count '\x27' := by
  induction name with
  | nil => rfl
  | cons d name ih =>
    by_cases quote : d = '\x27'
    · subst quote
      simp only [escaped_quote, List.length_cons, ih, List.count_cons_self]
      omega
    · rw [escaped_cons quote, List.length_cons, List.length_cons, ih, List.count_cons_of_ne quote]
      omega

private theorem escaped_of_not_mem (absent : '\x27' ∉ name) : escaped name = name := by
  induction name with
  | nil => rfl
  | cons d name ih =>
    simp only [List.mem_cons, not_or] at absent
    rw [escaped_cons (Ne.symm absent.1), ih absent.2]

theorem escaped_eq_self_iff : escaped name = name ↔ '\x27' ∉ name := by
  refine ⟨fun same => List.count_eq_zero.mp ?_, escaped_of_not_mem⟩
  have grown := length_escaped name
  rw [same] at grown
  omega

private theorem closed_cons (plain : c ≠ '\x27') (name rest : List Char) :
    closed (c :: name) rest = c :: closed name rest := by
  rw [closed, escaped_cons plain]
  rfl

/-- A quoted key starts with the quote that ends it, with a quote of its own or with another character. -/
theorem closed_cases (same : closed name rest = c :: more) :
    (name = [] ∧ c = '\x27' ∧ more = ']' :: rest) ∨
      (∃ further, name = '\x27' :: further ∧ c = '\\' ∧ more = '\x27' :: closed further rest) ∨
      ∃ further, name = c :: further ∧ c ≠ '\x27' ∧ more = closed further rest := by
  cases name with
  | nil =>
    cases same
    exact .inl ⟨rfl, rfl, rfl⟩
  | cons d name =>
    by_cases quote : d = '\x27'
    · subst quote
      cases same
      exact .inr (.inl ⟨name, rfl, rfl, rfl⟩)
    · rw [closed_cons quote] at same
      cases same
      exact .inr (.inr ⟨name, rfl, quote, rfl⟩)

/-! ## Texts of segments -/

theorem segmentText_identifier {name : String} (plain : isIdentifier name.toList = true) :
    segmentText (.key name) = '.' :: name.toList := by
  rw [segmentText, if_pos plain]

theorem segmentText_quoted {name : String} (quoted : isIdentifier name.toList = false) :
    segmentText (.key name) ++ rest = '[' :: '\x27' :: closed name.toList rest := by
  simp [segmentText, quoted, closed, escaped]

theorem segmentText_index (i : Nat) : segmentText (.index i) ++ rest = '[' :: (Nat.toDigits 10 i ++ ']' :: rest) := by
  simp [segmentText]

theorem continuesIdentifier_of_mem (plain : isIdentifier name = true) (member : c ∈ name) :
    continuesIdentifier c = true := by
  cases name with
  | nil => cases member
  | cons first name =>
    simp only [isIdentifier, Bool.and_eq_true, List.all_eq_true] at plain
    rcases List.mem_cons.mp member with rfl | later
    · simp [continuesIdentifier, plain.1]
    · exact plain.2 c later

theorem segmentText_ne_nil (segment : Segment) : segmentText segment ≠ [] := by
  cases segment with
  | index i => exact List.cons_ne_nil _ _
  | key name =>
    rw [segmentText]
    split <;> exact List.cons_ne_nil _ _

theorem spelled_head (path : Path) : ∀ c ∈ path.spelled.head?, c = '.' ∨ c = '[' := by
  cases path with
  | nil => nofun
  | cons segment path =>
    intro c found
    rw [spelled_cons] at found
    cases segment with
    | index i =>
      rw [segmentText_index] at found
      cases found
      exact .inr rfl
    | key name =>
      cases plain : isIdentifier name.toList with
      | true =>
        rw [segmentText_identifier plain] at found
        cases found
        exact .inl rfl
      | false =>
        rw [segmentText_quoted plain] at found
        cases found
        exact .inr rfl

private theorem endsRun_spelled (path : Path) : Text.EndsRun continuesIdentifier path.spelled := by
  intro c found
  rcases spelled_head path c found with rfl | rfl <;> rfl

theorem isDigit_toDigits (i : Nat) : ∀ c ∈ Nat.toDigits 10 i, c.isDigit = true :=
  fun _ => Nat.isDigit_of_mem_toDigits (by decide) (by decide)

/-- A segment is written without quotes and backslashes, or it is a key in quotes. -/
theorem segmentText_cases (segment : Segment) :
    (∀ c ∈ segmentText segment, c ≠ '\x27' ∧ c ≠ '\\') ∨
      ∃ name, segment = .key name ∧ isIdentifier name.toList = false := by
  cases segment with
  | index i =>
    left
    intro c member
    simp only [segmentText, List.cons_append, List.mem_cons, List.mem_append, List.not_mem_nil, or_false] at member
    rcases member with rfl | digit | rfl
    · decide
    · have := isDigit_toDigits i c digit
      constructor <;> rintro rfl <;> cases this
    · decide
  | key name =>
    cases bare : isIdentifier name.toList with
    | false => exact .inr ⟨name, rfl, bare⟩
    | true =>
      left
      intro c member
      rw [segmentText_identifier bare] at member
      rcases List.mem_cons.mp member with rfl | further
      · decide
      · have := continuesIdentifier_of_mem bare further
        constructor <;> rintro rfl <;> cases this

/-! ## Keys between quotes -/

/-- Characters without a quote or a backslash stand in a quoted key as they are. -/
theorem closed_of_plain (plain : ∀ c ∈ front, c ≠ '\x27' ∧ c ≠ '\\') (same : closed name rest = front ++ back) :
    ∃ more, closed more rest = back := by
  induction front generalizing name with
  | nil => exact ⟨name, same⟩
  | cons c front ih =>
    obtain ⟨first, later⟩ := List.forall_mem_cons.mp plain
    rcases closed_cases same with ⟨-, quote, -⟩ | ⟨_, -, backslash, -⟩ | ⟨further, -, -, tails⟩
    · exact absurd quote first.1
    · exact absurd backslash first.2
    · exact ih later tails.symm

private theorem closed_of_quote (same : closed name rest = '\x27' :: more) : name = [] ∧ more = ']' :: rest := by
  rcases closed_cases same with ⟨rfl, -, tails⟩ | ⟨_, -, backslash, -⟩ | ⟨_, -, other, -⟩
  · exact ⟨rfl, tails⟩
  · cases backslash
  · exact absurd rfl other

private theorem closed_of_bracket (same : closed name rest = ']' :: more) : ∃ further, more = closed further rest := by
  rcases closed_cases same with ⟨-, quote, -⟩ | ⟨_, -, backslash, -⟩ | ⟨further, -, -, tails⟩
  · cases quote
  · cases backslash
  · exact ⟨further, tails⟩

/-- A path is never spelled like the rest of a quoted key with another path behind it. The quote that ends the key would
be the first one of the path and thus an opening one, whose key starts with a bracket, and so the other path would be
spelled like the rest of that key with what follows it. -/
theorem closed_ne_spelled (path other : Path) (name : List Char) : closed name other.spelled ≠ path.spelled := by
  induction size : path.spelled.length using Nat.strongRecOn generalizing path other name with
  | ind size ih =>
    subst size
    intro same
    cases path with
    | nil => simp [spelled, closed] at same
    | cons segment path =>
      have lengths := congrArg List.length same
      rw [spelled_cons] at same lengths ih
      rcases segmentText_cases segment with plain | ⟨key, rfl, quoted⟩
      · obtain ⟨more, rests⟩ := closed_of_plain plain same
        refine ih _ ?_ path other more rfl rests
        rw [List.length_append]
        have := List.length_pos_of_ne_nil (segmentText_ne_nil segment)
        omega
      · rw [segmentText_quoted quoted] at same
        rcases closed_cases same with ⟨-, quote, -⟩ | ⟨_, -, backslash, -⟩ | ⟨further, -, -, tails⟩
        · cases quote
        · cases backslash
        · obtain ⟨more, rests⟩ := closed_of_bracket (closed_of_quote tails.symm).2
          refine ih _ ?_ other path more rfl rests.symm
          rw [← lengths, closed, List.length_append, List.length_cons, List.length_cons]
          omega

/-- A key with a quote where another one ends with a backslash would leave the rest of a quoted key to the path behind
that one. -/
theorem closed_ne_quote (path other : Path) : closed left path.spelled ≠ '\x27' :: closed right other.spelled := by
  intro same
  obtain ⟨more, rests⟩ := closed_of_bracket (closed_of_quote same).2
  exact closed_ne_spelled path other more rests.symm

private theorem closed_cut (same : closed left path.spelled = closed right other.spelled) :
    left = right ∧ path.spelled = other.spelled := by
  induction left generalizing right with
  | nil =>
    obtain ⟨rfl, rests⟩ := closed_of_quote same.symm
    exact ⟨rfl, (List.cons.inj rests).2⟩
  | cons c left ih =>
    by_cases quote : c = '\x27'
    · subst quote
      rcases closed_cases same.symm with ⟨-, end', -⟩ | ⟨further, rfl, -, tails⟩ | ⟨further, rfl, -, tails⟩
      · cases end'
      · obtain ⟨rfl, rests⟩ := ih (List.cons.inj tails).2
        exact ⟨rfl, rests⟩
      · exact absurd tails.symm (closed_ne_quote other path)
    · rw [closed_cons quote] at same
      rcases closed_cases same.symm with ⟨-, end', -⟩ | ⟨further, rfl, rfl, tails⟩ | ⟨further, rfl, -, tails⟩
      · exact absurd end' quote
      · exact absurd tails (closed_ne_quote path other)
      · obtain ⟨rfl, rests⟩ := ih tails
        exact ⟨rfl, rests⟩

/-! ## Whole paths -/

private theorem index_ne_key (i : Nat) (name : String) :
    segmentText (.index i) ++ front ≠ segmentText (.key name) ++ back := by
  intro same
  rw [segmentText_index] at same
  cases bare : isIdentifier name.toList with
  | true =>
    rw [segmentText_identifier bare] at same
    cases (List.cons.inj same).1
  | false =>
    rw [segmentText_quoted bare] at same
    have inside := (List.cons.inj same).2
    obtain ⟨digit, digits, written⟩ := List.exists_cons_of_ne_nil (Nat.toDigits_ne_nil (n := i) (b := 10))
    have first := isDigit_toDigits i digit (written ▸ List.mem_cons_self)
    rw [written] at inside
    obtain rfl := (List.cons.inj inside).1
    cases first

private theorem index_cut {i j : Nat} (same : segmentText (.index i) ++ front = segmentText (.index j) ++ back) :
    i = j ∧ front = back := by
  rw [segmentText_index, segmentText_index] at same
  have stops : ∀ rest, Text.EndsRun Char.isDigit (']' :: rest) := by
    intro rest c found
    cases found
    rfl
  obtain ⟨digits, rests⟩ :=
    Text.append_cut (isDigit_toDigits i) (isDigit_toDigits j) (stops _) (stops _) (List.cons.inj same).2
  have equal := congrArg (Nat.ofDigitChars 10 · 0) digits
  simp only [Nat.ofDigitChars_ten_toDigits] at equal
  exact ⟨equal, (List.cons.inj rests).2⟩

private theorem key_cut {name label : String}
    (same : segmentText (.key name) ++ path.spelled = segmentText (.key label) ++ other.spelled) :
    name = label ∧ path.spelled = other.spelled := by
  cases bare : isIdentifier name.toList with
  | true =>
    rw [segmentText_identifier bare] at same
    cases simple : isIdentifier label.toList with
    | true =>
      rw [segmentText_identifier simple] at same
      obtain ⟨names, rests⟩ := Text.append_cut (fun _ => continuesIdentifier_of_mem bare)
        (fun _ => continuesIdentifier_of_mem simple) (endsRun_spelled path) (endsRun_spelled other) (List.cons.inj same).2
      exact ⟨String.toList_injective names, rests⟩
    | false =>
      rw [segmentText_quoted simple] at same
      cases (List.cons.inj same).1
  | false =>
    rw [segmentText_quoted bare] at same
    cases simple : isIdentifier label.toList with
    | true =>
      rw [segmentText_identifier simple] at same
      cases (List.cons.inj same).1
    | false =>
      rw [segmentText_quoted simple] at same
      obtain ⟨names, rests⟩ := closed_cut (List.cons.inj (List.cons.inj same).2).2
      exact ⟨String.toList_injective names, rests⟩

private theorem segmentText_cut {segment next : Segment}
    (same : segmentText segment ++ path.spelled = segmentText next ++ other.spelled) :
    segment = next ∧ path.spelled = other.spelled := by
  cases segment with
  | index i =>
    cases next with
    | index j => exact (index_cut same).imp_left (congrArg _)
    | key label => exact absurd same (index_ne_key i label)
  | key name =>
    cases next with
    | index j => exact absurd same.symm (index_ne_key j name)
    | key label => exact (key_cut same).imp_left (congrArg _)

private theorem spelled_injective : Function.Injective spelled := by
  intro path other same
  induction path generalizing other with
  | nil =>
    cases other with
    | nil => rfl
    | cons segment other =>
      rw [spelled_cons] at same
      exact absurd (List.append_eq_nil_iff.mp same.symm).1 (segmentText_ne_nil segment)
  | cons segment path ih =>
    cases other with
    | nil =>
      rw [spelled_cons] at same
      exact absurd (List.append_eq_nil_iff.mp same).1 (segmentText_ne_nil segment)
    | cons next other =>
      rw [spelled_cons, spelled_cons] at same
      obtain ⟨rfl, rests⟩ := segmentText_cut same
      rw [ih rests]

theorem display_injective : Function.Injective display :=
  fun _ _ same => spelled_injective (List.cons.inj (String.ofList_injective same)).2

end Path

end SpecServer
