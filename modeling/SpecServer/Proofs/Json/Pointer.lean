import Mathlib.Data.List.Basic
import SpecServer.Json.Path
import SpecServer.Proofs.Text.Cuts
set_option autoImplicit false

/-!
Fragments that name paths. A key is written into a fragment with its tildes and slashes escaped, and it is read by two
replacements, one after the other. The two act like one that looks at every escape once, since the first leaves no tilde
that was not there before. Hence a fragment gives back the keys it was written from, and two fragments with proper
escapes that name the same path are the same but for the number sign.
-/

namespace SpecServer

/-! ## One character for two -/

namespace Text

variable {first second new c : Char} {text : List Char}

private theorem replacePair_cons_of_ne (other : c ≠ first) (text : List Char) :
    replacePair first second new (c :: text) = c :: replacePair first second new text := by
  cases text with
  | nil => simp only [replacePair]
  | cons d text => rw [replacePair, if_neg fun pair => other pair.1]

private theorem replacePair_pair (text : List Char) :
    replacePair first second new (first :: second :: text) = new :: replacePair first second new text := by
  rw [replacePair, if_pos ⟨rfl, rfl⟩]

private theorem replacePair_other (other : c ≠ second) (text : List Char) :
    replacePair first second new (first :: c :: text) = first :: replacePair first second new (c :: text) := by
  rw [replacePair, if_neg fun pair => other pair.2]

end Text

namespace Path

variable {c : Char}

/-! ## Escapes -/

/-- A character of a key as a fragment holds it. -/
def escapeChar (c : Char) : List Char :=
  if c = '~' then ['~', '0'] else if c = '/' then ['~', '1'] else [c]

/-- A key as a fragment holds it. -/
def escape (key : List Char) : List Char :=
  key.flatMap escapeChar

/-- The fragment that names the path of some keys, without a number sign. -/
def fragment (keys : List String) : List Char :=
  keys.flatMap fun key => '/' :: escape key.toList

private theorem escape_tilde (key : List Char) : escape ('~' :: key) = '~' :: '0' :: escape key :=
  rfl

private theorem escape_slash (key : List Char) : escape ('/' :: key) = '~' :: '1' :: escape key :=
  rfl

private theorem escape_cons (tilde : c ≠ '~') (slash : c ≠ '/') (key : List Char) :
    escape (c :: key) = c :: escape key := by
  rw [escape, List.flatMap_cons, escapeChar, if_neg tilde, if_neg slash]
  rfl

private theorem fragment_cons (key : List Char) (keys : List String) :
    fragment (String.ofList key :: keys) = '/' :: (escape key ++ fragment keys) := by
  rw [fragment, List.flatMap_cons, String.toList_ofList]
  rfl

private theorem slash_not_mem_escape (key : List Char) : '/' ∉ escape key := by
  induction key with
  | nil => exact List.not_mem_nil
  | cons c key ih =>
    by_cases tilde : c = '~'
    · subst tilde
      rw [escape_tilde]
      simp [ih]
    · by_cases slash : c = '/'
      · subst slash
        rw [escape_slash]
        simp [ih]
      · rw [escape_cons tilde slash, List.mem_cons, not_or]
        exact ⟨Ne.symm slash, ih⟩

/-- The first replacement puts the slashes back and leaves the tildes escaped. -/
theorem unescape_slashes (key : List Char) :
    Text.replacePair '~' '1' '/' (escape key) = Text.replaceChar '~' ['~', '0'] key := by
  induction key with
  | nil => rfl
  | cons c key ih =>
    by_cases tilde : c = '~'
    · subst tilde
      rw [escape_tilde, Text.replacePair_other (by decide), Text.replacePair_cons_of_ne (by decide), ih]
      rfl
    · have plain : Text.replaceChar '~' ['~', '0'] (c :: key) = c :: Text.replaceChar '~' ['~', '0'] key := by
        rw [Text.replaceChar, List.flatMap_cons, if_neg tilde]
        rfl
      rw [plain, ← ih]
      by_cases slash : c = '/'
      · subst slash
        rw [escape_slash, Text.replacePair_pair]
      · rw [escape_cons tilde slash, Text.replacePair_cons_of_ne tilde]

private theorem unescape_tildes (key : List Char) :
    Text.replacePair '~' '0' '~' (Text.replaceChar '~' ['~', '0'] key) = key := by
  induction key with
  | nil => rfl
  | cons c key ih =>
    rw [Text.replaceChar, List.flatMap_cons, ← Text.replaceChar]
    by_cases tilde : c = '~'
    · subst tilde
      rw [if_pos rfl, List.cons_append, List.cons_append, List.nil_append, Text.replacePair_pair, ih]
    · rw [if_neg tilde, List.singleton_append, Text.replacePair_cons_of_ne tilde, ih]

private theorem unescape_escape (key : List Char) : unescape (escape key) = key := by
  rw [unescape, unescape_slashes, unescape_tildes]

/-! ## Keys between slashes -/

private theorem splitAt_fragment (key : String) (keys : List String) :
    Text.splitAt '/' (escape key.toList ++ fragment keys) = (key :: keys).map fun key => escape key.toList := by
  induction keys generalizing key with
  | nil =>
    rw [fragment, List.flatMap_nil, List.append_nil, Text.splitAt_of_not_mem (slash_not_mem_escape key.toList)]
    rfl
  | cons next keys ih =>
    rw [fragment, List.flatMap_cons, List.cons_append, Text.splitAt_append (slash_not_mem_escape key.toList),
      ← fragment, ih next]
    rfl

/-- What is left of a fragment without the number sign at its start. -/
def unmarked : List Char → List Char
  | '#' :: rest => rest
  | text => text

private theorem unmarked_eq (text : List Char) : (Text.after? ['#'] text).getD text = unmarked text := by
  cases text with
  | nil => rfl
  | cons c rest =>
    by_cases mark : '#' = c
    · subst mark
      rfl
    · simp only [Text.after?, if_neg mark, Option.getD_none]
      rw [unmarked]
      rintro _ same
      exact mark (List.cons.inj same).1.symm

private theorem unmarked_fragment (keys : List String) : unmarked (fragment keys) = fragment keys := by
  cases keys with
  | nil => rfl
  | cons key keys => rfl

def ofUnmarked? : List Char → Option Path
  | [] => some root
  | '/' :: rest => some ((Text.splitAt '/' rest).map fun raw => .key (String.ofList (unescape raw)))
  | _ => none

private theorem ofPointer?_eq (text : String) : ofPointer? text = ofUnmarked? (unmarked text.toList) := by
  rw [ofPointer?, unmarked_eq]
  rfl

private theorem ofUnmarked?_fragment (keys : List String) : ofUnmarked? (fragment keys) = some (ofKeys keys) := by
  cases keys with
  | nil => rfl
  | cons key keys =>
    have read : ∀ name : String, String.ofList (unescape (escape name.toList)) = name := by
      intro name
      rw [unescape_escape, String.ofList_toList]
    rw [fragment, List.flatMap_cons, List.cons_append, ← fragment, ofUnmarked?, splitAt_fragment, List.map_map]
    simp only [Function.comp_def, read]
    rfl

/-! ## Fragments with proper escapes -/

/-- Whether each tilde of a fragment starts an escape. -/
def Escaped (text : List Char) : Prop :=
  ∀ front rest, text = front ++ '~' :: rest → rest.head? = some '0' ∨ rest.head? = some '1'

private theorem Escaped.of_append (front : List Char) {back : List Char} (proper : Escaped (front ++ back)) :
    Escaped back := by
  intro before rest same
  apply proper (front ++ before)
  rw [same, List.append_assoc]

private theorem Escaped.unmarked {text : List Char} (proper : Escaped text) : Escaped (unmarked text) := by
  rw [Path.unmarked.eq_def]
  split
  · exact Escaped.of_append ['#'] proper
  · exact proper

/-- A text with proper escapes starts with a key, and each slash starts another one. -/
theorem Escaped.exists_keys {text : List Char} (proper : Escaped text) :
    ∃ key keys, text = escape key ++ fragment keys := by
  induction size : text.length using Nat.strongRecOn generalizing text with
  | ind size ih =>
    subst size
    -- an escape takes two characters at once
    have later : ∀ front back, text = front ++ back → front ≠ [] → ∃ key keys, back = escape key ++ fragment keys := by
      intro front back same taken
      subst same
      apply ih back.length _ (Escaped.of_append front proper) rfl
      rw [List.length_append]
      exact Nat.lt_add_of_pos_left (List.length_pos_iff.mpr taken)
    cases text with
    | nil => exact ⟨[], [], rfl⟩
    | cons c rest =>
      by_cases slash : c = '/'
      · subst slash
        obtain ⟨key, keys, rfl⟩ := later ['/'] rest rfl (List.cons_ne_nil _ _)
        exact ⟨[], String.ofList key :: keys, (fragment_cons key keys).symm⟩
      · by_cases tilde : c = '~'
        · subst tilde
          have ends := proper [] rest rfl
          cases rest with
          | nil => cases ends <;> contradiction
          | cons d rest =>
            obtain ⟨key, keys, rfl⟩ := later ['~', d] rest rfl (List.cons_ne_nil _ _)
            simp only [List.head?_cons, Option.some.injEq] at ends
            obtain rfl | rfl := ends
            · exact ⟨'~' :: key, keys, rfl⟩
            · exact ⟨'/' :: key, keys, rfl⟩
        · obtain ⟨key, keys, rfl⟩ := later [c] rest rfl (List.cons_ne_nil _ _)
          refine ⟨c :: key, keys, ?_⟩
          rw [escape_cons tilde slash, List.cons_append]

private theorem ofUnmarked?_isSome (text : List Char) :
    (ofUnmarked? text).isSome = true ↔ text = [] ∨ text.head? = some '/' := by
  cases text with
  | nil => exact iff_of_true rfl (.inl rfl)
  | cons c rest =>
    by_cases slash : c = '/'
    · subst slash
      exact iff_of_true rfl (.inr rfl)
    · apply iff_of_false
      · rw [ofUnmarked?]
        · exact Bool.false_ne_true
        · exact nofun
        · rintro _ same
          exact slash (List.cons.inj same).1
      · simp [slash]

private theorem Escaped.eq_fragment {text : List Char} {path : Path} (proper : Escaped text)
    (names : ofUnmarked? text = some path) : ∃ keys, text = fragment keys ∧ path = ofKeys keys := by
  have read : ∀ keys, text = fragment keys → ∃ keys, text = fragment keys ∧ path = ofKeys keys := by
    intro keys same
    rw [same, ofUnmarked?_fragment] at names
    exact ⟨keys, same, (Option.some.inj names).symm⟩
  have accepted : (ofUnmarked? text).isSome = true := by
    rw [names]
    rfl
  obtain rfl | slash := (ofUnmarked?_isSome text).mp accepted
  · exact read [] rfl
  · obtain ⟨rest, rfl⟩ := List.head?_eq_some_iff.mp slash
    obtain ⟨key, keys, rfl⟩ := Escaped.exists_keys (Escaped.of_append ['/'] proper)
    exact read (String.ofList key :: keys) (fragment_cons key keys).symm

theorem ofKeys_injective : Function.Injective ofKeys := by
  apply Function.Injective.list_map
  intro left right same
  exact Segment.key.inj same

/-- A fragment gives back the keys it was written from, with or without a number sign. What names a path starts with a
slash or is empty, behind one number sign, and with proper escapes only the number sign can differ. -/
theorem fragments_exact :
    (∀ keys, ofPointer? (String.ofList (fragment keys)) = some (ofKeys keys) ∧
        ofPointer? (String.ofList ('#' :: fragment keys)) = some (ofKeys keys)) ∧
      (∀ text, (ofPointer? text).isSome = true ↔ unmarked text.toList = [] ∨ (unmarked text.toList).head? = some '/') ∧
      ∀ left right path, Escaped left.toList → Escaped right.toList → ofPointer? left = some path →
        ofPointer? right = some path → unmarked left.toList = unmarked right.toList := by
  simp only [ofPointer?_eq]
  refine ⟨?_, ?_, ?_⟩
  · intro keys
    rw [String.toList_ofList, String.toList_ofList, unmarked_fragment, unmarked, ofUnmarked?_fragment]
    exact ⟨rfl, rfl⟩
  · intro text
    exact ofUnmarked?_isSome (unmarked text.toList)
  · intro left right path proper proper' names names'
    obtain ⟨keys, written, rfl⟩ := proper.unmarked.eq_fragment names
    obtain ⟨others, written', same⟩ := proper'.unmarked.eq_fragment names'
    rw [written, written', ofKeys_injective same]

example : ofPointer? "#/~01/#~0~1/" = some (ofKeys ["~1", "#~/", ""]) := by decide

end Path

end SpecServer
