import Mathlib.Algebra.Group.Nat.Defs
import SpecServer.Proofs.Uri.Host
import SpecServer.Proofs.Uri.Walk
set_option autoImplicit false

/-!
Addresses are written so that they are read back: four bytes in decimal digits, and eight groups in hexadecimal ones, of
which the longest run of zeros is left out.
-/

namespace SpecServer

namespace Decimal

private theorem digit?_digitChar {base : Nat} (small : base ≤ 16) {d : Nat} (below : d < base) :
    digit? base (Nat.digitChar d) = some d := by
  have value : ∀ d < 16, digit? 16 (Nat.digitChar d) = some d := by decide
  have found := value d (by omega)
  simp only [digit?, Option.filter_eq_some_iff, decide_eq_true_eq] at found ⊢
  exact ⟨found.1, below⟩

private theorem digitsFrom?_toDigits {base : Nat} (large : 1 < base) (small : base ≤ 16) (n : Nat) (rest : List Char) :
    digitsFrom? base 0 (Nat.toDigits base n ++ rest) = digitsFrom? base n rest := by
  induction n using Nat.strongRecOn generalizing rest with
  | ind n ih =>
    rw [Nat.toDigits_eq_if large]
    split
    next below =>
      simp only [List.singleton_append, digitsFrom?, digit?_digitChar small below, Nat.zero_mul, Nat.zero_add]
    next =>
      have whole : n / base * base + n % base = n := Nat.div_add_mod' n base
      rw [List.append_assoc, ih (n / base) (Nat.div_lt_self (by omega) large)]
      simp only [List.singleton_append, digitsFrom?, digit?_digitChar small (Nat.mod_lt n (by omega)), whole]

theorem digits?_toDigits {base : Nat} (large : 1 < base) (small : base ≤ 16) (n : Nat) :
    digits? base (Nat.toDigits base n) = some n := by
  have some : (Nat.toDigits base n).isEmpty = false := by
    rw [Nat.toDigits_eq_if large]
    split <;> simp
  have value := digitsFrom?_toDigits large small n []
  rw [List.append_nil] at value
  simp only [digits?, some, Bool.false_eq_true, ↓reduceIte, value, digitsFrom?]

private theorem digitsFrom?_lt {base : Nat} {text : List Char} {value n : Nat}
    (read : digitsFrom? base value text = some n) :
    n < (value + 1) * base ^ text.length := by
  induction text generalizing value with
  | nil =>
    obtain rfl := Option.some.inj read
    simp
  | cons c rest ih =>
    simp only [digitsFrom?] at read
    split at read
    next d digit =>
      have below : d < base := by
        simp only [digit?, Option.filter_eq_some_iff, decide_eq_true_eq] at digit
        exact digit.2
      calc n < (value * base + d + 1) * base ^ rest.length := ih read
        _ ≤ (value * base + base) * base ^ rest.length := Nat.mul_le_mul_right _ (by omega)
        _ = (value + 1) * base ^ (c :: rest).length := by
          rw [List.length_cons, Nat.pow_succ, ← Nat.succ_mul, Nat.mul_assoc, Nat.mul_comm base]
    next => cases read

end Decimal

namespace Uri

/-! ## Four bytes -/

private theorem not_mem_toDigits {base n : Nat} (large : 1 < base) (small : base ≤ 16) {c : Char}
    (other : ∀ d < 16, c ≠ Nat.digitChar d) : c ∉ Nat.toDigits base n := by
  intro member
  obtain ⟨d, below, same⟩ := mem_toDigits large member
  exact other d (by omega) same

private theorem addressPart_toDigits : ∀ n < 256, addressPart (Nat.toDigits 10 n) = .number n := by
  decide +kernel

def addressBytes (value : Nat) : List Nat :=
  [value / Nat.pow 2 24 % 256, value / Nat.pow 2 16 % 256, value / Nat.pow 2 8 % 256, value % 256]

private theorem addressParts_addressText (value : Nat) :
    addressParts (addressText value) = (addressBytes value).map (Nat.toDigits 10) := by
  have dotless : ∀ part ∈ (addressBytes value).map (Nat.toDigits 10), '.' ∉ part := by
    intro part member
    obtain ⟨n, -, rfl⟩ := List.mem_map.mp member
    exact not_mem_toDigits (by decide) (by decide) (by decide)
  have cut : Text.splitAt '.' (addressText value) = (addressBytes value).map (Nat.toDigits 10) :=
    Text.splitAt_joinWith _ _ dotless
  have last : ((addressBytes value).map (Nat.toDigits 10)).getLast? = some (Nat.toDigits 10 (value % 256)) := rfl
  have some : Nat.toDigits 10 (value % 256) ≠ [] := by
    rw [Nat.toDigits_eq_if (by decide)]
    split <;> simp
  simp only [addressParts, cut, last, Option.some.injEq, some, ↓reduceIte]

theorem ipv4?_addressText (value : Nat) : ipv4? (addressText value) = some (addressText value) := by
  have numbers : (((addressBytes value).map (Nat.toDigits 10)).map fun part => (addressPart part).number?) =
      (addressBytes value).map some := by
    rw [List.map_map]
    refine List.map_congr_left fun n member => ?_
    have below : n < 256 := by
      simp only [addressBytes, List.mem_cons, List.not_mem_nil, or_false] at member
      rcases member with rfl | rfl | rfl | rfl <;> exact Nat.mod_lt _ (by decide)
    simp only [Function.comp_apply, addressPart_toDigits n below, AddressPart.number?]
  have collected : ((addressBytes value).map some).mapM id = some (addressBytes value) := rfl
  have summed : addressValue? (addressBytes value) = some (value % 2 ^ 32) := by
    have small : ∀ n : Nat, n % 256 < 256 := fun n => Nat.mod_lt n (by decide)
    have h1 := small (value / 2 ^ 24)
    have h2 := small (value / 2 ^ 16)
    have h3 := small (value / 2 ^ 8)
    have h4 := small value
    simp [addressValue?, addressBytes, List.zipIdx]
    omega
  have written : addressText (value % 2 ^ 32) = addressText value := by
    have bytes : addressBytes (value % 2 ^ 32) = addressBytes value := by
      simp only [addressBytes, List.cons.injEq, and_true]
      refine ⟨?_, ?_, ?_, ?_⟩ <;> simp <;> omega
    exact congrArg (fun bytes => Text.joinWith ['.'] (bytes.map (Nat.toDigits 10))) bytes
  rw [ipv4?, addressParts_addressText, numbers, collected]
  simp only [summed, Option.map_some, written]

/-! ## Eight groups -/

def writeGroups (groups : List Nat) : List Char :=
  Text.joinWith [':'] (groups.map (Nat.toDigits 16))

private theorem groupsText_eq (groups : List Nat) : groupsText groups =
    if (longestZeros groups).2 < 2 then writeGroups groups
    else writeGroups (groups.take (longestZeros groups).1) ++
      ':' :: ':' :: writeGroups (groups.drop ((longestZeros groups).1 + (longestZeros groups).2)) := rfl

private theorem toDigits_ne_nil {base : Nat} (large : 1 < base) (n : Nat) : Nat.toDigits base n ≠ [] := by
  rw [Nat.toDigits_eq_if large]
  split <;> simp

private theorem length_toDigits_le {base : Nat} (large : 1 < base) {n size : Nat} (small : n < base ^ (size + 1)) :
    (Nat.toDigits base n).length ≤ size + 1 := by
  induction size generalizing n with
  | zero =>
    rw [Nat.toDigits_eq_if large, if_pos (by simpa using small)]
    simp
  | succ size ih =>
    rw [Nat.toDigits_eq_if large]
    split
    · simp
    · have shorter : n / base < base ^ (size + 1) :=
        Nat.div_lt_of_lt_mul (by rwa [Nat.pow_succ, Nat.mul_comm] at small)
      have := ih shorter
      simp only [List.length_append, List.length_singleton]
      omega

private theorem colon_not_mem_toDigits (n : Nat) : ':' ∉ Nat.toDigits 16 n :=
  not_mem_toDigits (by decide) (by decide) (by decide)

private theorem group?_toDigits {n : Nat} (small : n < 65536) : group? (Nat.toDigits 16 n) = some n := by
  have short : (Nat.toDigits 16 n).length ≤ 4 := length_toDigits_le (by decide) (by simpa using small)
  rw [group?, if_neg (by omega), Decimal.digits?_toDigits (by decide) (by decide)]

private theorem groups?_toDigits (ends : Bool) {groups : List Nat} (small : ∀ n ∈ groups, n < 65536) :
    groups? ends (groups.map (Nat.toDigits 16)) = some groups := by
  induction groups with
  | nil => rfl
  | cons n more ih =>
    obtain ⟨first, later⟩ := List.forall_mem_cons.mp small
    cases more with
    | nil =>
      have dotless : (Nat.toDigits 16 n).contains '.' = false := by
        rw [List.contains_eq_mem, decide_eq_false_iff_not]
        exact not_mem_toDigits (by decide) (by decide) (by decide)
      simp only [List.map_cons, List.map_nil, groups?, dotless, Bool.and_false, Bool.false_eq_true, ↓reduceIte,
        group?_toDigits first, Option.map_some]
    | cons next more =>
      have others := ih later
      simp only [List.map_cons] at others ⊢
      simp only [groups?, group?_toDigits first, others]

private theorem side?_writeGroups (ends : Bool) {groups : List Nat} (small : ∀ n ∈ groups, n < 65536) :
    side? ends (writeGroups groups) = some groups := by
  cases groups with
  | nil => rfl
  | cons n more =>
    have some : (writeGroups (n :: more)).isEmpty = false := by
      rw [List.isEmpty_eq_false_iff, writeGroups]
      cases more with
      | nil => exact toDigits_ne_nil (by decide) n
      | cons next more => simp [Text.joinWith]
    have cut : Text.splitAt ':' (writeGroups (n :: more)) = (n :: more).map (Nat.toDigits 16) := by
      refine Text.splitAt_joinWith _ _ fun piece member => ?_
      obtain ⟨group, -, rfl⟩ := List.mem_map.mp (List.map_cons ▸ member)
      exact colon_not_mem_toDigits group
    rw [side?, some, if_neg Bool.false_ne_true, cut, groups?_toDigits ends small]

private theorem splitDouble?_append {piece : List Char} (absent : ':' ∉ piece) (rest : List Char) :
    splitDouble? (piece ++ rest) = (splitDouble? rest).map fun found => (piece ++ found.1, found.2) := by
  induction piece with
  | nil => simp
  | cons c piece ih =>
    simp only [List.mem_cons, not_or] at absent
    rw [List.cons_append, splitDouble?.eq_3, ih absent.2, Option.map_map]
    · rfl
    · rintro other rfl
      exact absurd rfl absent.1

/-- Written groups hold no double colon, and one that follows them is found. -/
theorem splitDouble?_writeGroups (groups : List Nat) (back : List Char) :
    splitDouble? (writeGroups groups) = none ∧
      splitDouble? (writeGroups groups ++ ':' :: ':' :: back) = some (writeGroups groups, back) := by
  cases groups with
  | nil => exact ⟨rfl, rfl⟩
  | cons n more =>
    induction more generalizing n with
    | nil =>
      have alone : writeGroups [n] = Nat.toDigits 16 n ++ [] := (List.append_nil _).symm
      constructor
      · rw [alone, splitDouble?_append (colon_not_mem_toDigits n)]
        rfl
      · rw [alone, List.append_nil, splitDouble?_append (colon_not_mem_toDigits n)]
        simp [splitDouble?]
    | cons next more ih =>
      have written : writeGroups (n :: next :: more) = Nat.toDigits 16 n ++ ':' :: writeGroups (next :: more) := by
        simp [writeGroups, Text.joinWith]
      -- what follows the colon starts with a digit
      have single : ∀ rest, splitDouble? (':' :: (writeGroups (next :: more) ++ rest)) =
          (splitDouble? (writeGroups (next :: more) ++ rest)).map fun found => (':' :: found.1, found.2) := by
        intro rest
        obtain ⟨c, others, lead⟩ := List.exists_cons_of_ne_nil (toDigits_ne_nil (show 1 < 16 by decide) next)
        have apart : c ≠ ':' := by
          rintro rfl
          exact colon_not_mem_toDigits next (lead ▸ List.mem_cons_self)
        obtain ⟨tail, shape⟩ : ∃ tail, writeGroups (next :: more) = c :: tail := by
          cases more with
          | nil => exact ⟨others, lead⟩
          | cons _ _ => exact ⟨_, by rw [writeGroups, List.map_cons, List.map_cons, Text.joinWith, lead]; rfl⟩
        rw [shape, List.cons_append, splitDouble?.eq_3]
        intro more' _ same
        exact apart (List.cons.inj same).1
      obtain ⟨none, found⟩ := ih next
      have single' := single []
      rw [List.append_nil] at single'
      constructor
      · rw [written, splitDouble?_append (colon_not_mem_toDigits n), single', none]
        rfl
      · rw [written, List.append_assoc, List.cons_append, splitDouble?_append (colon_not_mem_toDigits n), single, found]
        rfl

def longerRun (groups : List Nat) (best : Nat × Nat) (i : Nat) : Nat × Nat :=
  if best.2 < zeros (groups.drop i) then (i, zeros (groups.drop i)) else best

private theorem longestZeros_eq (groups : List Nat) :
    longestZeros groups = (List.range groups.length).foldl (longerRun groups) (0, 0) := rfl

private theorem longestZeros_spec (groups : List Nat) :
    ∃ rest, (longestZeros groups).2 ≠ 0 →
      groups.drop (longestZeros groups).1 = List.replicate (longestZeros groups).2 0 ++ rest := by
  have run : ∀ some : List Nat, some = List.replicate (zeros some) 0 ++ some.drop (zeros some) := by
    intro some
    induction some with
    | nil => rfl
    | cons n more ih =>
      by_cases zero : n = 0
      · subst zero
        have longer : zeros (0 :: more) = zeros more + 1 := by simp [zeros]
        rw [longer, List.replicate_succ, List.cons_append, List.drop_succ_cons, ← ih]
      · have none : zeros (n :: more) = 0 := by simp [zeros, zero]
        rw [none]
        rfl
  have kept : ∀ (places : List Nat) (best : Nat × Nat), (best.2 ≠ 0 → best.2 = zeros (groups.drop best.1)) →
      (places.foldl (longerRun groups) best).2 ≠ 0 →
      (places.foldl (longerRun groups) best).2 = zeros (groups.drop (places.foldl (longerRun groups) best).1) := by
    intro places
    induction places with
    | nil => exact fun _ before => before
    | cons i rest ih =>
      intro best before
      rw [List.foldl_cons]
      refine ih _ ?_
      simp only [longerRun]
      split
      · exact fun _ => rfl
      · exact before
  refine ⟨(groups.drop (longestZeros groups).1).drop (longestZeros groups).2, fun some => ?_⟩
  have length := kept (List.range groups.length) (0, 0) (fun none => absurd rfl none) some
  rw [← longestZeros_eq] at length
  rw [length]
  exact run _

private theorem ipv6Groups?_groupsText {groups : List Nat} (eight : groups.length = 8)
    (small : ∀ n ∈ groups, n < 65536) :
    ipv6Groups? (groupsText groups) = some groups := by
  rw [groupsText_eq]
  split
  · have none := (splitDouble?_writeGroups groups []).1
    simp only [ipv6Groups?, none, side?_writeGroups true small, Option.filter_some, eight, beq_self_eq_true, ↓reduceIte]
  next long =>
    obtain ⟨rest, run⟩ := longestZeros_spec groups
    generalize (longestZeros groups).1 = start at run ⊢
    generalize (longestZeros groups).2 = length at run long ⊢
    have run := run (by omega)
    have bounded : start + length ≤ 8 := by
      have total := congrArg List.length run
      simp only [List.length_drop, List.length_append, List.length_replicate] at total
      omega
    have found := (splitDouble?_writeGroups (groups.take start) (writeGroups (groups.drop (start + length)))).2
    have before := side?_writeGroups false fun n member => small n (List.mem_of_mem_take (i := start) member)
    have after := side?_writeGroups true fun n member => small n (List.mem_of_mem_drop (i := start + length) member)
    have behind : groups.drop (start + length) = rest := by
      rw [← List.drop_drop, run, List.drop_left' (List.length_replicate ..)]
    have whole : groups.take start ++ List.replicate length 0 ++ groups.drop (start + length) = groups := by
      rw [behind, List.append_assoc, ← run, List.take_append_drop]
    have zeros : 8 - (groups.take start).length - (groups.drop (start + length)).length = length := by
      simp only [List.length_take, List.length_drop]
      omega
    have fits : (groups.take start).length + (groups.drop (start + length)).length ≤ 7 := by
      simp only [List.length_take, List.length_drop]
      omega
    simp only [ipv6Groups?, found, before, after, zeros, fits, ↓reduceIte, whole]

private theorem lt_of_group? {text : List Char} {n : Nat} (read : group? text = some n) : n < 65536 := by
  simp only [group?] at read
  split at read
  · cases read
  next short =>
    simp only [Decimal.digits?] at read
    split at read
    · cases read
    · have below := Decimal.digitsFrom?_lt read
      have most : 16 ^ text.length ≤ 16 ^ 4 := Nat.pow_le_pow_right (by decide) (by omega)
      omega

private theorem lt_of_groupsOfBytes? {text : List Char} {groups : List Nat} (read : groupsOfBytes? text = some groups) :
    ∀ n ∈ groups, n < 65536 := by
  have byte : ∀ {part : List Char} {n : Nat}, byte? part = some n → n < 256 := by
    intro part n read
    simp only [byte?] at read
    split at read
    · cases read
    · exact of_decide_eq_true (Option.filter_eq_some_iff.mp read).2
  simp only [groupsOfBytes?] at read
  split at read
  next a b c d bytes =>
    have each : ∀ n ∈ [a, b, c, d], n < 256 := by
      intro n member
      obtain ⟨part, -, made⟩ := exists_of_mem_mapM bytes member
      exact byte made
    have := each a (by simp)
    have := each b (by simp)
    have := each c (by simp)
    have := each d (by simp)
    obtain rfl := Option.some.inj read
    intro n member
    simp only [List.mem_cons, List.not_mem_nil, or_false] at member
    rcases member with rfl | rfl <;> omega
  next => cases read

private theorem lt_of_groups? {ends : Bool} {parts : List (List Char)} {groups : List Nat}
    (read : groups? ends parts = some groups) : ∀ n ∈ groups, n < 65536 := by
  induction parts generalizing groups with
  | nil =>
    obtain rfl := Option.some.inj read
    simp
  | cons part more ih =>
    cases more with
    | nil =>
      simp only [groups?] at read
      split at read
      · exact lt_of_groupsOfBytes? read
      · obtain ⟨n, group, rfl⟩ := Option.map_eq_some_iff.mp read
        simpa using lt_of_group? group
    | cons next more =>
      simp only [groups?] at read
      split at read
      next n others group rest =>
        obtain rfl := Option.some.inj read
        exact List.forall_mem_cons.mpr ⟨lt_of_group? group, ih rest⟩
      next => cases read

private theorem lt_of_side? {ends : Bool} {text : List Char} {groups : List Nat}
    (read : side? ends text = some groups) :
    ∀ n ∈ groups, n < 65536 := by
  simp only [side?] at read
  split at read
  · obtain rfl := Option.some.inj read
    simp
  · exact lt_of_groups? read

private theorem ipv6Groups?_yields {text : List Char} {groups : List Nat} (read : ipv6Groups? text = some groups) :
    groups.length = 8 ∧ ∀ n ∈ groups, n < 65536 := by
  simp only [ipv6Groups?] at read
  split at read
  · obtain ⟨side, eight⟩ := Option.filter_eq_some_iff.mp read
    exact ⟨beq_iff_eq.mp eight, lt_of_side? side⟩
  · split at read
    next before after front back =>
      split at read
      next fits =>
        obtain rfl := Option.some.inj read
        refine ⟨by simp only [List.length_append, List.length_replicate]; omega, fun n member => ?_⟩
        simp only [List.mem_append, List.mem_replicate] at member
        rcases member with (inside | ⟨-, rfl⟩) | inside
        · exact lt_of_side? front n inside
        · decide
        · exact lt_of_side? back n inside
      next => cases read
    next => cases read

theorem bracketed_again {inner host : List Char} (made : bracketed inner = .ok host) :
    ∃ rest, host = '[' :: rest ∧ bracketed rest = .ok host := by
  simp only [bracketed] at made
  split at made
  · cases made
  · split at made
    next groups read =>
      obtain ⟨eight, small⟩ := ipv6Groups?_yields read
      obtain rfl := Except.ok.inj made
      refine ⟨groupsText groups ++ [']'], rfl, ?_⟩
      have cut : Text.before? [']'] (groupsText groups ++ [']']) = some (groupsText groups) :=
        (Text.before?_eq_some_iff _ _ _).mpr rfl
      simp only [bracketed, cut, ipv6Groups?_groupsText eight small]
    next => cases made

end Uri

end SpecServer
