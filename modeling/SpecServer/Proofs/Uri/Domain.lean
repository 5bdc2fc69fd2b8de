import SpecServer.Proofs.Uri.Address
import SpecServer.Proofs.Uri.Scheme
set_option autoImplicit false

/-!
Hosts are read again as they stand, or not at all: names in ASCII are their own ASCII form, as far as their encoded labels
can be decoded, and addresses are their own text.
-/

namespace SpecServer.Uri

/-! ## Names in ASCII -/

private theorem asciiLower_of_le {c : Char} (large : 0x5B ≤ c.toNat) : Text.asciiLower c = c := by
  have apart : ¬('A' ≤ c ∧ c ≤ 'Z') := fun upper => Nat.not_lt.mpr (Char.le_def.mp upper.2) large
  rw [Text.asciiLower, if_neg apart]

private theorem asciiLower_ofNat {code : Nat} (large : 0x5B ≤ code) :
    Text.asciiLower (Char.ofNat code) = Char.ofNat code := by
  by_cases valid : code.isValidChar
  · refine asciiLower_of_le ?_
    rw [Char.ofNat, dif_pos valid]
    exact large
  · have none : Char.ofNat code = Char.ofNat 0 := by
      rw [Char.ofNat, dif_neg valid]
      rfl
    rw [none]
    decide

private theorem lowered_lowerChar {c d : Char} (member : c ∈ Text.lowerChar d) : Text.asciiLower c = c := by
  simp only [Text.lowerChar] at member
  split at member
  · obtain rfl := List.mem_singleton.mp member
    exact asciiLower_asciiLower d
  next large =>
    split at member
    · simp only [List.mem_cons, List.not_mem_nil, or_false] at member
      rcases member with rfl | rfl <;> decide
    · split at member
      next run found =>
        obtain rfl := List.mem_singleton.mp member
        have above : ∀ run ∈ Text.lowerRuns.toList, (0x5B : Int) ≤ run.1 + run.2.2.2 := by decide +kernel
        have lowest := above run (Array.mem_def.mp (Array.mem_of_find?_eq_some found))
        have within := Array.find?_some found
        simp only [Bool.and_eq_true, decide_eq_true_eq] at within
        exact asciiLower_ofNat (by omega)
      next =>
        obtain rfl := List.mem_singleton.mp member
        exact asciiLower_of_le (by omega)

private theorem Domain.lowered_mapped {c d : Char} (member : c ∈ mapped d) : Text.asciiLower c = c := by
  simp only [mapped] at member
  split at member
  · cases member
  · split at member
    · obtain rfl := List.mem_singleton.mp member
      decide
    · split at member
      · exact lowered_lowerChar member
      · exact lowered_lowerChar member

private theorem Domain.Written.lowered {c : Char} (written : Written c) : Text.asciiLower c = c := by
  cases written with
  | mark same => rcases same with rfl | rfl <;> decide
  | digit digit =>
    obtain ⟨d, small, rfl⟩ := digit
    exact (show ∀ d < 36, Text.asciiLower (digitChar d) = digitChar d by decide) d small
  | kept _ _ source became => exact lowered_mapped became

/-! ## Texts in ASCII -/

private theorem utf8EncodeChar_of_ascii {c : Char} (small : c.toNat < 0x80) :
    String.utf8EncodeChar c = [UInt8.ofNat c.toNat] :=
  forall_ascii (fun c => String.utf8EncodeChar c = [UInt8.ofNat c.toNat]) (by decide +kernel) small

private theorem decode?_of_ascii {text : List Char} (small : ∀ c ∈ text, c.toNat < 0x80) :
    Text.Utf8.decode? (text.flatMap String.utf8EncodeChar) = some text := by
  induction text with
  | nil => rw [List.flatMap_nil, Text.Utf8.decode?]
  | cons c rest ih =>
    obtain ⟨first, later⟩ := List.forall_mem_cons.mp small
    have value : (UInt8.ofNat c.toNat).toNat = c.toNat := by
      rw [UInt8.toNat_ofNat']
      omega
    have head : Text.Utf8.head (UInt8.ofNat c.toNat) (rest.flatMap String.utf8EncodeChar) = .character c 1 := by
      simp only [Text.Utf8.head, value, first, ↓reduceIte, Char.ofNat_toNat]
    rw [List.flatMap_cons, utf8EncodeChar_of_ascii first, List.singleton_append, Text.Utf8.decode?]
    simp only [head, Nat.sub_self, List.drop_zero, ih later, Option.map_some]

private theorem percentDecode_of_plain {text : List Char} (plain : '%' ∉ text) :
    percentDecode text = text.flatMap String.utf8EncodeChar := by
  induction text with
  | nil => rfl
  | cons c rest ih =>
    simp only [List.mem_cons, not_or] at plain
    rw [percentDecode.eq_3, ih plain.2, List.flatMap_cons]
    rintro high low more rfl
    exact absurd rfl plain.1

/-! ## Names -/

namespace Domain

private theorem mapped_of_ascii {c : Char} (small : c.toNat < 0x80) (lowered : Text.asciiLower c = c) :
    mapped c = [c] :=
  forall_ascii (fun c => Text.asciiLower c = c → mapped c = [c]) (by decide +kernel) small lowered

private theorem flatMap_mapped {name : List Char} (written : ∀ c ∈ name, Written c) : name.flatMap mapped = name := by
  induction name with
  | nil => rfl
  | cons c rest ih =>
    obtain ⟨first, later⟩ := List.forall_mem_cons.mp written
    rw [List.flatMap_cons, mapped_of_ascii first.allows.1 first.lowered, ih later, List.singleton_append]

private theorem labelToAscii?_of_ascii {label ascii : List Char} (small : ∀ c ∈ label, c.toNat < 0x80)
    (written : labelToAscii? label = some ascii) : ascii = label := by
  have all : (label.all fun c => decide (c.toNat < 0x80)) = true :=
    List.all_eq_true.mpr fun c member => decide_eq_true (small c member)
  simp only [labelToAscii?, all, ↓reduceIte] at written
  split at written
  · split at written
    · exact (Option.some.inj written).symm
    · cases written
  · exact (Option.some.inj written).symm

private theorem mapM_labelToAscii? {labels ascii : List (List Char)}
    (small : ∀ label ∈ labels, ∀ c ∈ label, c.toNat < 0x80)
    (written : labels.mapM labelToAscii? = some ascii) : ascii = labels := by
  induction labels generalizing ascii with
  | nil => exact (Option.some.inj written).symm
  | cons label rest ih =>
    obtain ⟨first, later⟩ := List.forall_mem_cons.mp small
    rw [List.mapM_cons] at written
    obtain ⟨made, here, tail⟩ := Option.bind_eq_some_iff.mp written
    obtain ⟨others, there, same⟩ := Option.bind_eq_some_iff.mp tail
    rw [← Option.some.inj same, labelToAscii?_of_ascii first here, ih later there]

/-- A name in ASCII form is its own ASCII form, if it has one. -/
theorem toAscii?_again {name again : List Char} (written : ∀ c ∈ name, Written c)
    (read : toAscii? (percentDecode name) = some again) : again = name := by
  have small : ∀ c ∈ name, c.toNat < 0x80 := fun c member => (written c member).allows.1
  have plain : '%' ∉ name := fun member => absurd (written '%' member).allows.2 (by decide)
  simp only [toAscii?, percentDecode_of_plain plain, decode?_of_ascii small, flatMap_mapped written] at read
  split at read
  · cases read
  · obtain ⟨labels, made, rfl⟩ := Option.map_eq_some_iff.mp read
    have same := mapM_labelToAscii? (fun label member c inside => small c (Text.mem_of_mem_splitAt member inside)) made
    rw [same, Text.joinWith_splitAt]

end Domain

/-! ## Hosts -/

private theorem written_addressText (value : Nat) : ∀ c ∈ addressText value, Domain.Written c := by
  intro c member
  rcases Text.mem_joinWith member with dot | ⟨part, inside, digit⟩
  · exact .mark (.inl (List.mem_singleton.mp dot))
  · obtain ⟨n, -, rfl⟩ := List.mem_map.mp inside
    obtain ⟨d, below, rfl⟩ := mem_toDigits (by decide) digit
    refine .digit ⟨26 + d, by omega, ?_⟩
    exact (show ∀ d < 10, Nat.digitChar d = Domain.digitChar (26 + d) by decide) d below

private theorem specialHost_of_name {name again : List Char} (written : ∀ c ∈ name, Domain.Written c)
    (settled : endsInNumber name = true → ipv4? name = some name) (read : specialHost name = .ok again) :
    again = name := by
  have unbracketed : ∀ inner, name ≠ '[' :: inner := by
    rintro inner rfl
    exact absurd (written '[' List.mem_cons_self).allows.2 (by decide)
  unfold specialHost at read
  split at read
  next inner => exact absurd rfl (unbracketed inner)
  · split at read
    · cases read
    next found ascii =>
      obtain rfl := Domain.toAscii?_again written ascii
      split at read
      · cases read
      · split at read
        next number =>
          rw [settled number] at read
          exact (Except.ok.inj read).symm
        next => exact (Except.ok.inj read).symm

/-- The host of a special scheme is read again as it stands, or not at all. -/
theorem specialHost_again {text host again : List Char} (made : specialHost text = .ok host)
    (read : specialHost host = .ok again) : again = host := by
  unfold specialHost at made
  split at made
  next inner =>
    obtain ⟨rest, rfl, same⟩ := bracketed_again made
    rw [specialHost, same] at read
    exact (Except.ok.inj read).symm
  · split at made
    · cases made
    next name ascii =>
      split at made
      · cases made
      · split at made
        next number =>
          split at made
          next address found =>
            obtain rfl := Except.ok.inj made
            obtain ⟨value, rfl⟩ : ∃ value, address = addressText value := by
              simp only [ipv4?] at found
              split at found
              · cases found
              · obtain ⟨value, -, same⟩ := Option.map_eq_some_iff.mp found
                exact ⟨value, same.symm⟩
            exact specialHost_of_name (written_addressText value) (fun _ => ipv4?_addressText value) read
          next => cases made
        next name' =>
          obtain rfl := Except.ok.inj made
          exact specialHost_of_name (Domain.written_toAscii ascii) (fun number => absurd number name') read

theorem opaqueHost_again {text host again : List Char} (made : opaqueHost text = .ok host)
    (read : opaqueHost host = .ok again) : again = host := by
  have name := isHost_of_opaqueHost made
  unfold opaqueHost at made
  split at made
  next inner =>
    obtain ⟨rest, rfl, same⟩ := bracketed_again made
    rw [opaqueHost, same] at read
    exact (Except.ok.inj read).symm
  next unbracketed =>
    split at made
    · cases made
    next allowed =>
      obtain rfl := Except.ok.inj made
      rcases name with name | ⟨inner, same, -⟩
      · rw [opaqueHost_of_hostChar name] at read
        exact (Except.ok.inj read).symm
      · have bracket : '[' ∈ percentEncode .controls text := by
          rw [same]
          exact List.mem_cons_self
        rcases mem_percentEncode bracket with ⟨inside, -⟩ | percent | ⟨n, small, digit⟩
        · exact absurd (List.any_eq_true.mpr ⟨'[', inside, by decide⟩) allowed
        · exact absurd percent (by decide)
        · exact absurd digit ((show ∀ n < 16, '[' ≠ hexDigit n by decide) n small)

end SpecServer.Uri
