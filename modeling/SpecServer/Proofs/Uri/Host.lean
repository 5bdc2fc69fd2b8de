import SpecServer.Proofs.Text.Cuts
import SpecServer.Proofs.Uri.Encoding
set_option autoImplicit false

/-!
What hosts are written with. However a host was given, its text is a name of characters that may stand in a
host, or an address in brackets.
-/

namespace SpecServer.Uri

/-! ## Digits -/

theorem exists_of_mem_mapM {α β : Type} {f : α → Option β} {items : List α} {results : List β}
    (mapped : items.mapM f = some results) {result : β} (member : result ∈ results) :
    ∃ item ∈ items, f item = some result := by
  induction items generalizing results with
  | nil =>
    obtain rfl := Option.some.inj mapped
    cases member
  | cons item rest ih =>
    rw [List.mapM_cons] at mapped
    obtain ⟨first, made, tail⟩ := Option.bind_eq_some_iff.mp mapped
    obtain ⟨others, more, same⟩ := Option.bind_eq_some_iff.mp tail
    obtain rfl := Option.some.inj same
    rcases List.mem_cons.mp member with rfl | later
    · exact ⟨item, List.mem_cons_self, made⟩
    · obtain ⟨source, inside, written⟩ := ih more later
      exact ⟨source, List.mem_cons_of_mem _ inside, written⟩

theorem mem_toDigits {base : Nat} (large : 1 < base) {n : Nat} {c : Char} (member : c ∈ Nat.toDigits base n) :
    ∃ d < base, c = Nat.digitChar d := by
  induction n using Nat.strongRecOn with
  | ind n ih =>
    rw [Nat.toDigits_eq_if large] at member
    split at member
    next small =>
      obtain rfl := List.mem_singleton.mp member
      exact ⟨n, small, rfl⟩
    next =>
      rcases List.mem_append.mp member with front | last
      · exact ih (n / base) (Nat.div_lt_self (by omega) large) front
      · obtain rfl := List.mem_singleton.mp last
        exact ⟨n % base, Nat.mod_lt _ (by omega), rfl⟩

/-! ## Names -/

/-- A character of a host's name. Only hosts that are not looked at hold percent signs. -/
structure HostChar (kind : Kind) (c : Char) : Prop where
  kept : EncodeSet.controls.Keeps c
  allowed : isForbiddenHostChar c = false
  plain : kind ≠ .other → c ≠ '%'

def Domain.Allows (c : Char) : Prop :=
  c.toNat < 0x80 ∧ Domain.isForbidden c = false

instance (c : Char) : Decidable (Domain.Allows c) :=
  inferInstanceAs (Decidable (_ ∧ _))

private theorem hostChar_of_allows {kind : Kind} {c : Char} (allows : Domain.Allows c) : HostChar kind c := by
  obtain ⟨kept, allowed, plain⟩ := forall_ascii
    (fun c => Domain.isForbidden c = false → EncodeSet.controls.Keeps c ∧ isForbiddenHostChar c = false ∧ c ≠ '%')
    (by decide +kernel) allows.1 allows.2
  exact ⟨kept, allowed, fun _ => plain⟩

namespace Domain

private theorem threshold_le (position bias : Nat) : threshold position bias ≤ 26 := by
  simp only [threshold]
  split
  · decide
  · split <;> omega

private theorem allows_digitChar {d : Nat} (small : d < 36) : Allows (digitChar d) :=
  (show ∀ n < 36, Allows (digitChar n) by decide) d small

def IsDigit (c : Char) : Prop :=
  ∃ d < 36, c = digitChar d

private theorem isDigit_of_mem_distanceDigits {bias fuel position distance : Nat} {c : Char}
    (member : c ∈ distanceDigits bias fuel position distance) : IsDigit c := by
  induction fuel generalizing position distance with
  | zero => cases member
  | succ fuel ih =>
    have bounded := threshold_le position bias
    simp only [distanceDigits] at member
    split at member
    next last =>
      obtain rfl := List.mem_singleton.mp member
      exact ⟨distance, by omega, rfl⟩
    next =>
      rcases List.mem_cons.mp member with rfl | later
      · have rest := Nat.mod_lt (distance - threshold position bias) (show 0 < 36 - threshold position bias by omega)
        exact ⟨_, by omega, rfl⟩
      · exact ih later

private theorem isDigit_writeOccurrences (basic : Nat) {state : Writing} (before : ∀ c ∈ state.digits, IsDigit c)
    (codes : List Nat) : ∀ c ∈ (writeOccurrences basic state codes).digits, IsDigit c := by
  induction codes generalizing state with
  | nil => exact before
  | cons code rest ih =>
    simp only [writeOccurrences]
    split
    · exact ih before
    · split
      · refine ih fun c member => ?_
        exact (List.mem_append.mp member).elim (before c) isDigit_of_mem_distanceDigits
      · exact ih before

private theorem isDigit_writeFrom (codes : List Nat) (basic fuel : Nat) {state : Writing}
    (before : ∀ c ∈ state.digits, IsDigit c) : ∀ c ∈ writeFrom codes basic fuel state, IsDigit c := by
  induction fuel generalizing state with
  | zero => exact before
  | succ fuel ih =>
    simp only [writeFrom]
    split
    · exact before
    next least _ =>
      have started : ∀ c ∈ ({ state with
          next := least, delta := state.delta + (least - state.next) * (state.placed + 1) } : Writing).digits, IsDigit c :=
        before
      exact ih (isDigit_writeOccurrences basic started codes)

/-- A character of a name is a mark, a digit of the encoding, or one of ASCII that a character given became. -/
inductive Written (c : Char) : Prop
  | mark (same : c = '.' ∨ c = '-')
  | digit (digit : IsDigit c)
  | kept (small : c.toNat < 0x80) (allowed : isForbidden c = false) (source : Char) (became : c ∈ mapped source)

private theorem mem_encodeLabel {label : List Char} {c : Char} (member : c ∈ encodeLabel label) :
    c = '-' ∨ IsDigit c ∨ c.toNat < 0x80 ∧ c ∈ label := by
  simp only [encodeLabel, List.mem_append] at member
  rcases member with lead | digits
  · split at lead
    · cases lead
    · rcases List.mem_append.mp lead with basic | mark
      · obtain ⟨inside, small⟩ := List.mem_filter.mp basic
        exact .inr (.inr ⟨of_decide_eq_true small, inside⟩)
      · exact .inl (List.mem_singleton.mp mark)
  · exact .inr (.inl (isDigit_writeFrom _ _ _ (fun _ empty => absurd empty List.not_mem_nil) c digits))

private theorem mem_labelToAscii {label ascii : List Char} (written : labelToAscii? label = some ascii) {c : Char}
    (member : c ∈ ascii) : c = '-' ∨ IsDigit c ∨ c.toNat < 0x80 ∧ c ∈ label := by
  simp only [labelToAscii?] at written
  split at written
  next small =>
    have same : ascii = label := by
      split at written
      · split at written
        · exact (Option.some.inj written).symm
        · cases written
      · exact (Option.some.inj written).symm
    subst same
    exact .inr (.inr ⟨of_decide_eq_true (List.all_eq_true.mp small c member), member⟩)
  next =>
    split at written
    · cases written
    · cases written
      rcases List.mem_append.mp member with mark | rest
      · simp only [encodedMark, List.mem_cons, List.not_mem_nil, or_false] at mark
        rcases mark with rfl | rfl | rfl | rfl
        · exact .inr (.inl ⟨23, by decide, by decide⟩)
        · exact .inr (.inl ⟨13, by decide, by decide⟩)
        · exact .inl rfl
        · exact .inl rfl
      · exact mem_encodeLabel rest

theorem written_toAscii {bytes : List UInt8} {name : List Char} (written : toAscii? bytes = some name) :
    ∀ c ∈ name, Written c := by
  simp only [toAscii?] at written
  split at written
  · cases written
  next text _ =>
    split at written
    · cases written
    next allowed =>
      obtain ⟨labels, mapped, rfl⟩ := Option.map_eq_some_iff.mp written
      intro c member
      rcases Text.mem_joinWith member with dot | ⟨ascii, inside, belongs⟩
      · exact .mark (.inl (List.mem_singleton.mp dot))
      · obtain ⟨label, source, written⟩ := exists_of_mem_mapM mapped inside
        rcases mem_labelToAscii written belongs with mark | digit | ⟨small, letter⟩
        · exact .mark (.inr mark)
        · exact .digit digit
        · have among := Text.mem_of_mem_splitAt source letter
          obtain ⟨given, -, became⟩ := List.mem_flatMap.mp among
          refine .kept small ?_ given became
          cases forbidden : isForbidden c with
          | false => rfl
          | true => exact absurd (List.any_eq_true.mpr ⟨c, among, forbidden⟩) allowed

theorem Written.allows {c : Char} (written : Written c) : Allows c := by
  cases written with
  | mark same => rcases same with rfl | rfl <;> decide
  | digit digit =>
    obtain ⟨d, small, rfl⟩ := digit
    exact allows_digitChar small
  | kept small allowed _ _ => exact ⟨small, allowed⟩

private theorem allows_toAscii {bytes : List UInt8} {name : List Char} (written : toAscii? bytes = some name) :
    ∀ c ∈ name, Allows c :=
  fun c member => (written_toAscii written c member).allows

end Domain

/-! ## Hosts -/

/-- The text of a host: a name, or an address in brackets. -/
def IsHost (kind : Kind) (host : List Char) : Prop :=
  (∀ c ∈ host, HostChar kind c) ∨
    ∃ inner, host = '[' :: inner ++ [']'] ∧ ∀ c ∈ inner, c = ':' ∨ HostChar .special c

variable {kind : Kind}

theorem hostChar_of_mem_toDigits {base n : Nat} (large : 1 < base) (small : base ≤ 16) {c : Char}
    (member : c ∈ Nat.toDigits base n) : HostChar kind c := by
  obtain ⟨d, below, rfl⟩ := mem_toDigits large member
  exact hostChar_of_allows ((show ∀ d < 16, Domain.Allows (Nat.digitChar d) by decide) d (by omega))

private theorem hostChar_of_mem_addressText {value : Nat} {c : Char} (member : c ∈ addressText value) :
    HostChar kind c := by
  rcases Text.mem_joinWith member with dot | ⟨part, inside, digit⟩
  · obtain rfl := List.mem_singleton.mp dot
    exact hostChar_of_allows (by decide)
  · obtain ⟨n, -, rfl⟩ := List.mem_map.mp inside
    exact hostChar_of_mem_toDigits (by decide) (by decide) digit

private theorem addressText_ne_nil (value : Nat) : addressText value ≠ [] := by
  simp [addressText, Text.joinWith]

private theorem mem_groupsText {groups : List Nat} {c : Char} (member : c ∈ groupsText groups) :
    c = ':' ∨ HostChar .special c := by
  have written : ∀ part : List Nat, c ∈ Text.joinWith [':'] (part.map (Nat.toDigits 16)) →
      c = ':' ∨ HostChar .special c := by
    intro part inside
    rcases Text.mem_joinWith inside with colon | ⟨digits, group, digit⟩
    · exact .inl (List.mem_singleton.mp colon)
    · obtain ⟨n, -, rfl⟩ := List.mem_map.mp group
      exact .inr (hostChar_of_mem_toDigits (by decide) (by decide) digit)
  simp only [groupsText] at member
  split at member
  · exact written _ member
  · simp only [List.mem_append, List.mem_cons] at member
    rcases member with front | colon | colon | back
    · exact written _ front
    · exact .inl colon
    · exact .inl colon
    · exact written _ back

private theorem isHost_of_bracketed {inner host : List Char} (made : bracketed inner = .ok host) :
    IsHost kind host := by
  simp only [bracketed] at made
  split at made
  · cases made
  · split at made
    · cases made
      exact .inr ⟨_, rfl, fun c => mem_groupsText⟩
    · cases made

private theorem ne_nil_of_bracketed {inner host : List Char} (made : bracketed inner = .ok host) : host ≠ [] := by
  simp only [bracketed] at made
  split at made
  · cases made
  · split at made
    · cases made
      simp
    · cases made

theorem isHost_of_specialHost {text host : List Char} (made : specialHost text = .ok host) :
    IsHost kind host ∧ host ≠ [] := by
  simp only [specialHost] at made
  split at made
  · exact ⟨isHost_of_bracketed made, ne_nil_of_bracketed made⟩
  · split at made
    · cases made
    next name written =>
      split at made
      · cases made
      next nonempty =>
        split at made
        · split at made
          next address found =>
            cases made
            obtain ⟨value, rfl⟩ : ∃ value, host = addressText value := by
              simp only [ipv4?] at found
              split at found
              · cases found
              · obtain ⟨value, -, same⟩ := Option.map_eq_some_iff.mp found
                exact ⟨value, same.symm⟩
            exact ⟨.inl fun c => hostChar_of_mem_addressText, addressText_ne_nil value⟩
          · cases made
        · cases made
          exact ⟨.inl fun c member => hostChar_of_allows (Domain.allows_toAscii written c member),
            fun empty => nonempty (List.isEmpty_iff.mpr empty)⟩

theorem isHost_of_opaqueHost {text host : List Char} (made : opaqueHost text = .ok host) : IsHost .other host := by
  simp only [opaqueHost] at made
  split at made
  · exact isHost_of_bracketed made
  · split at made
    · cases made
    next allowed =>
      cases made
      refine .inl fun c member => ⟨keeps_of_mem_percentEncode stable_controls member, ?_, fun wrong => absurd rfl wrong⟩
      rcases mem_percentEncode member with ⟨inside, -⟩ | rfl | ⟨n, small, rfl⟩
      · cases forbidden : isForbiddenHostChar c with
        | false => rfl
        | true => exact absurd (List.any_eq_true.mpr ⟨c, inside, forbidden⟩) allowed
      · decide
      · exact (show ∀ n < 16, isForbiddenHostChar (hexDigit n) = false by decide) n small

theorem opaqueHost_of_hostChar {host : List Char} (name : ∀ c ∈ host, HostChar .other c) :
    opaqueHost host = .ok host := by
  have allowed : host.any isForbiddenHostChar = false := by
    apply List.any_eq_false.mpr
    intro c member
    simp [(name c member).allowed]
  have plain := percentEncode_of_keeps fun c member => (name c member).kept
  cases host with
  | nil => rfl
  | cons c rest =>
    have unbracketed : c ≠ '[' := by
      rintro rfl
      exact absurd (name '[' List.mem_cons_self).allowed (by decide)
    simp only [opaqueHost]
    split
    next inner same => exact absurd (List.cons.inj same).1 unbracketed
    · rw [allowed, plain]
      rfl

end SpecServer.Uri
