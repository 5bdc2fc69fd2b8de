import SpecServer.Proofs.Uri.Authority
set_option autoImplicit false

/-!
Authorities as they are written. Each authority of a URI is written by a site, and a site is read back as the
authority it writes, wherever a text that differs from it in escapes leads to that authority or nowhere.
-/

namespace SpecServer.Uri

/-- A character that belongs to a part of a URI without ending it, wherever it stands. -/
def PlainChar (c : Char) : Prop :=
  isFold c = false ∧ isAnySlash c = false ∧ endsPath c = false ∧ isPadding c = false

instance (c : Char) : Decidable (PlainChar c) :=
  inferInstanceAs (Decidable (_ ∧ _))

private theorem plainChar_of_userChar {c : Char} (user : UserChar c) : PlainChar c := by
  rcases user with rfl | keeps
  · decide
  · exact forall_ascii (fun c => EncodeSet.userinfo.Keeps c → PlainChar c) (by decide +kernel) keeps.2 keeps

def SiteChar (c : Char) : Prop :=
  c = ':' ∨ c = '[' ∨ c = ']' ∨ HostChar .other c

private theorem HostChar.other {kind : Kind} {c : Char} (host : HostChar kind c) : HostChar .other c :=
  ⟨host.kept, host.allowed, fun wrong => absurd rfl wrong⟩

theorem plainChar_of_siteChar {c : Char} (site : SiteChar c) : PlainChar c ∧ c ≠ '@' := by
  rcases site with rfl | rfl | rfl | host
  · decide
  · decide
  · decide
  · exact forall_ascii
      (fun c => EncodeSet.controls.Keeps c → isForbiddenHostChar c = false → PlainChar c ∧ c ≠ '@')
      (by decide +kernel) host.kept.2 host.kept host.allowed

private theorem siteChar_of_mem_portText {port : Option Nat} {c : Char} (member : c ∈ portText port) : SiteChar c := by
  cases port with
  | none => cases member
  | some n =>
    rcases List.mem_cons.mp member with rfl | digit
    · exact .inl rfl
    · exact .inr (.inr (.inr (hostChar_of_mem_toDigits (by decide) (by decide) digit)))

theorem IsHost.siteChar {kind : Kind} {host : List Char} (good : IsHost kind host) {c : Char} (member : c ∈ host) :
    SiteChar c := by
  rcases good with name | ⟨inner, rfl, address⟩
  · exact .inr (.inr (.inr (name c member).other))
  · simp only [List.mem_append, List.mem_cons, List.not_mem_nil, or_false] at member
    rcases member with (opening | inside) | closing
    · exact .inr (.inl opening)
    · exact (address c inside).imp id fun host => .inr (.inr host.other)
    · exact .inr (.inr (.inl closing))

/-- Only the names of hosts that are not looked at hold percent signs. -/
theorem IsHost.name_of_percent {kind : Kind} {host : List Char} (good : IsHost kind host) (percent : '%' ∈ host) :
    kind = .other ∧ ∀ c ∈ host, HostChar .other c := by
  rcases good with name | ⟨inner, rfl, address⟩
  · refine ⟨Decidable.byContradiction fun special => (name '%' percent).plain special rfl, fun c member => ?_⟩
    exact (name c member).other
  · simp only [List.mem_append, List.mem_cons, List.not_mem_nil, or_false] at percent
    rcases percent with (opening | inside) | closing
    · exact absurd opening (by decide)
    · rcases address '%' inside with colon | host
      · exact absurd colon (by decide)
      · exact absurd rfl (host.plain (by decide))
    · exact absurd closing (by decide)

/-- An authority as it is written: perhaps a user, a host, and perhaps a port. -/
structure Site where
  user : Option (List Char)
  host : List Char
  port : Option Nat

namespace Site

def hosted (site : Site) : List Char :=
  site.host ++ portText site.port

def text (site : Site) : List Char :=
  match site.user with
  | some name => name ++ '@' :: site.hosted
  | none => site.hosted

def userinfo (site : Site) : List Char :=
  match site.user with
  | some name => userinfoText name
  | none => []

/-- Whether the parts are told apart. -/
structure Legible (site : Site) : Prop where
  named : ∀ name, site.user = some name → name ≠ []
  user : ∀ name, site.user = some name → ∀ c ∈ name, UserChar c
  host : ∀ c ∈ site.host, SiteChar c

def read (scheme : List Char) (site : Site) : Except UriError Authority :=
  (ownedHost scheme site.userinfo site.hosted).map Prod.fst

variable {site : Site}

private theorem Legible.siteChar (legible : site.Legible) {c : Char} (member : c ∈ site.hosted) : SiteChar c :=
  (List.mem_append.mp member).elim (legible.host c) siteChar_of_mem_portText

theorem Legible.plain (legible : site.Legible) {c : Char} (member : c ∈ site.text) : PlainChar c := by
  have hosted : ∀ d ∈ site.hosted, PlainChar d := fun d inside => (plainChar_of_siteChar (legible.siteChar inside)).1
  simp only [text] at member
  split at member
  next name user =>
    simp only [List.mem_append, List.mem_cons] at member
    rcases member with letter | rfl | host
    · exact plainChar_of_userChar (legible.user name user c letter)
    · decide
    · exact hosted c host
  · exact hosted c member

private theorem Legible.readSite (legible : site.Legible) (scheme : List Char) (last : Bool) :
    Uri.readSite scheme site.text last = ownedHost scheme site.userinfo site.hosted := by
  have absent : '@' ∉ site.hosted := fun member => (plainChar_of_siteChar (legible.siteChar member)).2 rfl
  cases user : site.user with
  | none => simp only [Uri.readSite, text, userinfo, user, Text.splitLast_of_not_mem absent]
  | some name =>
    have named := legible.named name user
    cases name with
    | nil => exact absurd rfl named
    | cons c rest => simp only [Uri.readSite, text, userinfo, user, Text.splitLast_append _ absent]

private theorem Legible.left (legible : site.Legible) {scheme user left : List Char} {authority : Authority}
    (read : ownedHost scheme user site.hosted = .ok (authority, left)) : left = [] := by
  cases found : hostAndPort scheme user site.hosted with
  | error error =>
    simp only [ownedHost, found, Except.bind] at read
    cases read
  | ok result =>
    simp only [ownedHost, found, Except.bind] at read
    split at read
    · cases read
    · cases read
      exact hostAndPort_left (fun c member => (plainChar_of_siteChar (legible.siteChar member)).1.2.1) found

theorem Legible.readAuthority (legible : site.Legible) (scheme : List Char) {rest : List Char}
    (stop : ∀ c more, rest = c :: more → endsAuthority (kindOf scheme) c = true) :
    Uri.readAuthority scheme (site.text ++ rest) = (site.read scheme).map fun authority => (authority, rest) := by
  have on : ∀ c ∈ site.text, (!endsAuthority (kindOf scheme) c) = true := by
    intro c member
    obtain ⟨-, slash, ends, -⟩ := legible.plain member
    have calm : isSlash (kindOf scheme) c = false := by
      simp only [isAnySlash, Bool.or_eq_false_iff] at slash
      simp only [isSlash, slash.1, slash.2, Bool.false_and, Bool.or_self]
    simp only [endsAuthority, calm, ends, Bool.or_self, Bool.not_false]
  have front : (site.text ++ rest).takeWhile (!endsAuthority (kindOf scheme) ·) = site.text := by
    rw [List.takeWhile_append_of_pos on]
    cases rest with
    | nil => simp
    | cons c more => simp [stop c more rfl]
  have back : (site.text ++ rest).dropWhile (!endsAuthority (kindOf scheme) ·) = rest := by
    rw [List.dropWhile_append_of_pos on]
    cases rest with
    | nil => simp
    | cons c more => simp [stop c more rfl]
  rw [readAuthority_eq, front, back, unfold_of_not_fold fun c member => (legible.plain member).1, legible.readSite]
  simp only [read]
  cases found : ownedHost scheme site.userinfo site.hosted with
  | error error => rfl
  | ok result =>
    obtain ⟨authority, left⟩ := result
    obtain rfl := legible.left found
    rfl

/-! ## Reading an authority again -/

/-- Whether a site is how an authority is written. -/
structure Writes (site : Site) (authority : Authority) : Prop where
  legible : site.Legible
  text : authority.text = '/' :: '/' :: site.text
  userinfo : site.userinfo = authority.userinfo
  host : site.host = authority.host
  port : site.port = authority.port
  owned : site.userinfo = [] → site.user = none

/-- Sites that differ in escapes: only the host may be another one, and only if it holds escapes. -/
structure Resembles (site other : Site) : Prop where
  user : site.user = none → other.user = none
  host : other.host = site.host ∨ '%' ∈ site.host
  port : other.port = site.port

theorem read_ok {scheme : List Char} {authority : Authority} (read : site.read scheme = .ok authority) :
    ∃ left, ownedHost scheme site.userinfo site.hosted = .ok (authority, left) := by
  simp only [Site.read] at read
  cases found : ownedHost scheme site.userinfo site.hosted with
  | error error =>
    rw [found] at read
    cases read
  | ok result =>
    rw [found] at read
    cases read
    exact ⟨result.2, rfl⟩

private theorem ownedHost_user {scheme user hosted left : List Char} {authority : Authority}
    (read : ownedHost scheme user hosted = .ok (authority, left)) {other : List Char} (owned : user = [] → other = []) :
    authority.userinfo = user ∧
      ownedHost scheme other hosted = .ok ({ authority with userinfo := other }, left) := by
  simp only [ownedHost] at read ⊢
  rw [hostAndPort_user] at read ⊢
  cases found : hostAndPort scheme [] hosted with
  | error error =>
    rw [found] at read
    cases read
  | ok result =>
    rw [found] at read
    simp only [Except.map, Except.bind] at read ⊢
    split at read
    · cases read
    next kept =>
      cases read
      refine ⟨rfl, ?_⟩
      rw [if_neg fun both => ?_]
      exact both.2 (owned (Decidable.byContradiction fun some => kept ⟨both.1, some⟩))

private theorem splitHost_append {bracket : Bool} {front : List Char}
    (inner : ∀ c ∈ front, c = ':' ∧ bracket = true ∨ HostChar .other c) (rest : List Char) :
    splitHost bracket (front ++ rest) = (front ++ (splitHost bracket rest).1, (splitHost bracket rest).2) := by
  induction front with
  | nil => rfl
  | cons c front ih =>
    obtain ⟨first, later⟩ := List.forall_mem_cons.mp inner
    have on : ¬(c = ':' ∧ (!bracket) = true) ∧ (c == '[' || (bracket && c != ']')) = bracket := by
      rcases first with ⟨rfl, rfl⟩ | host
      · decide
      · have apart : ∀ d, isForbiddenHostChar d = true → c ≠ d := by
          rintro d forbidden rfl
          exact absurd host.allowed (by rw [forbidden]; decide)
        have colon := apart ':' (by decide)
        have opening := apart '[' (by decide)
        have closing := apart ']' (by decide)
        refine ⟨fun both => colon both.1, ?_⟩
        rw [beq_eq_false_iff_ne.mpr opening, bne_iff_ne.mpr closing, Bool.false_or, Bool.and_true]
    simp only [List.cons_append, splitHost, on, ↓reduceIte, ih later]

private theorem splitHost_portText (port : Option Nat) : splitHost false (portText port) = ([], portText port) := by
  cases port with
  | none => rfl
  | some n => simp [portText, splitHost]

private theorem splitHost_of_isHost {kind : Kind} {host : List Char} (good : IsHost kind host) (port : Option Nat) :
    splitHost false (host ++ portText port) = (host, portText port) := by
  rcases good with name | ⟨inner, rfl, address⟩
  · rw [splitHost_append fun c member => .inr (name c member).other, splitHost_portText, List.append_nil]
  · have inside : splitHost true (inner ++ ']' :: portText port) = (inner ++ [']'], portText port) := by
      rw [splitHost_append fun c member => (address c member).imp (fun colon => ⟨colon, rfl⟩) HostChar.other]
      have closed := splitHost_portText port
      simp [splitHost, closed]
    simp [splitHost, inside]

private theorem hostAndPort_of_readHost {scheme host : List Char} (read : readHost (kindOf scheme) host = .ok host)
    {port : Option Nat} (ported : ∀ n, port = some n → n ≤ 65535 ∧ usualPort? scheme ≠ some n ∧ host ≠ [])
    (user : List Char) : hostAndPort scheme user (host ++ portText port) = .ok (⟨user, host, port⟩, []) := by
  obtain ⟨good, named⟩ := isHost_of_readHost read
  rw [hostAndPort_eq, splitHost_of_isHost good, if_neg fun special => named special.1 special.2]
  simp only [read, Except.bind]
  cases port with
  | none =>
    rw [portText, portBehind_plain scheme host (by simp)]
    rfl
  | some n =>
    obtain ⟨small, unusual, named⟩ := ported n rfl
    have digits := portFrom_toDigits small []
    rw [List.append_nil] at digits
    rw [portText, portBehind_colon scheme named, digits]
    simp [portFrom, Except.map, Ne.symm unusual]

private theorem hostAndPort_of_failed {scheme host : List Char} (good : IsHost (kindOf scheme) host)
    (named : kindOf scheme ≠ .other → host ≠ []) {error : UriError} (failed : readHost (kindOf scheme) host = .error error)
    (port : Option Nat) (user : List Char) : hostAndPort scheme user (host ++ portText port) = .error error := by
  rw [hostAndPort_eq, splitHost_of_isHost good, if_neg fun special => named special.1 special.2]
  simp only [failed, Except.bind]

theorem exists_writes {scheme : List Char} {authority : Authority} (good : IsAuthority scheme authority) :
    ∃ site : Site, site.Writes authority := by
  rcases good.user with bare | ⟨name, nonempty, same, again, letters⟩
  · refine ⟨⟨none, authority.host, authority.port⟩, ⟨?_, ?_, ?_⟩, ?_, bare.symm, rfl, rfl, fun _ => rfl⟩
    · rintro name ⟨⟩
    · rintro name ⟨⟩
    · exact fun c => good.host.siteChar
    · cases ported : authority.port <;> simp [text, hosted, portText, Authority.text, bare, ported]
  · refine ⟨⟨some name, authority.host, authority.port⟩, ⟨?_, ?_, ?_⟩, ?_, again, rfl, rfl, ?_⟩
    · rintro other ⟨⟩
      exact nonempty
    · rintro other ⟨⟩
      exact letters
    · exact fun c => good.host.siteChar
    · have spelled : authority.text = '/' :: '/' :: (name ++ '@' :: (authority.host ++ portText authority.port)) := by
        cases ported : authority.port with
        | none => simp [Authority.text, portText, ported, same]
        | some port => simp [Authority.text, portText, ported, same]
      exact spelled
    · intro empty
      have none : userinfoText name = [] := empty
      rw [again, same] at none
      simp at none

/-- A site is read as the authority it writes, or not at all, if its host is. -/
theorem Writes.again {scheme : List Char} {authority found : Authority} (good : IsAuthority scheme authority)
    (writes : site.Writes authority)
    (same : ∀ host, readHost (kindOf scheme) authority.host = .ok host → host = authority.host)
    (read : site.read scheme = .ok found) : found = authority := by
  obtain ⟨left, owned⟩ := read_ok read
  rw [writes.userinfo, hosted, writes.host, writes.port, ownedHost] at owned
  cases named : readHost (kindOf scheme) authority.host with
  | error error =>
    rw [hostAndPort_of_failed good.host good.named named] at owned
    cases owned
  | ok host =>
    obtain rfl := same host named
    rw [hostAndPort_of_readHost named good.port] at owned
    simp only [Except.bind] at owned
    rw [if_neg fun both => good.owned both.2 both.1] at owned
    exact (Prod.mk.inj (Except.ok.inj owned)).1.symm

/-- A site that can be read is read as the authority it writes, if a site that differs in escapes is read as that
authority or not at all. -/
theorem Writes.settles {scheme : List Char} {authority result : Authority} (good : IsAuthority scheme authority)
    (writes : site.Writes authority) {other : Site} (resembles : site.Resembles other)
    (read : site.read scheme = .ok result) (same : ∀ found, other.read scheme = .ok found → found = authority) :
    result = authority := by
  obtain ⟨left, owned⟩ := read_ok read
  rcases resembles.host with host | percent
  · have hosted : other.hosted = site.hosted := by
      rw [hosted, Site.hosted, host, resembles.port]
    have unowned : site.userinfo = [] → other.userinfo = [] := by
      intro none
      simp only [Site.userinfo, resembles.user (writes.owned none)]
    obtain ⟨user, shifted⟩ := ownedHost_user owned unowned
    have found : other.read scheme = .ok { result with userinfo := other.userinfo } := by
      rw [Site.read, hosted, shifted]
      rfl
    have settled := same _ found
    have userinfo : result.userinfo = authority.userinfo := user.trans writes.userinfo
    calc result = { { result with userinfo := other.userinfo } with userinfo := result.userinfo } := rfl
      _ = { authority with userinfo := authority.userinfo } := by rw [settled, userinfo]
      _ = authority := rfl
  · rw [writes.host] at percent
    obtain ⟨other, name⟩ := good.host.name_of_percent percent
    refine writes.again good (fun found named => ?_) read
    rw [readHost, other, if_pos rfl, opaqueHost_of_hostChar name] at named
    exact (Except.ok.inj named).symm

end Site

end SpecServer.Uri
