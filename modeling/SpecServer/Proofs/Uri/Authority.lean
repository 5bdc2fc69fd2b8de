import SpecServer.Proofs.Uri.Host
set_option autoImplicit false

/-!
What authorities are made of, however they were written: a user part that gives itself back when it is read again, a
host, and a port that the scheme does not leave out.
-/

namespace SpecServer.Uri

/-! ## Users -/

private theorem percentEncode_ne_nil {set : EncodeSet} {text : List Char} (nonempty : text ≠ []) :
    percentEncode set text ≠ [] := by
  obtain ⟨c, rest, rfl⟩ := List.exists_cons_of_ne_nil nonempty
  have written : encodeChar set c ≠ [] := by
    simp only [encodeChar]
    split
    · obtain ⟨byte, more, same⟩ := List.exists_cons_of_ne_nil (l := String.utf8EncodeChar c) (by
        have long := Char.utf8Size_pos c
        rw [← String.length_utf8EncodeChar] at long
        exact List.ne_nil_of_length_pos long)
      rw [same]
      simp [encodeByte]
    · simp
  simpa [percentEncode] using fun empty => absurd empty written

/-- A character of a user part: the colon before the password, or one that is kept. -/
def UserChar (c : Char) : Prop :=
  c = ':' ∨ EncodeSet.userinfo.Keeps c

/-- The user part of an authority: none, or a text that stands for itself before the closing sign. -/
def IsUser (userinfo : List Char) : Prop :=
  userinfo = [] ∨
    ∃ name, name ≠ [] ∧ userinfo = name ++ ['@'] ∧ userinfoText name = userinfo ∧ ∀ c ∈ name, UserChar c

theorem isUser_userinfoText {text : List Char} (nonempty : text ≠ []) : IsUser (userinfoText text) := by
  have kept : ∀ (part : List Char), ∀ c ∈ percentEncode .userinfo part, EncodeSet.userinfo.Keeps c :=
    fun part c => keeps_of_mem_percentEncode stable_userinfo
  have free : ∀ part : List Char, ':' ∉ percentEncode .userinfo part :=
    fun part member => absurd (kept part ':' member) (by decide)
  have alone : ∀ part : List Char, part ≠ [] → IsUser (percentEncode .userinfo part ++ ['@']) := by
    intro part some
    refine .inr ⟨percentEncode .userinfo part, percentEncode_ne_nil some, rfl, ?_, fun c member => .inr (kept part c member)⟩
    simp only [userinfoText, Text.splitOnce_of_not_mem (free part), percentEncode_percentEncode stable_userinfo]
  cases cut : Text.splitOnce ':' text with
  | none =>
    simp only [userinfoText, cut]
    exact alone text nonempty
  | some parts =>
    obtain ⟨user, password⟩ := parts
    simp only [userinfoText, cut]
    cases password with
    | nil =>
      cases user with
      | nil => exact .inl rfl
      | cons c rest =>
        simp only [List.isEmpty_cons, Bool.false_and, Bool.false_eq_true, ↓reduceIte, List.isEmpty_nil, List.append_nil]
        exact alone (c :: rest) (by simp)
    | cons p secret =>
      have long : percentEncode .userinfo (p :: secret) ≠ [] := percentEncode_ne_nil (by simp)
      simp only [List.isEmpty_cons, Bool.and_false, Bool.false_eq_true, ↓reduceIte]
      refine .inr ⟨percentEncode .userinfo user ++ ':' :: percentEncode .userinfo (p :: secret), by simp, rfl, ?_, ?_⟩
      · simp [userinfoText, Text.splitOnce_append (free user), percentEncode_percentEncode stable_userinfo, long]
      · intro c member
        simp only [List.mem_append, List.mem_cons] at member
        rcases member with name | colon | word
        · exact .inr (kept user c name)
        · exact .inl colon
        · exact .inr (kept (p :: secret) c word)

/-! ## Ports -/

def portText : Option Nat → List Char
  | some port => ':' :: Nat.toDigits 10 port
  | none => []

private theorem value_digitChar :
    ∀ d < 10, '0' ≤ Nat.digitChar d ∧ Nat.digitChar d ≤ '9' ∧ (Nat.digitChar d).toNat - 48 = d := by
  decide

theorem portFrom_toDigits {n : Nat} (small : n ≤ 65535) (rest : List Char) :
    portFrom none (Nat.toDigits 10 n ++ rest) = portFrom (some n) rest := by
  induction n using Nat.strongRecOn generalizing rest with
  | ind n ih =>
    rw [Nat.toDigits_eq_if (by decide)]
    split
    next below =>
      obtain ⟨low, high, value⟩ := value_digitChar n below
      simp only [List.singleton_append, portFrom, low, high, and_self, ↓reduceIte, value, Option.getD_none, Nat.zero_mul,
        Nat.zero_add]
      rw [if_neg (by omega)]
    next =>
      obtain ⟨low, high, value⟩ := value_digitChar (n % 10) (Nat.mod_lt _ (by decide))
      rw [List.append_assoc, ih (n / 10) (by omega) (by omega)]
      have whole : n / 10 * 10 + n % 10 = n := by omega
      simp only [List.singleton_append, portFrom, low, high, and_self, ↓reduceIte, value, Option.getD_some, whole]
      rw [if_neg (by omega)]

private theorem portFrom_yields {text : List Char} {before : Option Nat} (small : ∀ n, before = some n → n ≤ 65535)
    {port : Option Nat} {left : List Char} (read : portFrom before text = .ok (port, left)) :
    ∀ n, port = some n → n ≤ 65535 := by
  induction text generalizing before with
  | nil =>
    cases read
    exact small
  | cons c rest ih =>
    simp only [portFrom] at read
    split at read
    · split at read
      · cases read
      · refine ih (fun n same => ?_) read
        cases same
        omega
    · split at read
      · cases read
        exact small
      · cases read

/-! ## Hosts with their ports -/

def readHost (kind : Kind) (text : List Char) : Except UriError (List Char) :=
  if kind = .other then opaqueHost text else specialHost text

def portBehind (scheme host : List Char) : List Char → Except UriError (Option Nat × List Char)
  | ':' :: digits =>
    if host = [] then .error .emptyHost
    else (portFrom none digits).map fun found => (if found.1 = usualPort? scheme then none else found.1, found.2)
  | after => .ok (none, after)

theorem portBehind_colon (scheme : List Char) {host : List Char} (named : host ≠ []) (digits : List Char) :
    portBehind scheme host (':' :: digits) =
      (portFrom none digits).map fun found => (if found.1 = usualPort? scheme then none else found.1, found.2) := by
  simp only [portBehind, named, ↓reduceIte]

theorem portBehind_plain (scheme host : List Char) {after : List Char} (plain : ∀ digits, after ≠ ':' :: digits) :
    portBehind scheme host after = .ok (none, after) := by
  unfold portBehind
  split
  next digits => exact absurd rfl (plain digits)
  · rfl

theorem hostAndPort_eq (scheme user text : List Char) :
    hostAndPort scheme user text =
      if kindOf scheme ≠ .other ∧ (splitHost false text).1 = [] then .error .emptyHost
      else
        (readHost (kindOf scheme) (splitHost false text).1).bind fun host =>
          (portBehind scheme host (splitHost false text).2).map fun found => (⟨user, host, found.1⟩, found.2) := by
  simp only [hostAndPort, readHost, bind, Except.bind, pure, Except.pure, throw, throwThe, MonadExceptOf.throw]
  generalize splitHost false text = cut
  obtain ⟨front, after⟩ := cut
  by_cases other : kindOf scheme = .other
  · simp only [other, bne_self_eq_false, Bool.false_and, Bool.false_eq_true, ↓reduceIte, ne_eq, not_true_eq_false,
      false_and]
    cases opaqueHost front with
    | error error => rfl
    | ok host =>
      dsimp only
      split
      next digits =>
        cases host with
        | nil => rfl
        | cons c rest =>
          rw [portBehind_colon scheme (by simp)]
          cases portFrom none digits <;> rfl
      next plain =>
        rw [portBehind_plain scheme host plain]
        rfl
  · have special : (kindOf scheme != .other) = true := by simpa using other
    simp only [other, special, Bool.true_and, ne_eq, not_false_eq_true, true_and, ↓reduceIte]
    cases front with
    | nil => rfl
    | cons c rest =>
      simp only [List.isEmpty_cons, Bool.false_eq_true, reduceCtorEq, ↓reduceIte]
      cases specialHost (c :: rest) with
      | error error => rfl
      | ok host =>
        dsimp only
        split
        next digits =>
          cases host with
          | nil => rfl
          | cons d others =>
            rw [portBehind_colon scheme (by simp)]
            cases portFrom none digits <;> rfl
        next plain =>
          rw [portBehind_plain scheme host plain]
          rfl

private theorem portBehind_yields {scheme host after left : List Char} {port : Option Nat}
    (read : portBehind scheme host after = .ok (port, left)) :
    ∀ n, port = some n → n ≤ 65535 ∧ usualPort? scheme ≠ some n ∧ host ≠ [] := by
  intro n same
  subst same
  unfold portBehind at read
  split at read
  next digits =>
    split at read
    · cases read
    next named =>
      cases found : portFrom none digits with
      | error error =>
        rw [found] at read
        cases read
      | ok result =>
        obtain ⟨port, rest⟩ := result
        rw [found] at read
        obtain ⟨shown, rfl⟩ := Prod.mk.inj (Except.ok.inj read)
        split at shown
        · cases shown
        next unusual =>
          subst shown
          exact ⟨portFrom_yields (fun _ empty => absurd empty (by simp)) found n rfl, fun usual => unusual usual.symm, named⟩
  · cases read

private theorem portFrom_left {text : List Char} (plain : ∀ c ∈ text, isAnySlash c = false) {before port : Option Nat}
    {left : List Char} (read : portFrom before text = .ok (port, left)) : left = [] := by
  induction text generalizing before with
  | nil =>
    cases read
    rfl
  | cons c rest ih =>
    obtain ⟨first, later⟩ := List.forall_mem_cons.mp plain
    simp only [portFrom, first, Bool.false_eq_true, ↓reduceIte] at read
    split at read
    · split at read
      · cases read
      · exact ih later read
    · cases read

private theorem splitHost_after (bracket : Bool) (text : List Char) :
    (splitHost bracket text).2 = [] ∨ ∃ digits, (splitHost bracket text).2 = ':' :: digits ∧ ∀ c ∈ digits, c ∈ text := by
  induction text generalizing bracket with
  | nil => exact .inl rfl
  | cons c rest ih =>
    simp only [splitHost]
    split
    next colon =>
      exact .inr ⟨rest, by rw [colon.1], fun d member => List.mem_cons_of_mem _ member⟩
    · refine (ih _).imp id fun ⟨digits, same, inside⟩ => ⟨digits, same, fun d member => ?_⟩
      exact List.mem_cons_of_mem _ (inside d member)

theorem hostAndPort_left {scheme user text left : List Char} (plain : ∀ c ∈ text, isAnySlash c = false)
    {authority : Authority} (read : hostAndPort scheme user text = .ok (authority, left)) : left = [] := by
  rw [hostAndPort_eq] at read
  split at read
  · cases read
  · cases named : readHost (kindOf scheme) (splitHost false text).1 with
    | error error =>
      rw [named] at read
      cases read
    | ok host =>
      cases ported : portBehind scheme host (splitHost false text).2 with
      | error error =>
        simp only [Except.bind, named, ported] at read
        cases read
      | ok found =>
        simp only [Except.bind, named, ported] at read
        cases read
        rcases splitHost_after false text with none | ⟨digits, some, inside⟩
        · rw [none, portBehind_plain scheme host (by simp)] at ported
          cases ported
          rfl
        · rw [some] at ported
          unfold portBehind at ported
          split at ported
          next other same =>
            obtain rfl := (List.cons.inj same).2
            split at ported
            · cases ported
            · cases number : portFrom none digits with
              | error error =>
                rw [number] at ported
                cases ported
              | ok result =>
                rw [number] at ported
                cases ported
                exact portFrom_left (fun c member => plain c (inside c member)) number
          next other => exact absurd rfl (other digits)

theorem isHost_of_readHost {kind : Kind} {text host : List Char} (read : readHost kind text = .ok host) :
    IsHost kind host ∧ (kind ≠ .other → host ≠ []) := by
  simp only [readHost] at read
  split at read
  next other =>
    subst other
    exact ⟨isHost_of_opaqueHost read, fun wrong => absurd rfl wrong⟩
  next =>
    obtain ⟨host, nonempty⟩ := isHost_of_specialHost read
    exact ⟨host, fun _ => nonempty⟩

private theorem hostAndPort_yields {scheme user text left : List Char} {authority : Authority}
    (read : hostAndPort scheme user text = .ok (authority, left)) :
    authority.userinfo = user ∧ (∃ named, readHost (kindOf scheme) named = .ok authority.host) ∧
      ∀ n, authority.port = some n → n ≤ 65535 ∧ usualPort? scheme ≠ some n ∧ authority.host ≠ [] := by
  rw [hostAndPort_eq] at read
  split at read
  · cases read
  · cases named : readHost (kindOf scheme) (splitHost false text).1 with
    | error error =>
      rw [named] at read
      cases read
    | ok host =>
      rw [named] at read
      cases ported : portBehind scheme host (splitHost false text).2 with
      | error error =>
        simp only [Except.bind, ported] at read
        cases read
      | ok found =>
        simp only [Except.bind, ported] at read
        obtain ⟨rfl, rfl⟩ := Prod.mk.inj (Except.ok.inj read)
        exact ⟨rfl, ⟨_, named⟩, portBehind_yields ported⟩

theorem hostAndPort_user (scheme user text : List Char) :
    hostAndPort scheme user text =
      (hostAndPort scheme [] text).map fun found => ({ found.1 with userinfo := user }, found.2) := by
  rw [hostAndPort_eq, hostAndPort_eq scheme []]
  split
  · rfl
  · cases readHost (kindOf scheme) (splitHost false text).1 with
    | error error => rfl
    | ok host =>
      simp only [Except.bind]
      cases portBehind scheme host (splitHost false text).2 with
      | error error => rfl
      | ok found => rfl

/-! ## Authorities -/

/-- An authority as a URI of the scheme has it. -/
structure IsAuthority (scheme : List Char) (authority : Authority) : Prop where
  user : IsUser authority.userinfo
  read : ∃ text, readHost (kindOf scheme) text = .ok authority.host
  owned : authority.userinfo ≠ [] → authority.host ≠ []
  port : ∀ n, authority.port = some n → n ≤ 65535 ∧ usualPort? scheme ≠ some n ∧ authority.host ≠ []

theorem IsAuthority.host {scheme : List Char} {authority : Authority} (good : IsAuthority scheme authority) :
    IsHost (kindOf scheme) authority.host :=
  good.read.elim fun _ read => (isHost_of_readHost read).1

theorem IsAuthority.named {scheme : List Char} {authority : Authority} (good : IsAuthority scheme authority) :
    kindOf scheme ≠ .other → authority.host ≠ [] :=
  good.read.elim fun _ read => (isHost_of_readHost read).2

def ownedHost (scheme user hosted : List Char) : Except UriError (Authority × List Char) :=
  (hostAndPort scheme user hosted).bind fun found =>
    if found.1.host = [] ∧ user ≠ [] then .error .emptyHost else .ok found

theorem ownedHost_yields {scheme user hosted left : List Char} {authority : Authority} (good : IsUser user)
    (read : ownedHost scheme user hosted = .ok (authority, left)) : IsAuthority scheme authority := by
  cases found : hostAndPort scheme user hosted with
  | error error =>
    simp only [ownedHost, found, Except.bind] at read
    cases read
  | ok result =>
    simp only [ownedHost, found, Except.bind] at read
    split at read
    · cases read
    next owned =>
      cases read
      obtain ⟨rfl, host, port⟩ := hostAndPort_yields found
      exact ⟨good, host, fun some empty => owned ⟨empty, some⟩, port⟩

/-- Reads the text of an authority; `last` tells whether nothing follows it. -/
def readSite (scheme text : List Char) (last : Bool) : Except UriError (Authority × List Char) :=
  match Text.splitLast '@' text with
  | none => ownedHost scheme [] text
  | some ([], after) => if after = [] ∧ last = false then .error .emptyHost else ownedHost scheme [] after
  | some (user, after) => ownedHost scheme (userinfoText user) after

theorem readAuthority_eq (scheme input : List Char) :
    readAuthority scheme input =
      (readSite scheme (unfold (input.takeWhile (!endsAuthority (kindOf scheme) ·)))
        (input.dropWhile (!endsAuthority (kindOf scheme) ·)).isEmpty).map
          fun found => (found.1, found.2 ++ input.dropWhile (!endsAuthority (kindOf scheme) ·)) := by
  have owned : ∀ (user hosted rest : List Char),
      ((hostAndPort scheme user hosted).bind fun found =>
          if (found.1.host.isEmpty && !user.isEmpty) = true then Except.error UriError.emptyHost
          else Except.ok (found.1, found.2 ++ rest)) =
        (ownedHost scheme user hosted).map fun found => (found.1, found.2 ++ rest) := by
    intro user hosted rest
    simp only [ownedHost, Except.bind]
    cases hostAndPort scheme user hosted with
    | error error => rfl
    | ok found =>
      simp only [Bool.and_eq_true, List.isEmpty_iff, Bool.not_eq_true', List.isEmpty_eq_false_iff]
      split <;> rfl
  simp only [readAuthority, readSite, bind, pure, Except.pure, throw, throwThe, MonadExceptOf.throw]
  generalize unfold (input.takeWhile (!endsAuthority (kindOf scheme) ·)) = text
  generalize input.dropWhile (!endsAuthority (kindOf scheme) ·) = rest
  cases cut : Text.splitLast '@' text with
  | none => exact owned [] text rest
  | some parts =>
    obtain ⟨user, after⟩ := parts
    cases user with
    | nil =>
      cases after with
      | nil =>
        cases rest with
        | nil => exact owned [] [] []
        | cons c more => rfl
      | cons d others => exact owned [] (d :: others) rest
    | cons c name => exact owned (userinfoText (c :: name)) after rest

theorem readAuthority_yields {scheme input rest : List Char} {authority : Authority}
    (read : readAuthority scheme input = .ok (authority, rest)) : IsAuthority scheme authority := by
  rw [readAuthority_eq] at read
  cases found : readSite scheme (unfold (input.takeWhile (!endsAuthority (kindOf scheme) ·)))
      (input.dropWhile (!endsAuthority (kindOf scheme) ·)).isEmpty with
  | error error =>
    rw [found] at read
    cases read
  | ok result =>
    rw [found] at read
    cases read
    simp only [readSite] at found
    split at found
    · exact ownedHost_yields (.inl rfl) found
    · split at found
      · cases found
      · exact ownedHost_yields (.inl rfl) found
    next user after other _ =>
      refine ownedHost_yields (isUser_userinfoText ?_) found
      rintro rfl
      exact other rfl

end SpecServer.Uri
