import SpecServer.Proofs.Uri.Drive
set_option autoImplicit false

/-!
Decoding escaped colons in the text of a URI part by part: in the site and in the ending, and never in the scheme or
in the marks between them.
-/

namespace SpecServer.Uri

variable {kind : Kind} {ending : Ending}

/-! ## Parts of a text -/

private theorem Decoded.after_scheme {scheme rest result : List Char} (good : IsScheme scheme)
    (decoded : Decoded (scheme ++ ':' :: rest) result) : ∃ rest', result = scheme ++ ':' :: rest' ∧ Decoded rest rest' := by
  obtain ⟨front, back, rfl, lead, behind⟩ := decoded.split scheme ':' (by decide)
  obtain rfl := lead.eq_of_plain fun percent => (schemeChar_spec (good.schemeChar percent)).2.2.1 rfl
  exact ⟨back, rfl, behind⟩

theorem Decoded.after_mark {mark : Char} {rest result : List Char} (decoded : Decoded (mark :: rest) result)
    (free : mark ∉ ['%', '3', 'A', 'a']) : ∃ rest', result = mark :: rest' ∧ Decoded rest rest' := by
  obtain ⟨front, back, rfl, lead, behind⟩ := decoded.split [] mark free
  obtain rfl := lead.nil_iff.mpr rfl
  exact ⟨back, rfl, behind⟩

private theorem Decoded.before_ending {front result : List Char} (path : IsPath kind ending.path)
    (decoded : Decoded (front ++ ending.text) result) :
    ∃ front' rest', result = front' ++ rest' ∧ Decoded front front' ∧ Decoded ending.text rest' := by
  have cut : ∀ mark more, ending.text = mark :: more → mark ∉ ['%', '3', 'A', 'a'] →
      ∃ front' rest', result = front' ++ rest' ∧ Decoded front front' ∧ Decoded ending.text rest' := by
    intro mark more same free
    rw [same] at decoded ⊢
    obtain ⟨front', back, rfl, lead, behind⟩ := decoded.split front mark free
    exact ⟨front', mark :: back, rfl, lead, behind.cons mark⟩
  rcases path.start with ⟨rest, slash⟩ | ⟨-, -, tail⟩
  · exact cut '/' rest slash (by decide)
  · rcases ending.isTail_tail with empty | ⟨c, more, shape, ends⟩
    · rw [tail, empty] at decoded ⊢
      rw [List.append_nil] at decoded
      exact ⟨result, [], by simp, decoded, .refl⟩
    · refine cut c more (tail.trans shape) ?_
      simp only [endsPath, Bool.or_eq_true, beq_iff_eq] at ends
      rcases ends with rfl | rfl <;> decide

theorem IsPath.decoded {path result : List Char} (good : IsPath kind path) (decoded : Decoded path result) :
    IsPath kind result := by
  rcases good with walked | ⟨other, empty⟩
  · exact .inl (walked.decoded decoded)
  · exact .inr ⟨other, decoded.nil_iff.mpr empty⟩

private theorem Decoded.start {path result rest : List Char} (decoded : Decoded path result)
    (slash : result = '/' :: rest) :
    ∃ more, path = '/' :: more := by
  induction decoded generalizing rest with
  | refl => exact ⟨rest, slash⟩
  | @step front back letter escape before ih =>
    cases front with
    | nil => exact absurd (List.cons.inj slash).1 (by decide)
    | cons c others =>
      obtain ⟨rfl, -⟩ := List.cons.inj slash
      exact ih rfl

theorem Decoded.last {text result : List Char} (decoded : Decoded text result) (slash : result.getLast? = some '/') :
    text.getLast? = some '/' := by
  induction decoded with
  | refl => exact slash
  | @step front back letter escape before ih =>
    refine ih ?_
    cases back with
    | nil => simp at slash
    | cons c rest => simpa using slash

theorem IsOpaquePath.decoded {path result : List Char} (good : IsOpaquePath path) (decoded : Decoded path result) :
    IsOpaquePath result := by
  refine ⟨fun c member => ?_, fun c member => ?_, fun rest slash => ?_⟩
  · rcases decoded.mem member with rfl | inside
    · decide
    · exact good.kept c inside
  · rcases decoded.mem member with rfl | inside
    · decide
    · exact good.inner c inside
  · obtain ⟨more, start⟩ := decoded.start slash
    exact good.start more start

/-! ## Sites -/

private theorem Site.Legible.decoded {site : Site} (legible : site.Legible) {result : List Char}
    (decoded : Decoded site.text result) :
    ∃ other : Site, result = other.text ∧ other.Legible ∧ site.Resembles other ∧ Decoded site.host other.host := by
  obtain ⟨user, host, port⟩ := site
  have hosted : ∀ {whole : List Char}, Decoded (host ++ portText port) whole →
      ∃ host', whole = host' ++ portText port ∧ Decoded host host' := by
    intro whole decoded
    cases port with
    | none =>
      rw [portText, List.append_nil] at decoded
      exact ⟨whole, by simp [portText], decoded⟩
    | some n =>
      obtain ⟨host', digits, rfl, first, second⟩ := decoded.split host ':' (by decide)
      have plain : '%' ∉ Nat.toDigits 10 n := fun percent =>
        (hostChar_of_mem_toDigits (by decide) (by decide) percent : HostChar .special '%').plain (by decide) rfl
      obtain rfl := second.eq_of_plain plain
      exact ⟨host', rfl, first⟩
  have letters : ∀ {host' : List Char}, Decoded host host' → ∀ c ∈ host', SiteChar c := by
    intro host' first c member
    rcases first.mem member with rfl | inside
    · exact .inl rfl
    · exact legible.host c inside
  have kept : ∀ {host' : List Char}, Decoded host host' → host' = host ∨ '%' ∈ host := by
    intro host' first
    exact first.same_or_shorter.imp id fun shorter => shorter.2.2
  cases user with
  | none =>
    obtain ⟨host', rfl, first⟩ := hosted decoded
    refine ⟨⟨none, host', port⟩, rfl, ⟨?_, ?_, letters first⟩, ⟨fun _ => rfl, kept first, rfl⟩, first⟩
    · rintro name ⟨⟩
    · rintro name ⟨⟩
  | some name =>
    obtain ⟨name', back, rfl, before, behind⟩ := Decoded.split name '@' decoded (by decide)
    obtain ⟨host', rfl, first⟩ := hosted behind
    refine ⟨⟨some name', host', port⟩, rfl, ⟨?_, ?_, letters first⟩, ⟨?_, kept first, rfl⟩, first⟩
    · rintro other ⟨⟩ empty
      exact legible.named name rfl (before.nil_iff.mp empty)
    · rintro other ⟨⟩ c member
      rcases before.mem member with rfl | inside
      · exact .inl rfl
      · exact legible.user name rfl c inside
    · rintro ⟨⟩

/-! ## Whole texts -/

theorem text_of_authority {uri : Uri} {authority : Authority} (same : uri.authority = some authority) :
    uri.text = uri.scheme ++ ':' :: (authority.text ++ uri.ending.text) := by
  simp only [text, beforeQuery, same, Ending.text, Ending.tail, ending]
  simp

theorem text_of_bare {uri : Uri} (bare : uri.authority = none) :
    uri.text = uri.scheme ++ ':' :: (dotLead uri.path ++ uri.ending.text) := by
  simp only [text, beforeQuery, bare, Ending.text, Ending.tail, ending, dotLead]
  simp

private theorem startsWith_two_iff (text : List Char) :
    Text.startsWith ['/', '/'] text = true ↔ ∃ rest, text = '/' :: '/' :: rest := by
  rw [Text.startsWith, Option.isSome_iff_exists]
  exact exists_congr fun rest => Text.after?_eq_some_iff _ _ _

private theorem dotLead_decoded {path result : List Char} (decoded : Decoded path result) :
    dotLead result = dotLead path := by
  have same : Text.startsWith ['/', '/'] result = Text.startsWith ['/', '/'] path := by
    rw [Bool.eq_iff_iff, startsWith_two_iff, startsWith_two_iff]
    constructor
    · rintro ⟨rest, rfl⟩
      obtain ⟨more, rfl⟩ := decoded.start rfl
      obtain ⟨_, shape, behind⟩ := decoded.after_mark (by decide)
      obtain ⟨others, rfl⟩ := behind.start (List.cons.inj shape).2.symm
      exact ⟨others, rfl⟩
    · rintro ⟨rest, rfl⟩
      obtain ⟨_, rfl, behind⟩ := decoded.after_mark (by decide)
      obtain ⟨others, rfl, -⟩ := behind.after_mark (by decide)
      exact ⟨others, rfl⟩
  rw [dotLead, dotLead, same]

private theorem Decoded.after_dotLead {path rest result : List Char} (decoded : Decoded (dotLead path ++ rest) result) :
    ∃ rest', result = dotLead path ++ rest' ∧ Decoded rest rest' := by
  simp only [dotLead] at decoded ⊢
  split at decoded
  next double =>
    obtain ⟨_, rfl, behind⟩ := Decoded.after_mark decoded (by decide)
    obtain ⟨others, rfl, beyond⟩ := Decoded.after_mark behind (by decide)
    exact ⟨others, by rw [if_pos double]; rfl, beyond⟩
  next single =>
    exact ⟨result, by rw [if_neg single]; rfl, decoded⟩

theorem dotLead_of_start {path : List Char} (start : ∀ rest, path ≠ '/' :: rest) : dotLead path = [] := by
  rw [dotLead, if_neg]
  intro double
  obtain ⟨rest, same⟩ := (startsWith_two_iff path).mp double
  exact start _ same

variable {uri : Uri}

theorem text_of_site {authority : Authority} {site : Site} (writes : site.Writes authority)
    (same : uri.authority = some authority) :
    uri.text = uri.scheme ++ ':' :: '/' :: '/' :: (site.text ++ uri.ending.text) := by
  rw [text_of_authority same, writes.text]
  rfl

theorem decoded_site {authority : Authority} {site : Site} (writes : site.Writes authority)
    (scheme : IsScheme uri.scheme) (same : uri.authority = some authority) (path : IsPath uri.kind uri.path)
    (encoded : uri.ending.Encoded uri.kind) :
    ∃ (other : Site) (ending : Ending),
      decodeColons uri.text = uri.scheme ++ ':' :: '/' :: '/' :: (other.text ++ ending.text) ∧ other.Legible ∧
        site.Resembles other ∧ Decoded site.host other.host ∧ Decoded uri.path ending.path ∧
          ending.Encoded uri.kind ∧ Decoded uri.ending.text ending.text := by
  have decoded := decoded_decodeColons uri.text
  rw [text_of_site writes same] at decoded ⊢
  obtain ⟨_, whole, behind⟩ := decoded.after_scheme scheme
  obtain ⟨_, rfl, beyond⟩ := behind.after_mark (by decide)
  obtain ⟨_, rfl, inside⟩ := beyond.after_mark (by decide)
  obtain ⟨front, back, rfl, sites, endings⟩ := Decoded.before_ending path inside
  obtain ⟨other, rfl, legible', resembles, hosts⟩ := writes.legible.decoded sites
  obtain ⟨ending, rfl, paths, encoded'⟩ := encoded.decoded endings
  exact ⟨other, ending, whole, legible', resembles, hosts, paths, encoded', endings⟩

theorem decoded_rooted (scheme : IsScheme uri.scheme) (bare : uri.authority = none)
    (encoded : uri.ending.Encoded .other) :
    ∃ ending : Ending, decodeColons uri.text = uri.scheme ++ ':' :: (dotLead ending.path ++ ending.text) ∧
      Decoded uri.path ending.path ∧ ending.Encoded .other := by
  have decoded := decoded_decodeColons uri.text
  rw [text_of_bare bare] at decoded ⊢
  obtain ⟨_, whole, behind⟩ := decoded.after_scheme scheme
  obtain ⟨_, rfl, beyond⟩ := behind.after_dotLead
  obtain ⟨ending, rfl, paths, encoded'⟩ := encoded.decoded beyond
  exact ⟨ending, by rw [whole, dotLead_decoded paths]; rfl, paths, encoded'⟩

theorem text_of_flat (bare : uri.authority = none) (start : ∀ rest, uri.path ≠ '/' :: rest) :
    uri.text = uri.scheme ++ ':' :: uri.ending.text := by
  rw [text_of_bare bare, dotLead_of_start start, List.nil_append]

theorem decoded_flat (scheme : IsScheme uri.scheme) (bare : uri.authority = none)
    (start : ∀ rest, uri.path ≠ '/' :: rest) (encoded : uri.ending.Encoded .other) :
    ∃ ending : Ending, decodeColons uri.text = uri.scheme ++ ':' :: ending.text ∧ Decoded uri.path ending.path ∧
      ending.Encoded .other := by
  have decoded := decoded_decodeColons uri.text
  rw [text_of_flat bare start] at decoded ⊢
  obtain ⟨_, whole, behind⟩ := decoded.after_scheme scheme
  obtain ⟨ending, rfl, paths, encoded'⟩ := encoded.decoded behind
  exact ⟨ending, whole, paths, encoded'⟩

theorem text_of_file {host : List Char} (scheme : uri.scheme = fileScheme)
    (authority : uri.authority = some (hostOnly host)) :
    uri.text = fileScheme ++ ':' :: '/' :: '/' :: (host ++ uri.ending.text) := by
  rw [text_of_authority authority, scheme]
  simp [hostOnly, Authority.text]

/-- Nothing is decoded in the host of a file, and its path starts with a slash as before. -/
theorem decoded_file {host rest : List Char} (named : IsHost .file host) (scheme : uri.scheme = fileScheme)
    (authority : uri.authority = some (hostOnly host)) (slash : uri.path = '/' :: rest)
    (letters : ∀ c ∈ rest, PathChar .file c) (encoded : uri.ending.Encoded .file) :
    ∃ (ending : Ending) (after : List Char),
      decodeColons uri.text = fileScheme ++ ':' :: '/' :: '/' :: (host ++ ending.text) ∧
        Decoded uri.path ending.path ∧ ending.Encoded .file ∧ ending.path = '/' :: after ∧
          ∀ c ∈ after, PathChar .file c := by
  have plain : '%' ∉ host := fun percent => absurd (named.name_of_percent percent).1 (by decide)
  have decoded := decoded_decodeColons uri.text
  rw [text_of_file scheme authority] at decoded ⊢
  obtain ⟨_, whole, behind⟩ := decoded.after_scheme isScheme_file
  obtain ⟨_, rfl, beyond⟩ := behind.after_mark (by decide)
  obtain ⟨_, rfl, inside⟩ := beyond.after_mark (by decide)
  have start : uri.ending.text = '/' :: (rest ++ uri.ending.tail) := by
    rw [Ending.text, show uri.ending.path = '/' :: rest from slash]
    rfl
  rw [start] at inside
  obtain ⟨front, back, rfl, same, onward⟩ := inside.split host '/' (by decide)
  obtain rfl := same.eq_of_plain plain
  have whole' := onward.cons '/'
  rw [← start] at whole'
  obtain ⟨ending, shape, paths, encoded'⟩ := encoded.decoded whole'
  rw [shape] at whole
  have paths' : Decoded ('/' :: rest) ending.path := slash ▸ paths
  obtain ⟨after, slash', decodedRest⟩ := paths'.after_mark (by decide)
  refine ⟨ending, after, whole, paths, encoded', slash', fun c member => ?_⟩
  rcases decodedRest.mem member with rfl | inside
  · exact pathChar_colon .file
  · exact letters c inside

end SpecServer.Uri
