import SpecServer.Proofs.Uri.Domain
import SpecServer.Proofs.Uri.Parts
set_option autoImplicit false

/-!
Normalizing again. The text of a normal form leads back to it or nowhere, and the letter of its drive is in lower case;
so nothing but an escaped colon that is left in its text can make another normalization change it.
-/

namespace SpecServer.Uri

/-- Whether the text of a URI leads back to it, if it leads anywhere, and the letter of its drive is in lower case. -/
structure Settled (uri : Uri) : Prop where
  again : ∀ found, parse (String.ofList uri.text) = .ok found → found = uri
  lowered : withLowerDrive uri = uri

variable {uri : Uri}

private theorem normalize_of_parsed {found : Uri} (parsed : parse (String.ofList (decodeColons uri.text)) = .ok found) :
    uri.normalize = withLowerDrive found := by
  rw [normalize, parsed]
  rfl

private theorem normalize_of_failed {error : UriError}
    (failed : parse (String.ofList (decodeColons uri.text)) = .error error) :
    uri.normalize = withLowerDrive uri := by
  rw [normalize, failed]
  rfl

private theorem Settled.normalize (settled : Settled uri) (plain : decodeColons uri.text = uri.text) :
    uri.normalize = uri := by
  cases parsed : parse (String.ofList uri.text) with
  | error error => rw [normalize_of_failed (plain ▸ parsed), settled.lowered]
  | ok found => rw [normalize_of_parsed (plain ▸ parsed), settled.again found parsed, settled.lowered]

/-! ## Hosts -/

private theorem readHost_again {kind : Kind} {text host again : List Char} (made : readHost kind text = .ok host)
    (read : readHost kind host = .ok again) : again = host := by
  simp only [readHost] at made read
  split at made
  next other =>
    rw [if_pos other] at read
    exact opaqueHost_again made read
  next free =>
    rw [if_neg free] at read
    exact specialHost_again made read

private theorem fileNamed_again {text host again : List Char} (made : fileNamed text = .ok host)
    (read : fileNamed host = .ok again) : again = host := by
  by_cases empty : host = []
  · rw [empty] at read ⊢
    exact (Except.ok.inj read).symm
  · have named : specialHost text = .ok host ∧ host ≠ "localhost".toList := by
      simp only [fileNamed] at made
      split at made
      · cases made
        exact absurd rfl empty
      · cases found : specialHost text with
        | error error =>
          rw [found] at made
          cases made
        | ok name =>
          rw [found] at made
          have shown : (if name = "localhost".toList then [] else name) = host := Except.ok.inj made
          split at shown
          · exact absurd shown.symm empty
          next other =>
            subst shown
            exact ⟨rfl, other⟩
    obtain ⟨found, other⟩ := named
    simp only [fileNamed, if_neg empty] at read
    cases name : specialHost host with
    | error error =>
      rw [name] at read
      cases read
    | ok name' =>
      obtain rfl := specialHost_again found name
      rw [name] at read
      obtain rfl := Except.ok.inj read
      exact if_neg other

/-! ## URIs with authorities -/

private theorem settled_hosted {authority : Authority} (good : IsAuthority uri.scheme authority)
    (scheme : IsScheme uri.scheme)
    (free : uri.kind ≠ .file) (same : uri.authority = some authority) (path : IsPath uri.kind uri.path)
    (encoded : uri.ending.Encoded uri.kind) (lowered : lowerDrive uri.path = uri.path) : Settled uri := by
  refine ⟨fun found parsed => ?_, withLowerDrive_of_same lowered⟩
  obtain ⟨site, writes⟩ := Site.exists_writes good
  obtain ⟨text, made⟩ := good.read
  have named : kindOf uri.scheme ≠ .other → site.host ≠ [] := fun special => writes.host ▸ good.named special
  have path' : IsPath (kindOf uri.scheme) uri.ending.path := path
  rw [text_of_site writes same, parse_site scheme free writes.legible named path' encoded] at parsed
  cases read : site.read uri.scheme with
  | error error =>
    rw [read] at parsed
    cases parsed
  | ok result =>
    rw [read, writes.again good (fun host => readHost_again made) read] at parsed
    calc found = assembled uri.scheme (some authority) uri.ending := (Except.ok.inj parsed).symm
      _ = assembled uri.scheme uri.authority uri.ending := by rw [same]
      _ = uri := rfl

/-- With an authority, the letter of a drive in lower case settles a URI. -/
theorem settled_withLowerDrive_hosted {authority : Authority} (good : IsAuthority uri.scheme authority)
    (scheme : IsScheme uri.scheme) (free : uri.kind ≠ .file) (same : uri.authority = some authority)
    (path : IsPath uri.kind uri.path) (encoded : uri.ending.Encoded uri.kind) : Settled (withLowerDrive uri) := by
  rcases path with walked | ⟨other, empty⟩
  · rw [withLowerDrive_of_walked walked]
    exact settled_hosted good scheme free same (.inl (isWalked_lowerDrive walked)) ⟨encoded.query, encoded.fragment⟩
      (lowerDrive_lowerDrive uri.path)
  · have still : lowerDrive uri.path = uri.path := by rw [empty]; rfl
    rw [withLowerDrive_of_same still]
    exact settled_hosted good scheme free same (.inr ⟨other, empty⟩) encoded still

private theorem isAuthority_of_read {scheme : List Char} {site : Site} {authority : Authority} (legible : site.Legible)
    (read : site.read scheme = .ok authority) : IsAuthority scheme authority := by
  obtain ⟨left, owned⟩ := Site.read_ok read
  refine ownedHost_yields ?_ owned
  cases user : site.user with
  | none => exact .inl (by simp only [Site.userinfo, user])
  | some name =>
    have made := isUser_userinfoText (legible.named name user)
    simpa only [Site.userinfo, user] using made

private theorem settled_normalize_hosted {authority : Authority} (good : IsAuthority uri.scheme authority)
    (scheme : IsScheme uri.scheme) (free : uri.kind ≠ .file) (same : uri.authority = some authority)
    (path : IsPath uri.kind uri.path) (encoded : uri.ending.Encoded uri.kind) : Settled uri.normalize := by
  obtain ⟨site, writes⟩ := Site.exists_writes good
  obtain ⟨other, ending, decodedText, legible', -, hosts, paths, encoded', -⟩ :=
    decoded_site writes scheme same path encoded
  have named' : kindOf uri.scheme ≠ .other → other.host ≠ [] :=
    fun special empty => good.named special (writes.host ▸ hosts.nil_iff.mp empty)
  have read := parse_site scheme free legible' named' (path.decoded paths) encoded'
  rw [← decodedText] at read
  cases found : other.read uri.scheme with
  | error error =>
    rw [found] at read
    rw [normalize_of_failed read]
    exact settled_withLowerDrive_hosted good scheme free same path encoded
  | ok result =>
    rw [found] at read
    rw [normalize_of_parsed read]
    exact settled_withLowerDrive_hosted (isAuthority_of_read legible' found) scheme free rfl (path.decoded paths) encoded'

/-! ## URIs without -/

private theorem settled_normalize_rooted (scheme : IsScheme uri.scheme) (other : uri.kind = .other)
    (bare : uri.authority = none) (path : IsWalked .other uri.path) (encoded : uri.ending.Encoded .other) :
    Settled uri.normalize := by
  obtain ⟨ending, decodedText, paths, encoded'⟩ := decoded_rooted scheme bare encoded
  have read := parse_rooted scheme other (path.decoded paths) encoded'
  rw [← decodedText] at read
  have walked : IsWalked (assembled uri.scheme none ending).kind ending.path := other ▸ path.decoded paths
  rw [normalize_of_parsed read, withLowerDrive_of_walked walked]
  refine ⟨fun found parsed => ?_, withLowerDrive_of_same (lowerDrive_lowerDrive ending.path)⟩
  have again := @parse_rooted uri.scheme { ending with path := lowerDrive ending.path } scheme other
    (isWalked_lowerDrive (path.decoded paths)) ⟨encoded'.query, encoded'.fragment⟩
  rw [text_of_bare rfl] at parsed
  exact (Except.ok.inj (again.symm.trans parsed)).symm

private theorem settled_normalize_flat (scheme : IsScheme uri.scheme) (other : uri.kind = .other)
    (bare : uri.authority = none)
    (path : IsOpaquePath uri.path) (encoded : uri.ending.Encoded .other) : Settled uri.normalize := by
  obtain ⟨ending, decodedText, paths, encoded'⟩ := decoded_flat scheme bare path.start encoded
  have path' := path.decoded paths
  have read := parse_flat scheme other path' encoded'
  rw [← decodedText] at read
  -- the space at the end of the path is lost once, and then no more
  obtain ⟨front, shorter, lost, once⟩ : ∃ front, front <+: ending.path ∧
      (if ending.tail = [] then Text.dropEndWhile isPadding ending.path else ending.path) = front ∧
        (if ending.tail = [] then Text.dropEndWhile isPadding front else front) = front := by
    refine ⟨_, ?_, rfl, ?_⟩
    · split
      · exact dropEndWhile_prefix isPadding ending.path
      · exact List.prefix_rfl
    · split
      · exact dropEndWhile_dropEndWhile isPadding ending.path
      · rfl
  rw [lost] at read
  have free : IsOpaquePath front := path'.left shorter
  have still : lowerDrive front = front := lowerDrive_of_start free.start
  rw [normalize_of_parsed read, withLowerDrive_of_same still]
  refine ⟨fun found parsed => ?_, withLowerDrive_of_same still⟩
  have again := @parse_flat uri.scheme { ending with path := front } scheme other free ⟨encoded'.query, encoded'.fragment⟩
  rw [text_of_flat rfl free.start] at parsed
  have same := Except.ok.inj (again.symm.trans parsed)
  have tail : Ending.tail { ending with path := front } = ending.tail := rfl
  simp only [tail, once] at same
  exact same.symm

/-! ## Files -/

/-- The host and the segments of a file: a drive at the start of the path has a colon, and no host before it. -/
structure Filed (uri : Uri) (host segment : List Char) (more : List (List Char)) : Prop where
  scheme : uri.scheme = fileScheme
  authority : uri.authority = some (hostOnly host)
  named : ∃ text, fileNamed text = .ok host
  path : uri.path = slashed (segment :: more)
  good : ∀ other ∈ segment :: more, Segment .file other
  single : SingleSlash .file segment more
  drive : isDrive segment = true → isPlainDrive segment = true ∧ host = []
  encoded : uri.ending.Encoded .file

private theorem Filed.settled {host segment : List Char} {more : List (List Char)} (filed : Filed uri host segment more)
    (lowered : lowerDrive uri.path = uri.path) : Settled uri := by
  refine ⟨fun found parsed => ?_, withLowerDrive_of_same lowered⟩
  obtain ⟨text, made⟩ := filed.named
  have start : uri.ending.text = '/' :: (segment ++ slashed more ++ uri.ending.tail) := by
    rw [Ending.text, show uri.ending.path = slashed (segment :: more) from filed.path]
    rfl
  have spaceless : ∀ c ∈ segment ++ slashed more ++ uri.ending.tail, isPadding c = false := by
    intro c member
    have walked : IsWalked .file uri.ending.path := ⟨segment, more, filed.path, filed.good, filed.single⟩
    exact IsPath.not_padding (.inl walked) filed.encoded c (by rw [start]; exact List.mem_cons_of_mem _ member)
  rw [text_of_file filed.scheme filed.authority, start, parse_file (isHost_of_fileNamed made) spaceless, ← start] at parsed
  cases known : fileNamed host with
  | error error =>
    rw [known] at parsed
    cases parsed
  | ok again =>
    obtain rfl := fileNamed_again made known
    rw [known] at parsed
    have site : (if isDrive segment then noHost else hostOnly again) = hostOnly again := by
      split
      next drive => rw [(filed.drive drive).2]; rfl
      · rfl
    have fixed : fixDrive .file segment = segment := by
      rw [fixDrive]
      split
      next drive =>
        obtain ⟨c, rfl, -⟩ := isPlainDrive_cases (filed.drive drive.2).1
        rfl
      · rfl
    calc found = fileBehind again uri.ending.text := (Except.ok.inj parsed).symm
      _ = assembled fileScheme (some (hostOnly again)) { uri.ending with path := slashed (segment :: more) } := by
        rw [fileBehind_segments filed.path filed.good filed.single filed.encoded, site, fixed]
      _ = assembled uri.scheme uri.authority { uri.ending with path := uri.path } := by
        rw [filed.scheme, filed.authority, filed.path]
      _ = uri := rfl

private theorem isLetter_of_asciiLower {c : Char} (letter : isLetter (Text.asciiLower c) = true) :
    isLetter c = true := by
  simp only [Text.asciiLower] at letter
  split at letter
  next upper => simp only [isLetter, upper.1, upper.2, decide_true, Bool.and_self, Bool.or_true]
  · exact letter

private theorem Filed.settled_withLowerDrive {host segment : List Char} {more : List (List Char)}
    (filed : Filed uri host segment more) : Settled (withLowerDrive uri) := by
  have kind : uri.kind = .file := by rw [Uri.kind, filed.scheme]; decide
  have walked : IsWalked uri.kind uri.path := by
    rw [kind]
    exact ⟨segment, more, filed.path, filed.good, filed.single⟩
  obtain ⟨good, single⟩ := lower_segments filed.good filed.single
  rw [withLowerDrive_of_walked walked]
  refine @Filed.settled _ host (lowerSegment segment) more ⟨filed.scheme, filed.authority,
    filed.named, ?_, good, single, fun drive => ?_, ⟨filed.encoded.query, filed.encoded.fragment⟩⟩ (lowerDrive_lowerDrive uri.path)
  · rw [filed.path, lowerDrive_slashed]
  · rcases lowerSegment_cases segment with ⟨c, rest, rfl, lowered⟩ | same
    · rw [lowered] at drive ⊢
      cases rest with
      | nil =>
        have letter : isLetter (Text.asciiLower c) = true := (Bool.and_eq_true_iff.mp drive).1
        refine ⟨letter, (filed.drive ?_).2⟩
        simp [isDrive, isLetter_of_asciiLower letter]
      | cons d others => cases drive
    · rw [same] at drive ⊢
      exact filed.drive drive

private theorem walkPath_drive {b : PathBuilder} (root : b.path = ['/']) {c : Char} (letter : isLetter c = true)
    (rest : List Char) :
    Led c (walkPath .file b (c :: ':' :: '/' :: rest)).1.path ∧
      (walkPath .file b (c :: ':' :: '/' :: rest)).1.hosted = false := by
  have ended : b.path.getLast? = some '/' := by rw [root]; rfl
  have first := readPath_segment (@drive_segment .file c letter) (c :: ':' :: '/' :: rest).length ended rest
  have drive : drives .file b [c, ':'] = true := by simp [drives, root, isDrive, letter]
  have added := add_segment (@drive_segment .file c letter) b true
  rw [drive] at added
  have led : Led c (b.add .file [c, ':'] true).path := by
    rw [added, root]
    exact ⟨letter, [], rfl⟩
  have gone : (b.add .file [c, ':'] true).hosted = false := by
    rw [added]
    simp
  have whole : [c, ':'] ++ '/' :: rest = c :: ':' :: '/' :: rest := rfl
  rw [whole] at first
  have led' := @Led.readPath .file c (c :: ':' :: '/' :: rest).length _ led rest
  simp only [walkPath, first, ↓reduceIte, led'.collapse]
  exact ⟨led', hosted_readPath _ gone rest⟩

/-- Behind an authority, a path that is led by a drive stays so and takes the place of the host. -/
theorem pathBehind_led {c : Char} {path : List Char} (led : Led c path) (authority : Option Authority) (more : List Char) :
    Led c (pathBehind .file (builder authority []) (path ++ more)).1.path ∧
      (pathBehind .file (builder authority []) (path ++ more)).1.hosted = false := by
  obtain ⟨letter, rest, rfl⟩ := led
  have slash : first? ('/' :: c :: ':' :: '/' :: (rest ++ more)) = some ('/', c :: ':' :: '/' :: (rest ++ more)) :=
    first?_of_not_fold (by decide) _
  have fromRoot := walkPath_drive (b := { builder authority [] with path := ['/'] }) rfl letter (rest ++ more)
  have lead : isAnySlash '/' = true := rfl
  simp only [List.cons_append, pathBehind, slash, reduceCtorEq, ↓reduceIte, lead]
  split
  · rw [walkPath_root rfl]
    exact fromRoot
  · exact fromRoot

private theorem Led.decoded {c : Char} {path result : List Char} (led : Led c path) (decoded : Decoded path result) :
    Led c result := by
  obtain ⟨letter, rest, rfl⟩ := led
  obtain ⟨_, rfl, behind⟩ := decoded.after_mark (by decide)
  obtain ⟨front, back, rfl, lead, -⟩ := Decoded.split [c, ':'] '/' behind (by decide)
  have plain : '%' ∉ [c, ':'] := by
    simp only [List.mem_cons, List.not_mem_nil, or_false, not_or]
    refine ⟨?_, by decide⟩
    rintro rfl
    exact absurd letter (by decide)
  obtain rfl := lead.eq_of_plain plain
  exact ⟨letter, back, rfl⟩

private theorem Led.segment {c : Char} {segment : List Char} {more : List (List Char)}
    (led : Led c (slashed (segment :: more)))
    (good : Segment .file segment) : segment = [c, ':'] := by
  obtain ⟨letter, rest, same⟩ := led
  have behind : segment ++ slashed more = c :: ':' :: '/' :: rest := (List.cons.inj same).2
  match segment with
  | [] =>
    cases more with
    | nil => cases behind
    | cons next others =>
      obtain ⟨rfl, -⟩ := List.cons.inj behind
      exact absurd letter (by decide)
  | [d] =>
    cases more with
    | nil => cases behind
    | cons next others => cases behind
  | [d, e] =>
    obtain ⟨rfl, rest⟩ := List.cons.inj behind
    rw [(List.cons.inj rest).1]
  | d :: e :: f :: others =>
    obtain ⟨rfl, -⟩ := List.cons.inj (List.cons.inj (List.cons.inj behind).2).2
    exact absurd (good.inner '/' (by simp)) (by decide)

private theorem isDrive_cases {segment : List Char} (drive : isDrive segment = true) :
    ∃ c mark, segment = [c, mark] ∧ isLetter c = true := by
  simp only [isDrive] at drive
  split at drive
  next c mark => exact ⟨c, mark, rfl, (Bool.and_eq_true_iff.mp drive).1⟩
  next => cases drive

private theorem Segment.fixDrive {segment : List Char} (good : Segment .file segment) :
    Segment .file (Uri.fixDrive .file segment) := by
  rw [Uri.fixDrive]
  split
  next drive =>
    obtain ⟨c, mark, rfl, letter⟩ := isDrive_cases drive.2
    exact drive_segment letter
  · exact good

private theorem isPlainDrive_fixDrive {segment : List Char} (drive : isDrive (fixDrive .file segment) = true) :
    isDrive segment = true ∧ isPlainDrive (fixDrive .file segment) = true := by
  cases known : isDrive segment with
  | false =>
    rw [fixDrive, if_neg (by simp [known]), known] at drive
    cases drive
  | true =>
    refine ⟨rfl, ?_⟩
    rw [fixDrive, if_pos ⟨rfl, known⟩]
    obtain ⟨c, mark, rfl, letter⟩ := isDrive_cases known
    exact letter

/-- Behind a host, what the text of a file leads to has its drive in place of the host. -/
theorem exists_filed {host : List Char} (named : ∃ text, fileNamed text = .ok host) {ending : Ending} {after : List Char}
    (slash : ending.path = '/' :: after) (letters : ∀ c ∈ after, PathChar .file c) (shape : IsFilePath ending.path)
    (encoded : ending.Encoded .file) : ∃ host' segment more, Filed (fileBehind host ending.text) host' segment more := by
  rcases shape with ⟨segment, more, path, good, single⟩ | ⟨c, led⟩
  · have whole := fileBehind_segments path good single encoded host
    have fixed : ∀ other ∈ fixDrive .file segment :: more, Segment .file other :=
      List.forall_mem_cons.mpr ⟨(good segment List.mem_cons_self).fixDrive, (List.forall_mem_cons.mp good).2⟩
    refine ⟨if isDrive segment then [] else host, fixDrive .file segment, more, ?_⟩
    rw [whole]
    refine ⟨rfl, ?_, ?_, rfl, fixed, fun file empty => single file ?_, fun drive => ?_, ⟨encoded.query, encoded.fragment⟩⟩
    · show some _ = _
      split <;> rfl
    · split
      · exact ⟨[], fileNamed_nil⟩
      · exact named
    · have long := length_fixDrive .file segment
      rw [empty] at long
      exact List.length_eq_zero_iff.mp long.symm
    · obtain ⟨known, plain⟩ := isPlainDrive_fixDrive drive
      exact ⟨plain, if_pos known⟩
  · obtain ⟨led', gone⟩ := pathBehind_led led (some (hostOnly host)) ending.tail
    obtain ⟨authority, path, whole, segment, more, rfl, good, single⟩ := fileBehind_chars slash letters encoded host
    have text : ending.path ++ ending.tail = ending.text := rfl
    rw [text] at led' gone
    have path : (fileBehind host ending.text).path = slashed (segment :: more) := by rw [whole]; rfl
    have site : authority = some noHost := by
      have same : (fileBehind host ending.text).authority = authority := by rw [whole]; rfl
      rw [← same]
      simp only [fileBehind, gone]
      rfl
    have lead : Led c (fileBehind host ending.text).path := led'
    rw [path] at lead
    have first : segment = [c, ':'] := lead.segment (good segment List.mem_cons_self)
    refine ⟨[], segment, more, ?_⟩
    rw [whole, site]
    refine ⟨rfl, rfl, ⟨[], fileNamed_nil⟩, rfl, good, single, fun _ => ⟨?_, rfl⟩, ⟨encoded.query, encoded.fragment⟩⟩
    rw [first]
    exact led.letter

private theorem Led.lowerDrive {c : Char} {path : List Char} (led : Led c path) :
    Led (Text.asciiLower c) (Uri.lowerDrive path) := by
  obtain ⟨letter, rest, rfl⟩ := led
  refine ⟨?_, rest, rfl⟩
  exact forall_ascii (fun c => isLetter c = true → isLetter (Text.asciiLower c) = true) (by decide +kernel)
    (ascii_of_isLetter letter) letter

/-- The letter of a drive is in lower case once and for all, also before a path that was not walked. -/
theorem withLowerDrive_withLowerDrive (file : uri.kind = .file) (shape : IsFilePath uri.path) :
    withLowerDrive (withLowerDrive uri) = withLowerDrive uri := by
  rcases shape with walked | ⟨c, led⟩
  · have walked' : IsWalked uri.kind uri.path := by rwa [file]
    rw [withLowerDrive_of_walked walked']
    exact withLowerDrive_of_same (lowerDrive_lowerDrive uri.path)
  · by_cases same : lowerDrive uri.path = uri.path
    · rw [withLowerDrive_of_same same, withLowerDrive_of_same same]
    · have behind := (pathBehind_led led.lowerDrive uri.authority []).1
      rw [List.append_nil] at behind
      rw [withLowerDrive.eq_def uri, if_neg same, file]
      obtain ⟨-, rest, path⟩ := behind
      have still : ∀ path : List Char, path = '/' :: Text.asciiLower c :: ':' :: '/' :: rest → lowerDrive path = path := by
        rintro _ rfl
        simp only [lowerDrive, asciiLower_asciiLower]
      exact withLowerDrive_of_same (still _ path)

/-- Where the host of a file cannot be read again, only the letter of a drive changes, and the text leads nowhere. -/
theorem settled_of_failed {host : List Char} (legible : Legible uri) (scheme : uri.scheme = fileScheme)
    (authority : uri.authority = some (hostOnly host)) (shape : IsFilePath uri.path) {error : UriError}
    (failed : fileNamed host = .error error) : Settled (withLowerDrive uri) := by
  have kind : uri.kind = .file := by rw [Uri.kind, scheme]; decide
  refine ⟨fun found parsed => ?_, withLowerDrive_withLowerDrive kind shape⟩
  have legible' := legible.withLowerDrive
  obtain ⟨path, same⟩ := withLowerDrive_eq uri
  rw [same] at legible' parsed
  cases legible' with
  | file host' named scheme' authority' path' shape' encoded =>
    obtain ⟨text, read⟩ := named
    obtain ⟨rest, slash, letters⟩ := path'
    obtain rfl : host' = host := by
      have sites := authority'.symm.trans authority
      exact congrArg Authority.host (Option.some.inj sites)
    have start : Ending.text { uri.ending with path := path } = '/' :: (rest ++ uri.ending.tail) := by
      rw [Ending.text, show path = '/' :: rest from slash]
      rfl
    have spaceless : ∀ c ∈ rest ++ uri.ending.tail, isPadding c = false := not_padding_of_pathChars encoded letters
    have text' := @text_of_file { uri with path := path } _ scheme' authority'
    have ending : Uri.ending { uri with path := path } = { uri.ending with path := path } := rfl
    rw [text', ending, start, parse_file (isHost_of_fileNamed read) spaceless, failed] at parsed
    cases parsed
  | hosted _ _ _ free => exact absurd kind free
  | rooted _ other => exact absurd (kind.symm.trans other) (by decide)
  | flat _ other => exact absurd (kind.symm.trans other) (by decide)

private theorem settled_normalize_file {host : List Char} (legible : Legible uri)
    (named : ∃ text, fileNamed text = .ok host)
    (scheme : uri.scheme = fileScheme) (authority : uri.authority = some (hostOnly host))
    (path : ∃ rest, uri.path = '/' :: rest ∧ ∀ c ∈ rest, PathChar .file c) (shape : IsFilePath uri.path)
    (encoded : uri.ending.Encoded .file) : Settled uri.normalize := by
  obtain ⟨rest, slash, letters⟩ := path
  obtain ⟨text, made⟩ := named
  have good := isHost_of_fileNamed made
  obtain ⟨ending, after, decodedText, paths, encoded', slash', letters'⟩ :=
    decoded_file good scheme authority slash letters encoded
  have shape' : IsFilePath ending.path :=
    shape.imp (fun walked => walked.decoded paths) fun ⟨c, led⟩ => ⟨c, led.decoded paths⟩
  have start : ending.text = '/' :: (after ++ ending.tail) := by
    rw [Ending.text, slash']
    rfl
  have spaceless := not_padding_of_pathChars encoded' letters'
  have read := parse_file good spaceless
  rw [← start, ← decodedText] at read
  cases known : fileNamed host with
  | error error =>
    rw [known] at read
    rw [normalize_of_failed read]
    exact settled_of_failed legible scheme authority shape known
  | ok again =>
    obtain rfl := fileNamed_again made known
    rw [known] at read
    rw [normalize_of_parsed read]
    obtain ⟨host', segment, more, filed⟩ := exists_filed ⟨text, made⟩ slash' letters' shape' encoded'
    exact filed.settled_withLowerDrive

/-! ## All normal forms -/

theorem settled_normalize {text : String} (parsed : parse text = .ok uri) : Settled uri.normalize := by
  have legible := legible_parse parsed
  cases legible_parse parsed with
  | file host named scheme authority path shape encoded =>
    exact settled_normalize_file legible named scheme authority path shape encoded
  | hosted authority good scheme free same path encoded => exact settled_normalize_hosted good scheme free same path encoded
  | rooted scheme other bare path encoded => exact settled_normalize_rooted scheme other bare path encoded
  | flat scheme other bare path encoded => exact settled_normalize_flat scheme other bare path encoded

/-- Normalizing again changes nothing, unless an escaped colon was left. -/
theorem normalize_normalize {text : String} (parsed : parse text = .ok uri)
    (plain : decodeColons uri.normalize.text = uri.normalize.text) : uri.normalize.normalize = uri.normalize :=
  (settled_normalize parsed).normalize plain

/-- A file on a drive whose colon is escaped. -/
def escapedDrive : Uri :=
  ⟨fileScheme, some (hostOnly "host".toList), "/C%3A/spec.md".toList, none, none⟩

theorem normalize_normalize_sample :
    parse "file://Host/C%3A/spec.md" = .ok escapedDrive ∧ escapedDrive.normalize ≠ escapedDrive ∧
      escapedDrive.normalize.normalize = escapedDrive.normalize := by
  have read : (parse "file://Host/C%3A/spec.md").toOption = some escapedDrive := by decide +kernel
  have parsed : parse "file://Host/C%3A/spec.md" = .ok escapedDrive := by
    cases found : parse "file://Host/C%3A/spec.md" with
    | error error =>
      rw [found] at read
      cases read
    | ok uri =>
      rw [found] at read
      rw [Option.some.inj read]
  exact ⟨parsed, by decide +kernel, normalize_normalize parsed (by decide +kernel)⟩

/-- Of two escaped colons in upper case, the second normalization decodes one that the first has left. -/
theorem not_always_normal : ¬ ∀ (text : String) (uri : Uri), parse text = .ok uri →
    uri.normalize.normalize = uri.normalize := by
  intro always
  have apart : (parse "file:///a%3Ab%3Ac").toOption.any
      (fun uri => decide (uri.normalize.normalize ≠ uri.normalize)) = true := by
    decide +kernel
  cases parsed : parse "file:///a%3Ab%3Ac" with
  | error error =>
    rw [parsed] at apart
    cases apart
  | ok uri =>
    simp only [parsed, Except.toOption, Option.any_some, decide_eq_true_eq] at apart
    exact apart (always _ uri parsed)

end SpecServer.Uri
