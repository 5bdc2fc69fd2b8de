import SpecServer.Proofs.Uri.Parts
import SpecServer.Uri.Naming
set_option autoImplicit false

/-!
The configuration generated for a document. If the document's URI is normal and does not end in a slash, then its text
with the name of the configuration behind it is read as it stands, so that different documents have different ones.
-/

namespace SpecServer.Uri

def generatedName : List Char :=
  "/readme.md".toList

def below (uri : Uri) : Uri :=
  assembled uri.scheme uri.authority (uri.ending.lengthened generatedName)

private theorem below_injective {first second : Uri} (same : first.below = second.below) : first = second := by
  obtain ⟨scheme, authority, path, query, fragment⟩ := first
  obtain ⟨scheme', authority', path', query', fragment'⟩ := second
  cases fragment with
  | some text =>
    cases fragment' with
    | some text' => simpa [below, assembled, ending, Ending.lengthened] using same
    | none => cases query' <;> simp [below, assembled, ending, Ending.lengthened] at same
  | none =>
    cases fragment' with
    | some text' => cases query <;> simp [below, assembled, ending, Ending.lengthened] at same
    | none =>
      cases query with
      | some text =>
        cases query' with
        | some text' => simpa [below, assembled, ending, Ending.lengthened] using same
        | none => simp [below, assembled, ending, Ending.lengthened] at same
      | none =>
        cases query' with
        | some text' => simp [below, assembled, ending, Ending.lengthened] at same
        | none => simpa [below, assembled, ending, Ending.lengthened] using same

private theorem below_ne (uri : Uri) : uri.below ≠ uri := by
  have longer : ∀ {front : List Char}, front ++ generatedName ≠ front :=
    fun same => absurd (List.append_right_eq_self.mp same) (by decide)
  obtain ⟨scheme, authority, path, query, fragment⟩ := uri
  cases fragment with
  | some text => simp [below, assembled, ending, Ending.lengthened, longer]
  | none =>
    cases query with
    | some text => simp [below, assembled, ending, Ending.lengthened, longer]
    | none => simp [below, assembled, ending, Ending.lengthened, longer]

/-! ## Longer texts -/

private theorem segment_generatedName (kind : Kind) :
    ∃ name, generatedName = '/' :: name ∧ name ≠ [] ∧ Segment kind name := by
  refine ⟨"readme.md".toList, by decide, by decide, ?_, ?_, by decide, by decide⟩
  · exact forall_mem_of_all (by decide)
  · cases kind <;> exact forall_mem_of_all (by decide)

private theorem encoded_lengthened {kind : Kind} {ending : Ending} (encoded : ending.Encoded kind) :
    (ending.lengthened generatedName).Encoded kind :=
  encoded.lengthened (by cases kind <;> exact forall_mem_of_all (by decide)) (forall_mem_of_all (by decide))

private theorem isWalked_of_append {kind : Kind} {ending : Ending} {path : List Char} (good : IsPath kind ending.path)
    (closed : ending.path.getLast? ≠ some '/') (longer : path = ending.path ++ generatedName) : IsWalked kind path := by
  obtain ⟨name, same, -, segment⟩ := segment_generatedName kind
  rw [longer, same]
  exact Ending.isWalked_append good closed segment

private theorem walked_or_same {kind : Kind} {ending : Ending} (path : IsPath kind ending.path)
    (closed : ending.text.getLast? ≠ some '/') :
    IsWalked kind (ending.lengthened generatedName).path ∨ (ending.lengthened generatedName).path = ending.path := by
  obtain ⟨name, same, -, segment⟩ := segment_generatedName kind
  obtain ⟨walked, query, fragment⟩ := ending
  cases fragment with
  | some text => exact .inr rfl
  | none =>
    cases query with
    | some text => exact .inr rfl
    | none =>
      have open' : walked.getLast? ≠ some '/' := by simpa [Ending.text, Ending.tail, marked] using closed
      rw [same]
      exact .inl (Ending.isWalked_append path open' segment)

private theorem isPath_lengthened {kind : Kind} {ending : Ending} (path : IsPath kind ending.path)
    (closed : ending.text.getLast? ≠ some '/') : IsPath kind (ending.lengthened generatedName).path :=
  (walked_or_same path closed).elim .inl fun same => same ▸ path

private theorem isWalked_lengthened {kind : Kind} {ending : Ending} (path : IsWalked kind ending.path)
    (closed : ending.text.getLast? ≠ some '/') : IsWalked kind (ending.lengthened generatedName).path :=
  (walked_or_same (.inl path) closed).elim id fun same => same ▸ path

private theorem IsOpaquePath.append_generatedName {path : List Char} (good : IsOpaquePath path) (nonempty : path ≠ []) :
    IsOpaquePath (path ++ generatedName) := by
  refine ⟨fun c member => ?_, fun c member => ?_, fun rest same => ?_⟩
  · exact (List.mem_append.mp member).elim (good.kept c)
      (forall_mem_of_all (show (generatedName.all fun d => decide (EncodeSet.controls.Keeps d)) = true by decide) c)
  · exact (List.mem_append.mp member).elim (good.inner c)
      (forall_mem_of_all (show (generatedName.all fun d => decide (endsPath d = false)) = true by decide) c)
  · obtain ⟨c, others, rfl⟩ := List.exists_cons_of_ne_nil nonempty
    obtain ⟨rfl, -⟩ := List.cons.inj same
    exact good.start others rfl

private theorem lengthened_segments {kind : Kind} {ending : Ending} {segment : List Char} {more : List (List Char)}
    (path : ending.path = slashed (segment :: more)) (good : ∀ other ∈ segment :: more, Segment kind other)
    (single : SingleSlash kind segment more) (closed : ending.text.getLast? ≠ some '/') :
    ∃ more', (ending.lengthened generatedName).path = slashed (segment :: more') ∧
      (∀ other ∈ segment :: more', Segment kind other) ∧ SingleSlash kind segment more' := by
  obtain ⟨walked, query, fragment⟩ := ending
  cases fragment with
  | some text => exact ⟨more, path, good, single⟩
  | none =>
    cases query with
    | some text => exact ⟨more, path, good, single⟩
    | none =>
      obtain ⟨name, same, -, last⟩ := segment_generatedName kind
      have open' : walked.getLast? ≠ some '/' := by simpa [Ending.text, Ending.tail, marked] using closed
      obtain rfl : walked = slashed (segment :: more) := path
      refine ⟨more ++ [name], ?_, fun other member => ?_, fun file empty => ?_⟩
      · simp only [Ending.lengthened, same]
        rw [← List.cons_append, slashed_concat]
      · rcases List.mem_append.mp (List.cons_append .. ▸ member) with front | back
        · exact good other front
        · obtain rfl := List.mem_singleton.mp back
          exact last
      · rw [empty, single file empty] at open'
        exact absurd rfl open'

private theorem lowerDrive_append {path : List Char} (lowered : lowerDrive path = path)
    (closed : path.getLast? ≠ some '/') :
    lowerDrive (path ++ generatedName) = path ++ generatedName := by
  match path with
  | [] => decide
  | [c] =>
    have other : c ≠ '/' := by simpa using closed
    exact lowerDrive_of_start fun rest same => other (List.cons.inj same).1
  | [c, d] =>
    by_cases slash : c = '/'
    · subst slash
      rfl
    · exact lowerDrive_of_start fun rest same => slash (List.cons.inj same).1
  | c :: d :: e :: rest =>
    by_cases drive : c = '/' ∧ e = ':'
    · obtain ⟨rfl, rfl⟩ := drive
      simp only [lowerDrive, List.cons.injEq, true_and, and_true] at lowered
      simp only [List.cons_append, lowerDrive, lowered]
    · have other : ∀ more, lowerDrive (c :: d :: e :: more) = c :: d :: e :: more := by
        intro more
        unfold lowerDrive
        split
        next same =>
          simp only [List.cons.injEq] at same
          exact absurd ⟨same.1, same.2.2.1⟩ drive
        · rfl
      exact other _

private theorem lowerDrive_lengthened {ending : Ending} (lowered : lowerDrive ending.path = ending.path)
    (closed : ending.text.getLast? ≠ some '/') :
    lowerDrive (ending.lengthened generatedName).path = (ending.lengthened generatedName).path := by
  obtain ⟨path, query, fragment⟩ := ending
  cases fragment with
  | some text => exact lowered
  | none =>
    cases query with
    | some text => exact lowered
    | none =>
      have open' : path.getLast? ≠ some '/' := by simpa [Ending.text, Ending.tail, marked] using closed
      exact lowerDrive_append lowered open'

/-! ## Texts of URIs -/

private theorem ending_closed {uri : Uri} (closed : uri.text.getLast? ≠ some '/') :
    uri.ending.text.getLast? ≠ some '/' := by
  intro last
  have whole : ∃ front, uri.text = front ++ uri.ending.text := by
    cases same : uri.authority with
    | some authority => exact ⟨uri.scheme ++ ':' :: authority.text, by rw [text_of_authority same]; simp⟩
    | none => exact ⟨uri.scheme ++ ':' :: dotLead uri.path, by rw [text_of_bare same]; simp⟩
  obtain ⟨front, whole⟩ := whole
  rw [whole, List.getLast?_append, last] at closed
  exact closed rfl

private theorem ending_below (uri : Uri) : uri.below.ending = uri.ending.lengthened generatedName := rfl

private theorem dotLead_lengthened {ending : Ending} (closed : ending.text.getLast? ≠ some '/') :
    dotLead (ending.lengthened generatedName).path = dotLead ending.path := by
  obtain ⟨path, query, fragment⟩ := ending
  cases fragment with
  | some text => rfl
  | none =>
    cases query with
    | some text => rfl
    | none =>
      match path, closed with
      | [], _ => decide
      | [c], closed =>
        have other : c ≠ '/' := by simpa [Ending.text, Ending.tail, marked] using closed
        simp [Ending.lengthened, dotLead, Text.startsWith, Text.after?, Ne.symm other]
      | c :: d :: rest, _ =>
        have still : ∀ more : List Char, Text.startsWith ['/', '/'] (c :: d :: more) = decide ('/' = c ∧ '/' = d) := by
          intro more
          by_cases first : '/' = c
          · by_cases second : '/' = d
            · simp [Text.startsWith, Text.after?, ← first, ← second]
            · simp [Text.startsWith, Text.after?, second]
          · simp [Text.startsWith, Text.after?, first]
        simp only [Ending.lengthened, dotLead, List.cons_append, still]

private theorem text_below {uri : Uri} (closed : uri.text.getLast? ≠ some '/') :
    uri.below.text = uri.text ++ generatedName := by
  have longer := uri.ending.text_lengthened generatedName
  cases same : uri.authority with
  | some authority =>
    have same' : uri.below.authority = some authority := same
    rw [text_of_authority same', text_of_authority same, ending_below, longer]
    simp [below, assembled]
  | none =>
    have same' : uri.below.authority = none := same
    have lead : dotLead uri.below.path = dotLead uri.path := dotLead_lengthened (ending_closed closed)
    rw [text_of_bare same', text_of_bare same, ending_below, longer, lead]
    simp [below, assembled]

/-! ## Normal URIs -/

private theorem generated_of_closed {document : Uri} (closed : document.text.getLast? ≠ some '/') :
    document.generated = (parse (String.ofList (document.text ++ generatedName))).map normalize := by
  have kept : Text.dropEndWhile (· == '/') document.text = document.text := by
    refine dropEndWhile_of_last fun c last => ?_
    rw [beq_eq_false_iff_ne]
    rintro rfl
    exact closed last
  have joined : generatedText document = String.ofList (document.text ++ generatedName) := by
    rw [generatedText, kept, String.ofList_append]
    rfl
  rw [generated, joined]

private theorem normal_cases {uri : Uri} (fixed : uri.normalize = uri) :
    (∃ error, parse (String.ofList (decodeColons uri.text)) = .error error) ∧ withLowerDrive uri = uri ∨
      ∃ found, parse (String.ofList (decodeColons uri.text)) = .ok found ∧ withLowerDrive found = uri := by
  simp only [normalize] at fixed
  cases parsed : parse (String.ofList (decodeColons uri.text)) with
  | error error =>
    rw [parsed] at fixed
    exact .inl ⟨⟨error, rfl⟩, fixed⟩
  | ok found =>
    rw [parsed] at fixed
    exact .inr ⟨found, rfl, fixed⟩

private theorem decodeColons_generatedName (text : List Char) :
    decodeColons (text ++ generatedName) = decodeColons text ++ generatedName :=
  decodeColons_append text '/' (by decide) (show '%' ∉ "readme.md".toList by decide)

private theorem normalize_below {uri : Uri} (closed : uri.text.getLast? ≠ some '/')
    (lowered : lowerDrive uri.path = uri.path)
    (only : ∀ found, parse (String.ofList (decodeColons uri.text ++ generatedName)) = .ok found → found = uri.below) :
    uri.below.normalize = uri.below := by
  have still : withLowerDrive uri.below = uri.below :=
    withLowerDrive_of_same (lowerDrive_lengthened lowered (ending_closed closed))
  rw [normalize, text_below closed, decodeColons_generatedName]
  cases parsed : parse (String.ofList (decodeColons uri.text ++ generatedName)) with
  | error error => exact still
  | ok found =>
    rw [only found parsed]
    exact still

/-- A URI that a text with decoded colons leads to has lost nothing by the decoding. -/
theorem ending_of_decoded {uri : Uri} {authority : Option Authority} {other : Ending}
    (lower : withLowerDrive (assembled uri.scheme authority other) =
      assembled uri.scheme authority { other with path := lowerDrive other.path })
    (found : withLowerDrive (assembled uri.scheme authority other) = uri) (decoded : Decoded uri.path other.path) :
    authority = uri.authority ∧ other = uri.ending ∧ lowerDrive uri.path = uri.path := by
  have parts := lower.symm.trans found
  have path : lowerDrive other.path = uri.path := congrArg Uri.path parts
  have same : other.path = uri.path := decoded.eq_of_length (Nat.le_of_eq (by rw [← path, length_lowerDrive]))
  refine ⟨congrArg Uri.authority parts, ?_, by rw [← path, lowerDrive_lowerDrive]⟩
  have query : other.query = uri.query := congrArg Uri.query parts
  have fragment : other.fragment = uri.fragment := congrArg Uri.fragment parts
  obtain ⟨otherPath, otherQuery, otherFragment⟩ := other
  simp only at same query fragment
  rw [ending, same, query, fragment]

/-! ## The generated configuration of a normal URI -/

/-- What is to show of a normal URI whose text does not end in a slash: its generated configuration is named by the
longer text, and is normal, too. -/
def NamesBelow (uri : Uri) : Prop :=
  ∀ configuration, uri.generated = .ok configuration → configuration = uri.below ∧ uri.below.normalize = uri.below

/-- It is enough to know what the longer text leads to, before and after its colons are decoded. -/
theorem namesBelow_of_parse {uri : Uri} (closed : uri.text.getLast? ≠ some '/')
    (named : ∀ found, parse (String.ofList (uri.text ++ generatedName)) = .ok found → found = uri.below)
    (normal : (∃ found, parse (String.ofList (uri.text ++ generatedName)) = .ok found) → uri.below.normalize = uri.below) :
    NamesBelow uri := by
  intro configuration made
  rw [generated_of_closed closed] at made
  cases parsed : parse (String.ofList (uri.text ++ generatedName)) with
  | error error =>
    rw [parsed] at made
    cases made
  | ok found =>
    rw [parsed] at made
    obtain rfl := Except.ok.inj made
    rw [named found parsed, normal ⟨found, parsed⟩]
    exact ⟨rfl, rfl⟩

private theorem namesBelow_hosted {uri : Uri} {authority : Authority} (good : IsAuthority uri.scheme authority)
    (scheme : IsScheme uri.scheme) (free : uri.kind ≠ .file) (same : uri.authority = some authority)
    (path : IsPath uri.kind uri.path) (encoded : uri.ending.Encoded uri.kind) (fixed : uri.normalize = uri)
    (closed : uri.text.getLast? ≠ some '/') : NamesBelow uri := by
  obtain ⟨site, writes⟩ := Site.exists_writes good
  have text := text_of_site writes same
  -- the decoded text has the same form
  obtain ⟨other, ending, decodedText, legible', resembles, hosts, paths, encoded', endings⟩ :=
    decoded_site writes scheme same path encoded
  have path' : IsPath uri.kind ending.path := path.decoded paths
  have named : kindOf uri.scheme ≠ .other → site.host ≠ [] := fun special => writes.host ▸ good.named special
  have named' : kindOf uri.scheme ≠ .other → other.host ≠ [] :=
    fun special empty => named special (hosts.nil_iff.mp empty)
  have read := parse_site scheme free legible' named' path' encoded'
  rw [← decodedText] at read
  -- whatever the decoded text leads to, nothing was lost
  have settled : ∀ found, other.read uri.scheme = .ok found →
      found = authority ∧ ending = uri.ending ∧ lowerDrive uri.path = uri.path := by
    intro found done
    have parsed : parse (String.ofList (decodeColons uri.text)) = .ok (assembled uri.scheme (some found) ending) := by
      rw [read, done]
      rfl
    rcases normal_cases fixed with ⟨⟨error, failed⟩, -⟩ | ⟨result, succeeded, lowered⟩
    · rw [parsed] at failed
      cases failed
    · obtain rfl := Except.ok.inj (parsed.symm.trans succeeded)
      have lower : withLowerDrive (assembled uri.scheme (some found) ending) =
          assembled uri.scheme (some found) { ending with path := lowerDrive ending.path } := by
        rcases path' with walked | ⟨-, empty⟩
        · exact withLowerDrive_of_walked walked
        · have still : lowerDrive ending.path = ending.path := by rw [empty]; rfl
          rw [withLowerDrive_of_same still, still]
      obtain ⟨named, kept, still⟩ := ending_of_decoded lower lowered paths
      exact ⟨Option.some.inj (named.trans same), kept, still⟩
  have lowered : lowerDrive uri.path = uri.path := by
    rcases normal_cases fixed with ⟨-, lowered⟩ | ⟨result, succeeded, -⟩
    · rcases path with walked | ⟨-, empty⟩
      · rw [withLowerDrive_of_walked walked] at lowered
        exact congrArg Uri.path lowered
      · rw [empty]
        rfl
    · rw [read] at succeeded
      cases done : other.read uri.scheme with
      | error error =>
        rw [done] at succeeded
        cases succeeded
      | ok found => exact (settled found done).2.2
  have closed' := ending_closed closed
  have longer := @parse_site _ _ (uri.ending.lengthened generatedName) scheme free writes.legible named
    (isPath_lengthened path closed') (encoded_lengthened encoded)
  have whole : uri.text ++ generatedName =
      uri.scheme ++ ':' :: '/' :: '/' :: (site.text ++ (uri.ending.lengthened generatedName).text) := by
    rw [text, Ending.text_lengthened]
    simp
  rw [← whole] at longer
  have only : ∀ result, site.read uri.scheme = .ok result → result = authority :=
    fun result done => writes.settles good resembles done fun found reads => (settled found reads).1
  refine namesBelow_of_parse closed (fun found parsed => ?_) fun _ => normalize_below closed lowered fun found parsed => ?_
  · rw [longer] at parsed
    cases done : site.read uri.scheme with
    | error error =>
      rw [done] at parsed
      cases parsed
    | ok result =>
      rw [done] at parsed
      obtain rfl := Except.ok.inj parsed
      rw [only result done, below, same]
  · have closed'' : ending.text.getLast? ≠ some '/' := fun last => closed' (endings.last last)
    have longer' := @parse_site _ _ (ending.lengthened generatedName) scheme free legible' named'
      (isPath_lengthened path' closed'') (encoded_lengthened encoded')
    have whole' : decodeColons uri.text ++ generatedName =
        uri.scheme ++ ':' :: '/' :: '/' :: (other.text ++ (ending.lengthened generatedName).text) := by
      rw [decodedText, Ending.text_lengthened]
      simp
    rw [whole', longer'] at parsed
    cases done : other.read uri.scheme with
    | error error =>
      rw [done] at parsed
      cases parsed
    | ok result =>
      rw [done] at parsed
      obtain rfl := Except.ok.inj parsed
      obtain ⟨rfl, rfl, -⟩ := settled result done
      rw [below, same]

/-- Where nothing is decoded, it is enough to know what the longer text leads to. -/
theorem namesBelow_of_still {uri : Uri} (closed : uri.text.getLast? ≠ some '/')
    (lowered : lowerDrive uri.path = uri.path) (still : decodeColons uri.text = uri.text)
    (named : ∀ found, parse (String.ofList (uri.text ++ generatedName)) = .ok found → found = uri.below) :
    NamesBelow uri :=
  namesBelow_of_parse closed named fun _ => normalize_below closed lowered (by rw [still]; exact named)

private theorem namesBelow_rooted {uri : Uri} (scheme : IsScheme uri.scheme) (other : uri.kind = .other)
    (bare : uri.authority = none) (path : IsWalked .other uri.path) (encoded : uri.ending.Encoded .other)
    (fixed : uri.normalize = uri) (closed : uri.text.getLast? ≠ some '/') : NamesBelow uri := by
  have text := text_of_bare bare
  obtain ⟨ending, decodedText, paths, encoded'⟩ := decoded_rooted scheme bare encoded
  have read := parse_rooted scheme other (path.decoded paths) encoded'
  rw [← decodedText] at read
  obtain ⟨kept, lowered⟩ : ending = uri.ending ∧ lowerDrive uri.path = uri.path := by
    rcases normal_cases fixed with ⟨⟨error, failed⟩, -⟩ | ⟨result, succeeded, lowered⟩
    · rw [read] at failed
      cases failed
    · obtain rfl := Except.ok.inj (read.symm.trans succeeded)
      have walked : IsWalked (assembled uri.scheme none ending).kind ending.path := other ▸ path.decoded paths
      exact (ending_of_decoded (withLowerDrive_of_walked walked) lowered paths).2
  subst kept
  have closed' := ending_closed closed
  refine namesBelow_of_still closed lowered (decodedText.trans text.symm) fun found parsed => ?_
  have whole : uri.text ++ generatedName = uri.scheme ++ ':' ::
      (dotLead (uri.ending.lengthened generatedName).path ++ (uri.ending.lengthened generatedName).text) := by
    rw [text, Ending.text_lengthened, dotLead_lengthened closed']
    simp [ending]
  rw [whole, parse_rooted scheme other (isWalked_lengthened path closed') (encoded_lengthened encoded)] at parsed
  obtain rfl := Except.ok.inj parsed
  rw [below, bare]

private theorem namesBelow_flat {uri : Uri} (scheme : IsScheme uri.scheme) (other : uri.kind = .other)
    (bare : uri.authority = none) (path : IsOpaquePath uri.path) (encoded : uri.ending.Encoded .other)
    (fixed : uri.normalize = uri) (closed : uri.text.getLast? ≠ some '/') : NamesBelow uri := by
  have text := text_of_flat bare path.start
  obtain ⟨ending, decodedText, paths, encoded'⟩ := decoded_flat scheme bare path.start encoded
  have path' := path.decoded paths
  have read := parse_flat scheme other path' encoded'
  rw [← decodedText] at read
  -- the path is not shorter than it was, so no space was lost at its end
  obtain ⟨kept, whole⟩ : ending = uri.ending ∧
      (if ending.tail = [] then Text.dropEndWhile isPadding ending.path else ending.path) = ending.path := by
    rcases normal_cases fixed with ⟨⟨error, failed⟩, -⟩ | ⟨result, succeeded, lowered⟩
    · rw [read] at failed
      cases failed
    · obtain rfl := Except.ok.inj (read.symm.trans succeeded)
      have shorter : (if ending.tail = [] then Text.dropEndWhile isPadding ending.path else ending.path) <+:
          ending.path := by
        split
        · exact dropEndWhile_prefix isPadding ending.path
        · exact List.prefix_rfl
      generalize (if ending.tail = [] then Text.dropEndWhile isPadding ending.path else ending.path) = front at *
      have start : ∀ rest, front ≠ '/' :: rest := (path'.left shorter).start
      rw [withLowerDrive_of_same (lowerDrive_of_start start)] at lowered
      have same : front = uri.path := congrArg Uri.path lowered
      have query : ending.query = uri.query := congrArg Uri.query lowered
      have fragment : ending.fragment = uri.fragment := congrArg Uri.fragment lowered
      have long := paths.length_le
      rw [← same] at long
      have whole : front = ending.path := shorter.eq_of_length (Nat.le_antisymm shorter.length_le long)
      refine ⟨?_, whole⟩
      obtain ⟨otherPath, otherQuery, otherFragment⟩ := ending
      simp only at whole query fragment
      rw [Uri.ending, ← whole, same, query, fragment]
  subst kept
  have closed' := ending_closed closed
  have lowered : lowerDrive uri.path = uri.path := lowerDrive_of_start path.start
  refine namesBelow_of_still closed lowered (decodedText.trans text.symm) fun found parsed => ?_
  have walkedText : uri.text ++ generatedName = uri.scheme ++ ':' :: (uri.ending.lengthened generatedName).text := by
    rw [text, Ending.text_lengthened]
    simp
  have encodedText := encoded_lengthened encoded
  rw [walkedText] at parsed
  rcases uri.ending.lengthened_cases generatedName with ⟨same, tail⟩ | ⟨longer, tail⟩
  · have free : IsOpaquePath (uri.ending.lengthened generatedName).path := by
      rw [same]
      exact path
    rw [parse_flat scheme other free encodedText, if_neg tail] at parsed
    obtain rfl := Except.ok.inj parsed
    rw [below, bare]
  · by_cases empty : uri.path = []
    · -- behind nothing the name becomes a path of its own
      have walked : IsWalked .other (uri.ending.lengthened generatedName).path :=
        isWalked_of_append (.inr ⟨rfl, empty⟩) (by rw [ending, empty]; simp) longer
      have lead : dotLead (uri.ending.lengthened generatedName).path = [] := by
        rw [dotLead_lengthened closed']
        exact dotLead_of_start path.start
      have rooted := parse_rooted scheme other walked encodedText
      rw [lead, List.nil_append] at rooted
      rw [rooted] at parsed
      obtain rfl := Except.ok.inj parsed
      rw [below, bare]
    · have free : IsOpaquePath (uri.ending.lengthened generatedName).path := by
        rw [longer]
        exact path.append_generatedName empty
      have last : Text.dropEndWhile isPadding (uri.ending.lengthened generatedName).path =
          (uri.ending.lengthened generatedName).path := by
        refine dropEndWhile_of_last fun c final => ?_
        rw [longer, List.getLast?_append] at final
        obtain rfl := Option.some.inj final
        decide
      rw [parse_flat scheme other free encodedText, if_pos tail, last] at parsed
      obtain rfl := Except.ok.inj parsed
      rw [below, bare]

/-- Where the URI of a file is normal, decoding changed nothing in its ending. -/
theorem file_settled {uri : Uri} {ending : Ending} {after host : List Char} (slash : ending.path = '/' :: after)
    (letters : ∀ c ∈ after, PathChar .file c) (encoded : ending.Encoded .file) (paths : Decoded uri.path ending.path)
    (lowered : withLowerDrive (fileBehind host ending.text) = uri) :
    ∃ segment more, uri.ending.path = slashed (segment :: more) ∧ (∀ other ∈ segment :: more, Segment .file other) ∧
      SingleSlash .file segment more ∧ fixDrive .file segment = segment ∧ lowerDrive uri.path = uri.path ∧
        ending = uri.ending ∧ uri.authority = some (if isDrive segment then noHost else hostOnly host) := by
  obtain ⟨site, front, shape, walked⟩ := fileBehind_chars slash letters encoded host
  have parts : assembled fileScheme site { ending with path := lowerDrive front } = uri := by
    have lower := @withLowerDrive_of_walked (assembled fileScheme site { ending with path := front }) walked
    exact lower.symm.trans ((congrArg withLowerDrive shape).symm.trans lowered)
  have lower : lowerDrive front = uri.path := congrArg Uri.path parts
  have walkedPath : IsWalked .file uri.path := lower ▸ isWalked_lowerDrive walked
  obtain ⟨segment, more, path, good, single⟩ := walkedPath.decoded paths
  have again := shape.symm.trans (fileBehind_segments path good single encoded host)
  have front' : front = slashed (fixDrive .file segment :: more) := congrArg Uri.path again
  have long : uri.path.length ≤ ending.path.length := by
    rw [← lower, length_lowerDrive, front', path]
    simp [length_fixDrive]
  have settled := paths.eq_of_length long
  have path' : uri.ending.path = slashed (segment :: more) := settled.symm.trans path
  refine ⟨segment, more, path', good, single, ?_, by rw [← lower, lowerDrive_lowerDrive], ?_, ?_⟩
  · have still : lowerDrive (slashed (fixDrive .file segment :: more)) = slashed (segment :: more) := by
      rw [← front', lower]
      exact path'
    exact fixDrive_of_lowered still
  · have query : ending.query = uri.query := congrArg Uri.query parts
    have fragment : ending.fragment = uri.fragment := congrArg Uri.fragment parts
    obtain ⟨otherPath, otherQuery, otherFragment⟩ := ending
    simp only at settled query fragment
    rw [Uri.ending, settled, query, fragment]
  · rw [← parts]
    exact congrArg Uri.authority again

private theorem namesBelow_file {uri : Uri} {host : List Char} (named : IsHost .file host)
    (scheme : uri.scheme = fileScheme)
    (authority : uri.authority = some (hostOnly host))
    (path : ∃ rest, uri.path = '/' :: rest ∧ ∀ c ∈ rest, PathChar .file c) (encoded : uri.ending.Encoded .file)
    (fixed : uri.normalize = uri) (closed : uri.text.getLast? ≠ some '/') : NamesBelow uri := by
  obtain ⟨rest, slash, letters⟩ := path
  have text := text_of_file scheme authority
  obtain ⟨ending, after, decodedText, paths, encoded', slash', letters'⟩ :=
    decoded_file named scheme authority slash letters encoded
  have same : uri.ending.path = '/' :: rest := slash
  have start : ∀ {other : Ending} {letters : List Char}, other.path = '/' :: letters →
      other.text = '/' :: (letters ++ other.tail) := by
    intro other letters path
    rw [Ending.text, path]
    rfl
  have read := parse_file named (not_padding_of_pathChars encoded' letters')
  rw [← start slash', ← decodedText] at read
  have closed' := ending_closed closed
  have longer : uri.text ++ generatedName =
      fileScheme ++ ':' :: '/' :: '/' :: (host ++ '/' :: (rest ++ uri.ending.tail ++ generatedName)) := by
    rw [text, start same]
    simp
  have spacelessLonger : ∀ c ∈ rest ++ uri.ending.tail ++ generatedName, isPadding c = false := by
    intro c member
    rcases List.mem_append.mp member with front | name
    · exact not_padding_of_pathChars encoded letters c front
    · exact forall_mem_of_all (show (generatedName.all fun d => decide (isPadding d = false)) = true by decide) c name
  have readLonger := parse_file named spacelessLonger
  rw [← longer] at readLonger
  have lengthenedText : '/' :: (rest ++ uri.ending.tail ++ generatedName) = (uri.ending.lengthened generatedName).text := by
    rw [Ending.text_lengthened, start same]
    simp
  rw [lengthenedText] at readLonger
  cases found : fileNamed host with
  | error error =>
    rw [found] at readLonger
    refine namesBelow_of_parse closed (fun found parsed => ?_) ?_
    · cases readLonger.symm.trans parsed
    · rintro ⟨found, parsed⟩
      cases readLonger.symm.trans parsed
  | ok known =>
    rw [found] at read readLonger
    rcases normal_cases fixed with ⟨⟨error, failed⟩, -⟩ | ⟨result, succeeded, lower⟩
    · cases read.symm.trans failed
    · obtain rfl := Except.ok.inj (read.symm.trans succeeded)
      obtain ⟨segment, more, path, good, single, still, lowered, kept, site⟩ :=
        file_settled slash' letters' encoded' paths lower
      subst kept
      refine namesBelow_of_still closed lowered (decodedText.trans text.symm) fun result parsed => ?_
      obtain rfl := Except.ok.inj (readLonger.symm.trans parsed)
      obtain ⟨more', path', good', single'⟩ := lengthened_segments path good single closed'
      have whole := fileBehind_segments path' good' single' (encoded_lengthened encoded) known
      rw [still, ← path'] at whole
      rw [below, site, scheme]
      exact whole

/-- The generated configuration of a normal URI whose text does not end in a slash. -/
theorem namesBelow_of_normal {uri : Uri} (legible : Legible uri) (fixed : uri.normalize = uri)
    (closed : uri.text.getLast? ≠ some '/') : NamesBelow uri := by
  cases legible with
  | file host named scheme authority path shape encoded =>
    obtain ⟨_, read⟩ := named
    exact namesBelow_file (isHost_of_fileNamed read) scheme authority path encoded fixed closed
  | hosted authority good scheme free same path encoded =>
    exact namesBelow_hosted good scheme free same path encoded fixed closed
  | rooted scheme other bare path encoded => exact namesBelow_rooted scheme other bare path encoded fixed closed
  | flat scheme other bare path encoded => exact namesBelow_flat scheme other bare path encoded fixed closed

/-- Different normal URIs whose texts do not end in a slash have different generated configurations. -/
theorem generated_injective {first second configuration : Uri} (legible : Legible first) (legible' : Legible second)
    (fixed : first.normalize = first) (fixed' : second.normalize = second) (closed : first.text.getLast? ≠ some '/')
    (closed' : second.text.getLast? ≠ some '/') (made : first.generated = .ok configuration)
    (made' : second.generated = .ok configuration) : first = second := by
  obtain ⟨named, -⟩ := namesBelow_of_normal legible fixed closed configuration made
  obtain ⟨named', -⟩ := namesBelow_of_normal legible' fixed' closed' configuration made'
  exact below_injective (named.symm.trans named')

/-- The configuration generated for a normal URI whose text does not end in a slash is normal. -/
theorem normalize_generated {uri configuration : Uri} (legible : Legible uri) (fixed : uri.normalize = uri)
    (closed : uri.text.getLast? ≠ some '/') (made : uri.generated = .ok configuration) :
    configuration.normalize = configuration := by
  obtain ⟨rfl, normal⟩ := namesBelow_of_normal legible fixed closed configuration made
  exact normal

theorem generated_ne {uri : Uri} (legible : Legible uri) (fixed : uri.normalize = uri)
    (closed : uri.text.getLast? ≠ some '/') : uri.generated ≠ .ok uri := by
  intro made
  obtain ⟨named, -⟩ := namesBelow_of_normal legible fixed closed uri made
  exact below_ne uri named.symm

end SpecServer.Uri
