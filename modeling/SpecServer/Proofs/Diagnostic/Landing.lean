import SpecServer.Diagnostic.Route
import SpecServer.Proofs.Engine.References
import SpecServer.Proofs.Rules
import SpecServer.Proofs.Uri.Settled
set_option autoImplicit false

/-!
Where findings are shown. The engine counts lines from one and names the document by the text of its URI; the route back
to the editor takes both apart again. Together they change nothing: a finding at a node is shown where the node was located
in the text, in the document that the engine was given.
-/

namespace SpecServer

/-! ## Places in a text -/

private theorem Text.line_add_character_foldl (passed : List Char) (place : Position) :
    (passed.foldl Position.advance place).line + (passed.foldl Position.advance place).character ≤
      place.line + place.character + passed.length := by
  induction passed generalizing place with
  | nil => exact Nat.le_refl _
  | cons c rest ih =>
    have step : (place.advance c).line + (place.advance c).character ≤ place.line + place.character + 1 := by
      rw [Position.advance]
      split
      · show place.line + 1 + 0 ≤ _
        omega
      · exact Nat.le_refl _
    rw [List.foldl_cons, List.length_cons]
    exact Nat.le_trans (ih (place.advance c)) (by omega)

private theorem Text.line_add_character_after (passed : List Char) :
    (Position.after passed).line + (Position.after passed).character ≤ passed.length := by
  have counted := line_add_character_foldl passed .start
  simp only [Position.start, Nat.zero_add] at counted
  exact counted

private theorem Locate.place?_within {text : String} {path : Path} {found : Option Text.Position}
    (located : place? text path = some found) :
    (found.getD .start).line + (found.getD .start).character ≤ text.length := by
  by_cases keyed : path.filterMap keyOf? = []
  · rw [place?, keyed] at located
    cases located
    exact Nat.zero_le _
  · rw [place?_eq text keyed] at located
    obtain ⟨result, -, rfl⟩ := Option.map_eq_some_iff.mp located
    cases result with
    | none => exact Nat.zero_le _
    | some spot =>
      have passed := Text.line_add_character_after (text.toList.take spot)
      rw [List.length_take, String.length_toList] at passed
      exact Nat.le_trans passed (Nat.min_le_right _ _)

/-! ## The nodes that findings are about -/

/-- Whether no key within a document is empty. -/
def Json.Keyed (document : Json) : Prop :=
  ∀ path : Path, path.Straight document → .key "" ∉ path

/-- How wide the key at the end of a path is; the root counts as one character. -/
inductive Path.Wide : Path → Nat → Prop
  | root : Wide Path.root 1
  | key (above : Path) (name : String) : Wide (above.key name) name.length

private theorem Json.Keyed.of_leads {node : Json}
    (each : ∀ segment child, node.Leads segment child → segment ≠ .key "" ∧ child.Keyed) : node.Keyed := by
  intro path straight
  cases straight with
  | root => exact List.not_mem_nil
  | down segment rest _ child leads further =>
    obtain ⟨named, keyed⟩ := each segment child leads
    exact List.not_mem_cons_of_ne_of_not_mem named.symm (keyed rest further)

variable {σ : Type} {source : Source σ} {document node : Json} {path : Path} {text : String} {input uri : Uri}
  {externals : Reference.Externals} {s : σ} {message : Message}

/-- The messages that an input may cause, with the nodes they are about: it does not say which format it follows, it
breaks a rule at a node, or a reference leads nowhere. -/
inductive Input.Finding (input : Uri) (text : String) (document : Json) : Path → Message → Prop
  | formatless (unnamed : Literate.namesFormat document = false) :
      Finding input text document Path.root (formatless input text)
  | rule (violation : Violation) (broken : violation ∈ Rule.violations document) :
      Finding input text document violation.path (ruleMessage input text violation)
  | reference (path : Path) (reference : String) (stands : Reference.Stands document path reference) :
      Finding input text document path (Reference.dangling input text path reference)

private theorem Input.Finding.straight (finding : Finding input text document path message)
    (ordered : document.Ordered) :
    path.Straight document ∧ ∃ width, path.Wide width := by
  cases finding with
  | formatless => exact ⟨.root _, _, .root⟩
  | rule violation broken =>
    obtain ⟨node, offence⟩ := Rule.offence_of_mem ordered broken
    obtain ⟨above, name, same⟩ := offence.named
    exact ⟨offence.reached.1, name.length, same ▸ Path.Wide.key above name⟩
  | reference _ _ stands =>
    obtain ⟨⟨above, same⟩, straight, -⟩ := stands
    exact ⟨straight, "$ref".length, same ▸ Path.Wide.key above "$ref"⟩

private theorem Input.Finding.placed (finding : Finding input text document path message) :
    message.ranges = (rangeOf input text path).toList ∧ message.endless = (rangeOf input text path).isNone := by
  cases finding <;> exact ⟨rfl, rfl⟩

private theorem Input.Finding.channel (finding : Finding input text document path message) :
    message.channel = .warning ∨ message.channel = .error := by
  cases finding with
  | formatless | rule => exact .inl rfl
  | reference => exact .inr rfl

private theorem Path.lastKey?_key (above : Path) (name : String) : (above.key name).lastKey? = some name := by
  simp only [lastKey?, key, List.getLast?_concat]

private theorem Path.Wide.eq {width : Nat} (wide : path.Wide width) :
    (path.lastKey?.map String.length).getD 1 = width := by
  cases wide with
  | root => rfl
  | key above name => rw [lastKey?_key, Option.map_some, Option.getD_some]

private theorem Path.Wide.pos {width : Nat} (wide : path.Wide width) (keyed : document.Keyed)
    (straight : path.Straight document) : 0 < width := by
  cases wide with
  | root => exact Nat.one_pos
  | key above name =>
    refine Nat.pos_of_ne_zero fun empty => ?_
    rw [String.length_eq_zero_iff.mp empty] at straight
    exact keyed _ straight (List.mem_append_right _ (List.mem_singleton_self _))

/-! ## The messages about an input -/

private theorem Reference.mem_checkAll {references : List (Path × String)}
    (member : message ∈ (checkAll source input text document references externals s).1) :
    ∃ path reference, (path, reference) ∈ references ∧ message = dangling input text path reference := by
  induction references generalizing externals s with
  | nil => exact absurd member List.not_mem_nil
  | cons first rest ih =>
    obtain ⟨path, reference⟩ := first
    have later : message ∈ (checkAll source input text document rest
        (resolves source input document reference externals s).2.1
        (resolves source input document reference externals s).2.2).1 →
        ∃ below other, (below, other) ∈ (path, reference) :: rest ∧ message = dangling input text below other := by
      intro further
      obtain ⟨below, other, among, same⟩ := ih further
      exact ⟨below, other, List.mem_cons_of_mem _ among, same⟩
    simp only [checkAll] at member
    split at member
    · exact later member
    · rcases List.mem_cons.mp member with same | further
      · exact ⟨path, reference, List.mem_cons_self, same⟩
      · exact later further

private theorem Input.finding_of_mem {validate : Bool} (ordered : document.Ordered)
    (member : message ∈ check input text document validate ++
      (Reference.check source input text document externals s).1) :
    ∃ path, Finding input text document path message := by
  rcases List.mem_append.mp member with own | other
  · rcases List.mem_append.mp own with first | second
    · split at first
      · exact absurd first List.not_mem_nil
      next unnamed =>
        obtain rfl := List.mem_singleton.mp first
        exact ⟨_, .formatless (Bool.not_eq_true _ ▸ unnamed)⟩
    · split at second
      · obtain ⟨violation, broken, rfl⟩ := List.mem_map.mp second
        exact ⟨_, .rule violation broken⟩
      · exact absurd second List.not_mem_nil
  · obtain ⟨path, reference, among, rfl⟩ := Reference.mem_checkAll other
    obtain ⟨below, same, stands⟩ := (Reference.mem_collect ordered Path.root path).mp among
    obtain rfl : path = below := same
    exact ⟨path, .reference path reference stands⟩

/-! ## The way to the editor -/

namespace Route

attribute [local irreducible] Uri.normalize

private theorem isOk_parse_render {address : String} (parsed : Uri.parse address = .ok uri) (file : uri.kind = .file)
    (hostless : uri.authority = some Uri.noHost) : (Uri.parse uri.render).isOk = true := by
  cases Uri.legible_parse parsed with
  | file host named scheme authority path shape encoded =>
    obtain rfl : host = [] := congrArg Authority.host (Option.some.inj (authority.symm.trans hostless))
    obtain ⟨rest, slash, letters⟩ := path
    have start : uri.ending.text = '/' :: (rest ++ uri.ending.tail) := by
      rw [Ending.text, show uri.ending.path = '/' :: rest from slash]
      rfl
    rw [Uri.render, Uri.text_of_file scheme authority, start,
      Uri.parse_file (Uri.isHost_nil .file) (Uri.not_padding_of_pathChars encoded letters)]
    rfl
  | hosted _ _ _ free => exact absurd file free
  | rooted _ other | flat _ other => exact absurd (file.symm.trans other) (by decide)

/-- The text of a normal URI leads to the document it stands for, if it can be parsed. -/
theorem documentOf?_render {address : String} (parsed : Uri.parse address = .ok uri) (normal : uri.normalize = uri)
    (unslashed : uri.text.getLast? ≠ some '/') {range : SourceRange} (named : range.document = uri.render) :
    documentOf? range = if (Uri.parse uri.render).isOk then some uri else none := by
  have trimmed : Text.dropEndWhile (· == '/') uri.text = uri.text := by
    refine Uri.dropEndWhile_of_last fun c last => ?_
    refine beq_eq_false_iff_ne.mpr fun slash => ?_
    exact unslashed (slash ▸ last)
  have read : documentOf? range = (Uri.parse uri.render).toOption.map Uri.normalize := by
    simp only [documentOf?, named, Uri.render, String.toList_ofList, trimmed]
  rw [read]
  cases again : Uri.parse uri.render with
  | error error => rfl
  | ok found =>
    have settled : uri.Settled := normal ▸ Uri.settled_normalize parsed
    rw [settled.again found again]
    exact congrArg some normal

/-- A finding with one range becomes one diagnostic of the document that the range names. -/
theorem destination_of_finding {address : String} (parsed : Uri.parse address = .ok uri) (normal : uri.normalize = uri)
    (unslashed : uri.text.getLast? ≠ some '/') {range : SourceRange} (named : range.document = uri.render)
    (ranges : message.ranges = [range]) (channel : message.channel = .warning ∨ message.channel = .error)
    (chosen : InformationSeverity) : ∃ diagnostic : Diagnostic, diagnostic.span = spanOf range ∧
      destination message chosen = .diagnostics (if (Uri.parse uri.render).isOk then [(uri, diagnostic)] else []) := by
  have serious : ∃ severity, severity? message.channel chosen = some severity := by
    rcases channel with same | same
    · exact ⟨.warning, by rw [same]; rfl⟩
    · exact ⟨.error, by rw [same]; rfl⟩
  obtain ⟨severity, same⟩ := serious
  refine ⟨⟨spanOf range, some severity, some ("/".intercalate message.key), message.text ++ moreInfo message⟩, rfl, ?_⟩
  simp only [destination, same, ranges, List.filterMap_cons, List.filterMap_nil, diagnostic?]
  rw [documentOf?_render parsed normal unslashed named]
  cases (Uri.parse uri.render).isOk with
  | false => rfl
  | true => rfl

private theorem spanOf_rangeOf (uri : Uri) {width : Nat} (wide : path.Wide width) {found : Option Text.Position}
    (located : Locate.place? text path = some found) :
    ∃ range, Input.rangeOf uri text path = some range ∧ range.document = uri.render ∧ spanOf range =
      ⟨found.getD .start, ⟨(found.getD .start).line, (found.getD .start).character + width⟩⟩ := by
  rw [Input.rangeOf, located, wide.eq]
  exact ⟨_, rfl, rfl, by simp only [spanOf, Nat.add_sub_cancel]⟩

/-- Each message about an input is about a node of its document, and it comes about and is shown as one diagnostic of that
document, if the text of its URI can be parsed, as that of a file without a host always can: where the node was located, on
one line, and as wide as the last key of its path. -/
theorem findings_land {address : String} (parsed : Uri.parse address = .ok uri) (normal : uri.normalize = uri)
    (unslashed : uri.text.getLast? ≠ some '/') (ordered : document.Ordered) (keyed : document.Keyed) (text : String)
    (validate : Bool) (source : Source σ) (externals : Reference.Externals) (s : σ) (chosen : InformationSeverity) :
    (∀ message ∈ Input.check uri text document validate ++ (Reference.check source uri text document externals s).1,
      ∃ path, Input.Finding uri text document path message) ∧
    (uri.kind = .file → uri.authority = some Uri.noHost → (Uri.parse uri.render).isOk = true) ∧
    ∀ path message, Input.Finding uri text document path message →
      path.Straight document ∧ message.endless = false ∧ ∃ found width diagnostic,
        Locate.place? text path = some found ∧ path.Wide width ∧ 0 < width ∧
        destination message chosen =
          .diagnostics (if (Uri.parse uri.render).isOk then [(uri, diagnostic)] else []) ∧
        diagnostic.span.start = found.getD .start ∧
        diagnostic.span.stop = ⟨diagnostic.span.start.line, diagnostic.span.start.character + width⟩ ∧
        (text.length + width < 2 ^ 32 →
          diagnostic.span.start.line + 1 < 2 ^ 32 ∧ diagnostic.span.stop.character < 2 ^ 32) := by
  refine ⟨fun message member => Input.finding_of_mem ordered member, isOk_parse_render parsed, ?_⟩
  intro path message finding
  obtain ⟨straight, width, wide⟩ := finding.straight ordered
  obtain ⟨found, located⟩ := Option.ne_none_iff_exists'.mp (Locate.place?_ne_none text (keyed path straight))
  obtain ⟨range, placed, named, span⟩ := spanOf_rangeOf uri wide located
  obtain ⟨ranges, endless⟩ := finding.placed
  rw [placed] at ranges endless
  obtain ⟨diagnostic, shown, goes⟩ :=
    destination_of_finding parsed normal unslashed named ranges finding.channel chosen
  rw [span] at shown
  have pos := wide.pos keyed straight
  refine ⟨straight, endless, found, width, diagnostic, located, wide, pos, goes, ?_, ?_, fun small => ?_⟩
  · rw [shown]
  · rw [shown]
  · have within := Locate.place?_within located
    simp only [shown]
    omega

/-- A document that refers to nothing. -/
def strayDocument : Json := .object [("$ref", .string "#/b")]

private theorem keyed_strayDocument : strayDocument.Keyed := by
  apply Json.Keyed.of_leads
  intro segment child leads
  cases leads with
  | key _ name child found =>
    simp only [Entries.get?, Option.ite_none_right_eq_some, Option.some.injEq] at found
    obtain ⟨rfl, rfl⟩ := found
    refine ⟨by decide, Json.Keyed.of_leads ?_⟩
    intro _ _ below
    cases below

theorem findings_land_sample :
    let uri := Reference.workFile "a.json"
    let text := "\x7b\"$ref\": \"#/b\"\x7d"
    Uri.parse "file:///work/a.json" = .ok uri ∧ uri.normalize = uri ∧ uri.text.getLast? ≠ some '/' ∧
      strayDocument.Ordered ∧ strayDocument.Keyed ∧
      (∀ message ∈ Input.check uri text strayDocument true ++
          (Reference.check (.ofFunction Reference.emptyObjects) uri text strayDocument [] ()).1,
        ∃ path, Input.Finding uri text strayDocument path message) ∧
      (uri.kind = .file → uri.authority = some Uri.noHost → (Uri.parse uri.render).isOk = true) ∧
      ∀ path message, Input.Finding uri text strayDocument path message →
        path.Straight strayDocument ∧ message.endless = false ∧ ∃ found width diagnostic,
          Locate.place? text path = some found ∧ path.Wide width ∧ 0 < width ∧
          destination message .warning =
            .diagnostics (if (Uri.parse uri.render).isOk then [(uri, diagnostic)] else []) ∧
          diagnostic.span.start = found.getD .start ∧
          diagnostic.span.stop = ⟨diagnostic.span.start.line, diagnostic.span.start.character + width⟩ ∧
          (text.length + width < 2 ^ 32 →
            diagnostic.span.start.line + 1 < 2 ^ 32 ∧ diagnostic.span.stop.character < 2 ^ 32) := by
  have read : (Uri.parse "file:///work/a.json").toOption = some (Reference.workFile "a.json") := by decide +kernel
  have parsed := toOption_eq_some.mp read
  have normal : (Reference.workFile "a.json").normalize = Reference.workFile "a.json" := by decide +kernel
  have unslashed : (Reference.workFile "a.json").text.getLast? ≠ some '/' := by decide
  have ordered : strayDocument.Ordered :=
    .object _ (List.pairwise_singleton _ _) (List.forall_mem_singleton.mpr (.string "#/b"))
  exact ⟨parsed, normal, unslashed, ordered, keyed_strayDocument,
    findings_land parsed normal unslashed ordered keyed_strayDocument _ true _ [] () _⟩

end Route

end SpecServer
