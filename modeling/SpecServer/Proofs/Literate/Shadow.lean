import SpecServer.Proofs.Json.Ordering
import SpecServer.Proofs.Json.Reread
import SpecServer.Proofs.Workspace.OpenText
set_option autoImplicit false

/-!
The JSON form of a literate document is the document: it is read back, it names a specification format exactly if the
document does, and this is what saving the document goes by and what it writes.
-/

namespace SpecServer

namespace Literate

variable {text : String} {document : Json}

/-! ## The JSON form -/

/-- Whether a mapping has a key that names a specification format. -/
def NamesFormat (fields : List (String × Json)) : Prop :=
  "swagger" ∈ Entries.keys fields ∨ "openapi" ∈ Entries.keys fields

instance (fields : List (String × Json)) : Decidable (NamesFormat fields) :=
  inferInstanceAs (Decidable (_ ∨ _))

private theorem namesFormat_iff (fields : List (String × Json)) :
    namesFormat (.object fields) = true ↔ NamesFormat fields := by
  have has : ∀ key, ((Json.object fields).field? key).isSome = true ↔ key ∈ Entries.keys fields := by
    intro key
    rw [Option.isSome_iff_ne_none, Ne, Json.field?, Entries.get?_eq_none_iff, not_not]
    rfl
  rw [namesFormat, Bool.or_eq_true, has, has, NamesFormat]

private theorem namesFormat_mapFields (change : Decimal.Binary64 → Decimal.Binary64) (fields : List (String × Json)) :
    NamesFormat (Json.mapFields change fields) ↔ NamesFormat fields := by
  have keys : Entries.keys (Json.mapFields change fields) = Entries.keys fields := by
    rw [Json.mapFields_eq_map, Entries.keys, List.map_map]
    rfl
  rw [NamesFormat, NamesFormat, keys]

private theorem toJson?_eq_some_iff {json : String} :
    toJson? text = some json ↔ ∃ fields, read text = .ok (.object fields) ∧ Json.renderPretty (.object fields) = json := by
  rw [toJson?]
  split
  next fields mapping => simp [mapping]
  next other =>
    simp only [reduceCtorEq, false_iff, not_exists, not_and]
    exact fun fields mapping => absurd mapping (other fields)

private theorem isSpecification_renderPretty {fields : List (String × Json)}
    (back : Json.read (Json.renderPretty (.object fields)) = .ok ((Json.object fields).mapFloats Json.reread)) :
    isSpecification (Json.renderPretty (.object fields)) = true ↔ NamesFormat fields := by
  simp only [isSpecification, back, Json.mapFloats]
  rw [namesFormat_iff, namesFormat_mapFields]

end Literate

/-! ## The disk -/

namespace Disk

private theorem node?_put_self (disk : Disk) {place : Place} (below : place ≠ []) (node : DiskNode) :
    (disk.put place node).node? place = some node := by
  rw [node?, if_neg (by simpa using below)]
  simp [put]

private theorem node?_put_of_ne (disk : Disk) {place other : Place} (apart : other ≠ place) (node : DiskNode) :
    (disk.put place node).node? other = disk.node? other := by
  have kept : ((disk.nodes.filter fun entry => entry.1 ≠ place).find? fun entry => entry.1 == other) =
      disk.nodes.find? fun entry => entry.1 == other := by
    rw [List.find?_filter]
    congr 1
    funext entry
    by_cases here : entry.1 = other
    · simp [here, apart]
    · simp [here]
  rw [node?, node?, put, List.find?_cons_of_neg (by simpa using Ne.symm apart), kept]

/-- A path is walked through folders only, so it leads to a file also after that has been replaced. -/
theorem walk_put {disk : Disk} {place : Place} (file : disk.node? place ≠ some .folder) (node : DiskNode)
    {names : List (List UInt8)} {start : Place} (leads : disk.walk start names = .ok place) :
    (disk.put place node).walk start names = .ok place := by
  induction names generalizing start with
  | nil => exact leads
  | cons name rest ih =>
    rw [walk] at leads ⊢
    split at leads
    next => cases leads
    next => cases leads
    next folder =>
      have apart : start ≠ place := fun same => file (same ▸ folder)
      rw [node?_put_of_ne disk apart, folder]
      simp only
      split at leads
      next => cases leads
      next short =>
        rw [if_neg short]
        exact ih leads

private theorem read_write {disk later : Disk} {path content : List UInt8}
    (writes : disk.write path content = .ok later) :
    later.read path = .ok content := by
  rw [write] at writes
  cases leads : disk.place path with
  | error error => rw [leads] at writes; cases writes
  | ok place =>
    simp only [leads] at writes
    split at writes
    next => cases writes
    next file =>
      cases writes
      have below : place ≠ [] := by
        rintro rfl
        exact file rfl
      have again : (disk.put place (.file content)).place path = .ok place := by
        rw [Disk.place] at leads ⊢
        split at leads
        next => cases leads
        next plain =>
          split at leads
          next => cases leads
          next short =>
            rw [if_neg plain, if_neg short]
            exact walk_put file (.file content) leads
      rw [read, again]
      simp only [node?_put_self disk below]

end Disk

namespace Workspace

/-- Writes the JSON form of a literate specification, if the context of the document asks for it or there is one already. -/
def keepShadow (workspace : Workspace) (uri : Uri) (json : String) : Except WorkspaceError Unit × Workspace :=
  match workspace.resolve uri with
  | (.error error, workspace) => (.error error, workspace)
  | (.ok id, workspace) =>
    let sync := (workspace.registry.get? id).bind syncOf
    match uri.shadowPath? with
    | none => (.ok (), workspace)
    | some path =>
      if shouldWriteShadow sync (workspace.store.disk.exists? path) then workspace.writeShadow path json
      else (.ok (), workspace)

private theorem save_eq {workspace : Workspace} {uri : Uri}
    (literate : uri.normalize.extension?.any Uri.isLiterateExtension = true)
    (text : String) :
    workspace.save uri text = match (Literate.toJson? text).filter Literate.isSpecification with
      | none => (.ok (), workspace)
      | some json => workspace.keepShadow uri.normalize json := by
  unfold save keepShadow
  generalize uri.normalize = document at literate ⊢
  generalize (Literate.toJson? text).filter Literate.isSpecification = form
  generalize resolved : workspace.resolve document = outcome
  cases form with
  | none => simp only [literate, ↓reduceIte]
  | some json =>
    obtain ⟨result, middle⟩ := outcome
    cases result with
    | error error => simp only [literate, resolved, ↓reduceIte]
    | ok id =>
      cases shadow : document.shadowPath? with
      | none => simp only [literate, resolved, shadow, ↓reduceIte]
      | some path => simp only [literate, resolved, shadow, ↓reduceIte]

/-- Whether the JSON form of a document is wanted at a path: what the configuration of its context says decides, and else
whether something is there. -/
def asksShadow (before : Workspace) (uri : Uri) (id : Nat) (path : List UInt8) : Bool :=
  shouldWriteShadow (((before.resolve uri).2.registry.get? id).bind syncOf) (before.store.disk.exists? path)

/-- What saving a literate specification leads to. Only if its JSON form is wanted next to it and can be written the disk
changes, and then the form is what can be read there. -/
inductive Leaves (before : Workspace) (uri : Uri) (json : String) : Except WorkspaceError Unit × Workspace → Prop
  | lost (error : WorkspaceError) (after : Workspace) (fails : (before.resolve uri).1 = .error error)
      (same : after.store.disk = before.store.disk) : Leaves before uri json (.error error, after)
  | spared (id : Nat) (after : Workspace) (finds : (before.resolve uri).1 = .ok id)
      (unasked : ∀ path ∈ uri.shadowPath?, before.asksShadow uri id path = false)
      (same : after.store.disk = before.store.disk) : Leaves before uri json (.ok (), after)
  | refused (id : Nat) (path : List UInt8) (error : DiskError) (after : Workspace)
      (finds : (before.resolve uri).1 = .ok id) (beside : uri.shadowPath? = some path)
      (asked : before.asksShadow uri id path = true)
      (refuses : before.store.disk.write path (Text.Utf8.encode json.toList) = .error error)
      (same : after.store.disk = before.store.disk) : Leaves before uri json (.error (.disk error), after)
  | written (id : Nat) (path : List UInt8) (after : Workspace) (finds : (before.resolve uri).1 = .ok id)
      (beside : uri.shadowPath? = some path) (asked : before.asksShadow uri id path = true)
      (writes : before.store.disk.write path (Text.Utf8.encode json.toList) = .ok after.store.disk)
      (holds : after.store.disk.read path = .ok (Text.Utf8.encode json.toList)) : Leaves before uri json (.ok (), after)

private theorem leaves_keepShadow {workspace : Workspace} (sound : workspace.Sound) (uri : Uri) (json : String) :
    workspace.Leaves uri json (workspace.keepShadow uri json) := by
  have searched : Turned (fun _ => True) (fun _ => True) workspace _ := turned_resolve sound uri fun _ _ => trivial
  have same := searched.store.disk
  have asks (id : Nat) (path : List UInt8) : workspace.asksShadow uri id path = shouldWriteShadow
      (((workspace.resolve uri).2.registry.get? id).bind syncOf) ((workspace.resolve uri).2.store.disk.exists? path) := by
    rw [asksShadow, same]
  unfold keepShadow
  cases resolved : workspace.resolve uri with
  | mk result middle =>
    have finds : (workspace.resolve uri).1 = result := congrArg Prod.fst resolved
    rw [resolved] at same asks
    cases result with
    | error error => exact .lost error middle finds same
    | ok id =>
      simp only at same asks ⊢
      cases beside : uri.shadowPath? with
      | none => exact .spared id middle finds (fun path found => nomatch beside.symm.trans found) same
      | some path =>
        simp only [← asks]
        cases asked : workspace.asksShadow uri id path with
        | false =>
          refine .spared id middle finds (fun other found => ?_) same
          cases beside.symm.trans found
          exact asked
        | true =>
          simp only [↓reduceIte, writeShadow, same]
          cases writes : workspace.store.disk.write path (Text.Utf8.encode json.toList) with
          | error error => exact .refused id path error middle finds beside asked writes same
          | ok disk => exact .written id path _ finds beside asked writes (Disk.read_write writes)

end Workspace

namespace Literate

/-- The JSON form of a literate document is a mapping that is read back, but for its floating-point numbers, if it is not
nested too deeply. It is a specification if the mapping names a format, and then it is what saving the document writes
and leaves on the disk. -/
theorem shadow_exact {text json : String} (written : toJson? text = some json) :
    ∃ fields, read text = .ok (.object fields) ∧ ((Json.object fields).depth ≤ Json.depthLimit →
      Json.read json = .ok ((Json.object fields).mapFloats Json.reread) ∧
      (isSpecification json = true ↔ NamesFormat fields) ∧
      ∀ (workspace : Workspace) (uri : Uri), uri.normalize.extension?.any Uri.isLiterateExtension = true →
        workspace.save uri text =
            (if NamesFormat fields then workspace.keepShadow uri.normalize json else (.ok (), workspace)) ∧
          (workspace.Sound → NamesFormat fields → workspace.Leaves uri.normalize json (workspace.save uri text))) := by
  obtain ⟨fields, mapping, rfl⟩ := toJson?_eq_some_iff.mp written
  refine ⟨fields, mapping, fun shallow => ?_⟩
  have back := Json.read_renderPretty (proper_read mapping) shallow
  have decides := isSpecification_renderPretty back
  refine ⟨back, decides, fun workspace uri literate => ?_⟩
  rw [Workspace.save_eq literate, written]
  by_cases names : NamesFormat fields
  · rw [Option.filter_some, if_pos (decides.mpr names), if_pos names]
    exact ⟨rfl, fun sound _ => Workspace.leaves_keepShadow sound uri.normalize _⟩
  · rw [Option.filter_some, if_neg (fun decided => names (decides.mp decided)), if_neg names]
    exact ⟨rfl, fun _ named => absurd named names⟩

/-- A block with a control character, a character beyond ASCII, a great integer, a fraction and empty containers. -/
def motley : String :=
  "Motley\n\x60\x60\x60 yaml\nswagger: '2.0'\nsize: 18446744073709551615\n" ++
    "text: \"tab\\t\\u0001é\"\nitems: [[], \x7b\x7d, -1, 0.5]\n\x60\x60\x60\n"

def motleyForm : String :=
  "\x7b\n  \"items\": [\n    [],\n    \x7b\x7d,\n    -1,\n    0.5\n  ],\n" ++
    "  \"size\": 18446744073709551615,\n  \"swagger\": \"2.0\",\n  \"text\": \"tab\\t\\u0001é\"\n\x7d"

/-- The fields of that block. -/
def motleyFields : List (String × Json) :=
  [("items", .array [.array [], .object [], .number (.integer (-1)), .number (.float ⟨false, 4503599627370496, -53⟩)]),
    ("size", .number (.integer 18446744073709551615)), ("swagger", .string "2.0"), ("text", .string "tab\t\x01é")]

/-- A server beside whose document there is the form that it had before. -/
def shadowServer : Workspace :=
  .start ⟨[([Text.Utf8.encode "w".toList], .folder),
    ([Text.Utf8.encode "w".toList, Text.Utf8.encode "x.json".toList], .file [])]⟩

/-- The document. -/
def shadowUri : Uri := ⟨"file".toList, some ⟨[], [], none⟩, "/w/x.md".toList, none, none⟩

theorem shadow_exact_sample :
    toJson? motley = some motleyForm ∧
      Json.read motleyForm = .ok ((Json.object motleyFields).mapFloats Json.reread) ∧
      isSpecification motleyForm = true ∧
      (shadowServer.save shadowUri motley).2.store.disk.read (Text.Utf8.encode "/w/x.json".toList) =
        .ok (Text.Utf8.encode motleyForm.toList) := by
  have written : toJson? motley = some motleyForm := by decide +kernel
  have mapping : read motley = .ok (.object motleyFields) := by decide +kernel
  obtain ⟨fields, reads, whole⟩ := shadow_exact written
  cases reads.symm.trans mapping
  obtain ⟨back, decides, saves⟩ := whole (by decide +kernel)
  have names : NamesFormat motleyFields := by decide +kernel
  refine ⟨written, back, decides.mpr names, ?_⟩
  have leaves := (saves shadowServer shadowUri (by decide +kernel)).2 (Workspace.sound_start _) names
  have finds : (shadowServer.resolve shadowUri.normalize).1 = .ok 0 := by decide +kernel
  have beside : shadowUri.normalize.shadowPath? = some (Text.Utf8.encode "/w/x.json".toList) := by decide +kernel
  have asked : shadowServer.asksShadow shadowUri.normalize 0 (Text.Utf8.encode "/w/x.json".toList) = true := by
    decide +kernel
  generalize shadowServer.save shadowUri motley = outcome at leaves ⊢
  cases leaves with
  | lost error after fails => cases finds.symm.trans fails
  | spared id after found unasked =>
    cases finds.symm.trans found
    cases asked.symm.trans (unasked _ beside)
  | refused id path error after found place asked' refuses =>
    cases beside.symm.trans place
    have writable : (shadowServer.store.disk.write (Text.Utf8.encode "/w/x.json".toList)
        (Text.Utf8.encode motleyForm.toList)).isOk = true := by
      decide +kernel
    rw [refuses] at writable
    cases writable
  | written id path after found place asked' writes holds =>
    cases beside.symm.trans place
    exact holds

end Literate

end SpecServer
