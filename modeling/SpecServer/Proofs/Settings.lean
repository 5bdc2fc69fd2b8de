import SpecServer.Proofs.Engine.Composition
import SpecServer.Proofs.Json.Records
import SpecServer.Settings
set_option autoImplicit false

/-!
What the settings in a payload are. Each field that the payload has must be of its kind, and gives its value; each one that
it leaves out has its default. Any other payload cannot be read. Settings that are written as a payload are read again.
-/

namespace SpecServer

variable {entries : List (String × Json)} {key : String} {standard node payload : Json} {settings : Settings}

/-! ## What stands for fields -/

private theorem sublist_map_fst_zip {α β : Type} (front : List α) (back : List β) :
    ((front.zip back).map Prod.fst).Sublist front := by
  induction front generalizing back with
  | nil => exact .slnil
  | cons first rest ih =>
    cases back with
    | nil => exact List.nil_sublist _
    | cons other back => exact (ih back).cons_cons first

private theorem Json.Ordered.nodup_pairs (ordered : node.Ordered) {names : List String} (distinct : names.Nodup)
    (stands : node.pairs? names = some entries) : (entries.map Prod.fst).Nodup := by
  cases ordered with
  | object fields ascending _ =>
    cases stands
    exact Json.Ordered.nodup ascending
  | array items _ =>
    rw [Json.pairs?, Option.ite_none_right_eq_some] at stands
    obtain ⟨short, same⟩ := stands
    cases same
    exact distinct.sublist (sublist_map_fst_zip names items)
  | null | bool | number | string => cases stands

private theorem Json.Ordered.ordered_pairs (ordered : node.Ordered) {names : List String}
    (stands : node.pairs? names = some entries)
    {value : Json} (found : Entries.get? entries key = some value) : value.Ordered := by
  have member := Entries.mem_of_get? found
  cases ordered with
  | object fields _ each =>
    cases stands
    exact each _ member
  | array items each =>
    rw [Json.pairs?, Option.ite_none_right_eq_some] at stands
    obtain ⟨short, same⟩ := stands
    cases same
    exact each _ (List.of_mem_zip member).2
  | null | bool | number | string => cases stands

/-- Whether a record gives a value for a field: what the node means that stands for it, or the default if none does. -/
def Json.Gives {α : Type} (entries : List (String × Json)) (key : String) (default : α) (means : Json → α → Prop)
    (value : α) : Prop :=
  match Entries.get? entries key with
  | none => value = default
  | some node => means node value

private theorem Json.Gives.means {α : Type} {default value : α} {means : Json → α → Prop}
    (gives : Gives entries key default means value) (found : Entries.get? entries key = some node) : means node value := by
  rwa [Gives, found] at gives

namespace Settings

/-- Whether a node is a natural number that fits into a machine word. -/
def MeansNumber (node : Json) (n : Nat) : Prop :=
  node = .number (.integer n) ∧ n < Nat.pow 2 64

/-- Whether a node is a truth value. -/
def MeansFlag (node : Json) (flag : Bool) : Prop :=
  node = .bool flag

/-- Whether a node is a text or says that there is none. -/
def MeansText (node : Json) (text : Option String) : Prop :=
  node = optionalText text

/-- Whether a node is the word for a severity, which may also stand as the key of an object. -/
def MeansSeverity (node : Json) (severity : InformationSeverity) : Prop :=
  node = .string severity.word ∨ node = .object [(severity.word, .null)]

/-- Whether some fields give settings: each is of its kind or missing. -/
structure Conveys (entries : List (String × Json)) (settings : Settings) : Prop where
  problems : Json.Gives entries "maxNumberOfProblems" 0 MeansNumber settings.maxNumberOfProblems
  information : Json.Gives entries "information" false MeansFlag settings.information
  verbose : Json.Gives entries "verbose" false MeansFlag settings.verbose
  debug : Json.Gives entries "debug" false MeansFlag settings.debug
  runtimeId : Json.Gives entries "runtimeId" none MeansText settings.runtimeId
  minimumVersion : Json.Gives entries "minimumAutoRestVersion" none MeansText settings.minimumVersion
  configuration : Json.Gives entries "configuration" .null (· = ·) settings.configuration
  severity : Json.Gives entries "informationSeverity" .warning MeansSeverity settings.informationSeverity

/-- Whether a payload gives settings: it is nothing, it leaves the engine's part out, or that part gives them. -/
inductive Brings : Json → Settings → Prop
  | nothing : Brings .null initial
  | silent (payload : Json) (entries : List (String × Json)) (stands : payload.pairs? ["autorest"] = some entries)
      (missing : Entries.get? entries "autorest" = none) : Brings payload initial
  | engine (payload node : Json) (entries inner : List (String × Json)) (settings : Settings)
      (stands : payload.pairs? ["autorest"] = some entries) (found : Entries.get? entries "autorest" = some node)
      (record : node.pairs? (engineFields.map Prod.fst) = some inner) (conveys : Conveys inner settings) :
      Brings payload settings

/-! ## Kinds of fields -/

variable {result : Json}

private theorem readInteger_eq_ok_iff {name : String}
    {low high : Int} : Shape.readInteger name low high node = .ok result ↔
    ∃ n, node = .number (.integer n) ∧ low ≤ n ∧ n < high ∧ result = node := by
  constructor
  · intro read
    unfold Shape.readInteger at read
    split at read
    · split at read
      next within => exact ⟨_, rfl, within.1, within.2, (Except.ok.inj read).symm⟩
      next => cases read
    · cases read
  · rintro ⟨n, rfl, low, high, rfl⟩
    rw [Shape.readInteger, if_pos ⟨low, high⟩]

private theorem readAs_flag_eq_ok_iff :
    Shape.readAs false .bool node = .ok result ↔ ∃ flag, MeansFlag node flag ∧ result = node := by
  cases node <;> simp [Shape.readAs, MeansFlag, eq_comm]

private theorem readAs_text_eq_ok_iff :
    Shape.readAs false (.option .text) node = .ok result ↔ ∃ text, MeansText node text ∧ result = node := by
  cases node <;> simp [Shape.readAs, MeansText, optionalText, Option.exists, eq_comm]

private theorem readWord_eq_ok_iff {words : List String} : Shape.readWord words node = .ok result ↔
    ∃ word ∈ words, (node = .string word ∨ node = .object [(word, .null)]) ∧ result = .string word := by
  constructor
  · intro read
    unfold Shape.readWord at read
    split at read
    next word =>
      split at read
      next known =>
        cases read
        exact ⟨word, List.contains_iff_mem.mp known, .inl rfl, rfl⟩
      next => cases read
    next word value =>
      split at read
      next => cases read
      next known =>
        split at read
        next null =>
          cases read
          cases value with
          | null => exact ⟨word, by simpa using known, .inr rfl, rfl⟩
          | _ => cases null
        next => cases read
    next => cases read
    next => cases read
  · rintro ⟨word, member, rfl | rfl, rfl⟩
    · rw [Shape.readWord, if_pos (List.contains_iff_mem.mpr member)]
    · simp [Shape.readWord, member, Json.isNull]

private theorem gives_number_iff {n : Nat}
    (fills : Shape.Fills false (.natural "usize" (Nat.pow 2 64)) entries standard key) :
    Json.Gives entries key 0 MeansNumber n ↔ standard.naturalAt key = n := by
  cases fills with
  | missing absent empty => simp only [Json.Gives, absent, Json.naturalAt, empty, eq_comm]
  | given node result found read held =>
    rw [Shape.readAs] at read
    obtain ⟨i, rfl, low, high, rfl⟩ := readInteger_eq_ok_iff.mp read
    simp only [Json.Gives, found, MeansNumber, Json.naturalAt, held, Json.number.injEq, Number.integer.injEq]
    omega

private theorem isOk_number {n : Nat} (means : MeansNumber node n) :
    (Shape.readAs false (.natural "usize" (Nat.pow 2 64)) node).isOk = true := by
  obtain ⟨rfl, small⟩ := means
  rw [Shape.readAs, readInteger_eq_ok_iff.mpr ⟨n, rfl, Int.natCast_nonneg n, Int.ofNat_lt.mpr small, rfl⟩]
  rfl

private theorem gives_flag_iff {flag : Bool} (fills : Shape.Fills false .bool entries standard key) :
    Json.Gives entries key false MeansFlag flag ↔ standard.boolAt key = flag := by
  cases fills with
  | missing absent empty => simp only [Json.Gives, absent, Json.boolAt, empty, eq_comm]
  | given node result found read held =>
    obtain ⟨own, rfl, rfl⟩ := readAs_flag_eq_ok_iff.mp read
    simp only [Json.Gives, found, MeansFlag, Json.boolAt, held, Json.bool.injEq]

private theorem isOk_flag {flag : Bool} (means : MeansFlag node flag) :
    (Shape.readAs false .bool node).isOk = true := by
  rw [readAs_flag_eq_ok_iff.mpr ⟨flag, means, rfl⟩]
  rfl

private theorem asString?_optionalText (text : Option String) : (optionalText text).asString? = text := by
  cases text <;> rfl

private theorem gives_text_iff {text : Option String} (fills : Shape.Fills false (.option .text) entries standard key) :
    Json.Gives entries key none MeansText text ↔ standard.textAt? key = text := by
  cases fills with
  | missing absent empty => simp only [Json.Gives, absent, Json.textAt?, empty, Option.bind_none, eq_comm]
  | given node result found read held =>
    obtain ⟨own, rfl, rfl⟩ := readAs_text_eq_ok_iff.mp read
    simp only [Json.Gives, found, MeansText, Json.textAt?, held, Option.bind_some, asString?_optionalText]
    constructor
    · intro same
      rw [← asString?_optionalText own, same, asString?_optionalText]
    · rintro rfl
      rfl

private theorem isOk_text {text : Option String} (means : MeansText node text) :
    (Shape.readAs false (.option .text) node).isOk = true := by
  rw [readAs_text_eq_ok_iff.mpr ⟨text, means, rfl⟩]
  rfl

private theorem gives_any_iff (fills : Shape.Fills false .any entries standard key) :
    Json.Gives entries key .null (· = ·) node ↔ standard.valueAt key = node := by
  cases fills with
  | missing absent empty => simp only [Json.Gives, absent, Json.valueAt, empty, Option.getD_none, eq_comm]
  | given own result found read held =>
    rw [Shape.readAs] at read
    cases read
    simp only [Json.Gives, found, Json.valueAt, held, Option.getD_some]

private theorem exists_severity {word : String} (known : word ∈ ["warning", "information"]) :
    ∃ severity : InformationSeverity, severity.word = word := by
  rcases List.mem_cons.mp known with rfl | further
  · exact ⟨.warning, rfl⟩
  · exact ⟨.information, (List.mem_singleton.mp further).symm⟩

private theorem MeansSeverity.unique {severity other : InformationSeverity} (left : MeansSeverity node severity)
    (right : MeansSeverity node other) : severity = other := by
  have same : severity.word = other.word := by
    rcases left with rfl | rfl <;> simpa [MeansSeverity] using right
  cases severity <;> cases other <;> first | rfl | exact absurd same (by decide)

private theorem gives_severity_iff {severity : InformationSeverity}
    (fills : Shape.Fills false (.word ["warning", "information"]) entries standard key) :
    Json.Gives entries key .warning MeansSeverity severity ↔
      (if standard.textAt key = "information" then InformationSeverity.information else .warning) = severity := by
  cases fills with
  | missing absent empty =>
    simp only [Json.Gives, absent, Json.textAt, empty]
    exact eq_comm
  | given node result found read held =>
    rw [Shape.readAs] at read
    obtain ⟨word, known, means, rfl⟩ := readWord_eq_ok_iff.mp read
    obtain ⟨own, rfl⟩ := exists_severity known
    have back : (if own.word = "information" then InformationSeverity.information else .warning) = own := by
      cases own <;> decide
    simp only [Json.Gives, found, Json.textAt, held, Option.bind_some, Json.asString?, Option.getD_some, back]
    constructor
    · exact fun other => MeansSeverity.unique means other
    · rintro rfl
      exact means

private theorem isOk_severity {severity : InformationSeverity} (means : MeansSeverity node severity) :
    (Shape.readAs false (.word ["warning", "information"]) node).isOk = true := by
  have known : severity.word ∈ ["warning", "information"] := by
    cases severity <;> decide
  rw [Shape.readAs, readWord_eq_ok_iff.mpr ⟨severity.word, known, means, rfl⟩]
  rfl

/-! ## Payloads -/

private theorem distinct_engineFields : (engineFields.map Prod.fst).Nodup := by
  decide

private theorem defaulted_engineFields : ∀ field ∈ engineFields, field.2.1 = .defaulted := by
  simp [engineFields]

theorem ofEngine_null : ofEngine .null = initial :=
  rfl

private theorem ofEngine_eq_iff : ofEngine standard = settings ↔
    standard.naturalAt "maxNumberOfProblems" = settings.maxNumberOfProblems ∧
      standard.boolAt "information" = settings.information ∧ standard.boolAt "verbose" = settings.verbose ∧
      standard.boolAt "debug" = settings.debug ∧ standard.textAt? "runtimeId" = settings.runtimeId ∧
      standard.textAt? "minimumAutoRestVersion" = settings.minimumVersion ∧
      standard.valueAt "configuration" = settings.configuration ∧
      (if standard.textAt "informationSeverity" = "information" then InformationSeverity.information else .warning) =
        settings.informationSeverity := by
  cases settings
  simp only [ofEngine, mk.injEq]

private theorem conveys_iff (stands : node.pairs? (engineFields.map Prod.fst) = some entries)
    (unique : (entries.map Prod.fst).Nodup)
    (reads : Shape.readAs false (.record "struct EngineSettings" engineFields) node = .ok standard) :
    Conveys entries settings ↔ ofEngine standard = settings := by
  have fills (key : String) (shape : Shape) (member : (key, .defaulted, shape) ∈ engineFields) :
      Shape.Fills false shape entries standard key :=
    Shape.fills_of_readAs distinct_engineFields defaulted_engineFields stands unique reads member
  rw [ofEngine_eq_iff, ← gives_number_iff (fills "maxNumberOfProblems" _ (by simp [engineFields])),
    ← gives_flag_iff (fills "information" _ (by simp [engineFields])),
    ← gives_flag_iff (fills "verbose" _ (by simp [engineFields])),
    ← gives_flag_iff (fills "debug" _ (by simp [engineFields])),
    ← gives_text_iff (fills "runtimeId" _ (by simp [engineFields])),
    ← gives_text_iff (fills "minimumAutoRestVersion" _ (by simp [engineFields])),
    ← gives_any_iff (fills "configuration" _ (by simp [engineFields])),
    ← gives_severity_iff (fills "informationSeverity" _ (by simp [engineFields]))]
  constructor
  · rintro ⟨problems, information, verbose, debug, runtimeId, minimumVersion, configuration, severity⟩
    exact ⟨problems, information, verbose, debug, runtimeId, minimumVersion, configuration, severity⟩
  · rintro ⟨problems, information, verbose, debug, runtimeId, minimumVersion, configuration, severity⟩
    exact ⟨problems, information, verbose, debug, runtimeId, minimumVersion, configuration, severity⟩

private theorem isOk_of_conveys (stands : node.pairs? (engineFields.map Prod.fst) = some entries)
    (unique : (entries.map Prod.fst).Nodup) (conveys : Conveys entries settings) :
    (Shape.readAs false (.record "struct EngineSettings" engineFields) node).isOk = true := by
  rw [Shape.isOk_readAs_record_iff false distinct_engineFields defaulted_engineFields _ stands unique]
  simp only [engineFields, List.forall_mem_cons, List.not_mem_nil, false_implies, implies_true, and_true]
  exact ⟨fun _ found => isOk_number (conveys.problems.means found),
    fun _ found => isOk_flag (conveys.information.means found), fun _ found => isOk_flag (conveys.verbose.means found),
    fun _ found => isOk_flag (conveys.debug.means found), fun _ found => isOk_text (conveys.runtimeId.means found),
    fun _ found => isOk_text (conveys.minimumVersion.means found), fun _ _ => by rw [Shape.readAs]; rfl,
    fun _ found => isOk_severity (conveys.severity.means found)⟩

/-- An engine's part can be read exactly if it gives settings, and these are what is read. -/
theorem exists_conveys_iff
    (distinct : ∀ inner, node.pairs? (engineFields.map Prod.fst) = some inner → (inner.map Prod.fst).Nodup) :
    (∃ inner, node.pairs? (engineFields.map Prod.fst) = some inner ∧ Conveys inner settings) ↔
      ∃ standard, Shape.readAs false (.record "struct EngineSettings" engineFields) node = .ok standard ∧
        ofEngine standard = settings := by
  constructor
  · rintro ⟨inner, stands, conveys⟩
    have unique := distinct inner stands
    have ok := isOk_of_conveys stands unique conveys
    cases reads : Shape.readAs false (.record "struct EngineSettings" engineFields) node with
    | error error => rw [reads] at ok; cases ok
    | ok standard => exact ⟨standard, rfl, (conveys_iff stands unique reads).mp conveys⟩
  · rintro ⟨standard, reads, same⟩
    obtain ⟨inner, stands⟩ := Shape.exists_pairs? distinct_engineFields defaulted_engineFields reads
    exact ⟨inner, stands, (conveys_iff stands (distinct inner stands) reads).mpr same⟩

def fields : List (String × Presence × Shape) :=
  [("autorest", .defaulted, .record "struct EngineSettings" engineFields)]

private theorem distinct_fields : (fields.map Prod.fst).Nodup :=
  List.nodup_singleton _

private theorem defaulted_fields : ∀ field ∈ fields, field.2.1 = .defaulted := by
  simp [fields]

private theorem read_of_some (present : payload.isNull = false) :
    Settings.read payload = (Shape.readAs false (.record "struct Settings" fields) payload).map ofStandard := by
  rw [Settings.read, present]
  rfl

private theorem isNull_of_pairs? {names : List String} (stands : payload.pairs? names = some entries) :
    payload.isNull = false := by
  cases payload with
  | null => cases stands
  | _ => rfl

private theorem read_record_iff (stands : payload.pairs? ["autorest"] = some entries)
    (unique : (entries.map Prod.fst).Nodup) :
    Settings.read payload = .ok settings ↔
      (Entries.get? entries "autorest" = none ∧ initial = settings) ∨
        ∃ node standard, Entries.get? entries "autorest" = some node ∧
          Shape.readAs false (.record "struct EngineSettings" engineFields) node = .ok standard ∧
          ofEngine standard = settings := by
  have readable := Shape.isOk_readAs_record_iff false distinct_fields defaulted_fields
    "struct Settings" stands unique
  simp only [fields, List.forall_mem_singleton] at readable
  rw [read_of_some (isNull_of_pairs? stands)]
  cases reads : Shape.readAs false (.record "struct Settings" fields) payload with
  | error error =>
    rw [← fields, reads] at readable
    constructor
    · intro read
      cases read
    · intro gives
      refine absurd (readable.mpr fun value found => ?_) Bool.false_ne_true
      obtain ⟨absent, -⟩ | ⟨node, standard, here, ok, -⟩ := gives
      · rw [absent] at found
        cases found
      · cases here.symm.trans found
        rw [ok]
        rfl
  | ok standard =>
    have part : Shape.Fills false (.record "struct EngineSettings" engineFields) entries standard "autorest" :=
      Shape.fills_of_readAs distinct_fields defaulted_fields stands unique reads (List.mem_singleton.mpr rfl)
    have whole : (.ok standard : Except ShapeError Json).map ofStandard = .ok settings ↔
        ofEngine ((standard.field? "autorest").getD .null) = settings :=
      ⟨Except.ok.inj, congrArg Except.ok⟩
    rw [whole]
    cases part with
    | missing absent empty => simp [absent, empty, ofEngine_null]
    | given node result found read held => simp [found, held, read]

/-- A payload is read as the settings that it gives, and not at all if it gives none. -/
theorem read_eq_ok_iff (ordered : payload.Ordered) : Settings.read payload = .ok settings ↔ Brings payload settings := by
  constructor
  · intro reads
    cases present : payload.isNull with
    | true =>
      rw [Settings.read, present] at reads
      cases payload with
      | null => cases reads; exact .nothing
      | _ => cases present
    | false =>
      cases whole : Shape.readAs false (.record "struct Settings" fields) payload with
      | error error => rw [read_of_some present, whole] at reads; cases reads
      | ok standard =>
        obtain ⟨entries, stands⟩ := Shape.exists_pairs? distinct_fields defaulted_fields whole
        have unique := ordered.nodup_pairs (List.nodup_singleton _) stands
        rcases (read_record_iff stands unique).mp reads with ⟨absent, rfl⟩ | ⟨node, standard, found, read, same⟩
        · exact .silent payload entries stands absent
        · have part := ordered.ordered_pairs stands found
          obtain ⟨inner, record, conveys⟩ :=
            (exists_conveys_iff fun _ => part.nodup_pairs distinct_engineFields).mpr ⟨standard, read, same⟩
          exact .engine payload node entries inner settings stands found record conveys
  · intro brings
    cases brings with
    | nothing => rfl
    | silent _ entries stands absent =>
      have unique := ordered.nodup_pairs (List.nodup_singleton _) stands
      exact (read_record_iff stands unique).mpr (.inl ⟨absent, rfl⟩)
    | engine _ node entries inner _ stands found record conveys =>
      have unique := ordered.nodup_pairs (List.nodup_singleton _) stands
      have part := ordered.ordered_pairs stands found
      obtain ⟨standard, reads, same⟩ :=
        (exists_conveys_iff fun _ => part.nodup_pairs distinct_engineFields).mp ⟨inner, record, conveys⟩
      exact (read_record_iff stands unique).mpr (.inr ⟨node, standard, found, reads, same⟩)

/-! ## Writing -/

def engineEntries (settings : Settings) : List (String × Json) :=
  [("maxNumberOfProblems", .number (.integer settings.maxNumberOfProblems)), ("information", .bool settings.information),
    ("verbose", .bool settings.verbose), ("debug", .bool settings.debug),
    ("runtimeId", optionalText settings.runtimeId), ("minimumAutoRestVersion", optionalText settings.minimumVersion),
    ("configuration", settings.configuration), ("informationSeverity", .string settings.informationSeverity.word)]

private theorem distinct_engineEntries (settings : Settings) : (settings.engineEntries.map Prod.fst).Nodup := by
  simp [engineEntries]

private theorem nodup_ofList_engineEntries (settings : Settings) :
    ((Entries.ofList settings.engineEntries).map Prod.fst).Nodup :=
  ((Entries.ofList_perm settings.distinct_engineEntries).map Prod.fst).nodup_iff.mpr settings.distinct_engineEntries

private theorem gives_engineEntries {α : Type} {default value : α} {means : Json → α → Prop} (key : String)
    (node : Json)
    (member : (key, node) ∈ settings.engineEntries) (meant : means node value) :
    Json.Gives (Entries.ofList settings.engineEntries) key default means value := by
  have among := (Entries.ofList_perm settings.distinct_engineEntries).mem_iff.mpr member
  rwa [Json.Gives, (Entries.get?_eq_some_iff settings.nodup_ofList_engineEntries).mpr among]

-- the table of the fields must not be computed
attribute [local irreducible] Json.Gives

private theorem conveys_engineEntries (small : settings.maxNumberOfProblems < Nat.pow 2 64) :
    Conveys (Entries.ofList settings.engineEntries) settings where
  problems :=
    gives_engineEntries _ (.number (.integer settings.maxNumberOfProblems)) (by simp [engineEntries]) ⟨rfl, small⟩
  information := gives_engineEntries _ (.bool settings.information) (by simp [engineEntries]) rfl
  verbose := gives_engineEntries _ (.bool settings.verbose) (by simp [engineEntries]) rfl
  debug := gives_engineEntries _ (.bool settings.debug) (by simp [engineEntries]) rfl
  runtimeId := gives_engineEntries _ (optionalText settings.runtimeId) (by simp [engineEntries]) rfl
  minimumVersion := gives_engineEntries _ (optionalText settings.minimumVersion) (by simp [engineEntries]) rfl
  configuration := gives_engineEntries _ settings.configuration (by simp [engineEntries]) rfl
  severity := gives_engineEntries _ (.string settings.informationSeverity.word) (by simp [engineEntries]) (.inl rfl)

theorem read_toJson (small : settings.maxNumberOfProblems < Nat.pow 2 64) :
    Settings.read settings.toJson = .ok settings := by
  have stands : settings.toJson.pairs? ["autorest"] =
      some [("autorest", .object (Entries.ofList settings.engineEntries))] := rfl
  rw [read_record_iff stands (List.nodup_singleton _)]
  have distinct (inner : List (String × Json)) (record : (Json.object (Entries.ofList settings.engineEntries)).pairs?
      (engineFields.map Prod.fst) = some inner) : (inner.map Prod.fst).Nodup := by
    cases record
    exact settings.nodup_ofList_engineEntries
  obtain ⟨standard, reads, same⟩ := (exists_conveys_iff distinct).mp ⟨_, rfl, conveys_engineEntries small⟩
  exact .inr ⟨_, standard, rfl, reads, same⟩

end Settings

end SpecServer
