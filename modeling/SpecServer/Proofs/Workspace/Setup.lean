import SpecServer.Proofs.Settings
import SpecServer.Proofs.Workspace.Screen
set_option autoImplicit false

/-!
What is set for the whole server. Documents, contexts, passes and questions leave it alone: the settings in force are
those that came last, the engine is the one that the first settings asked for, and the root is the first one that was
named.
-/

namespace SpecServer

-- neither the model's parser nor the disk must be unfolded
attribute [local irreducible] Uri.normalize Store.load

/-- What is set for the whole server. -/
structure Setup where
  settings : Settings
  engine : Engine
  acquisition : Acquisition
  root : Option Uri

/-- The settings in a payload; one that cannot be read counts as none. -/
def Settings.ofPayload (payload : Json) : Settings :=
  (Settings.read payload).toOption.getD Settings.initial

/-- What the attempt to acquire an engine for some settings leads to; without a version in them, any engine will do. -/
def Engine.attempt (engine : Engine) (settings : Settings) : Acquisition × Engine :=
  let requested := settings.minimumVersion.getD "latest-installed"
  if Version.meets requested then (.ready, ⟨some .builtin⟩) else (.failed (.notAcquired requested), engine)

/-- The settings that an event brings. -/
def Event.payload? : Event → Option Json
  | .configure payload => some payload
  | _ => none

def Event.root? : Event → Option Uri
  | .setRoot text => (text.filter (!·.isEmpty)).bind fun raw => (Workspace.rootOf raw).toOption
  | _ => none

def Setup.next (setup : Setup) : Event → Setup
  | .configure payload =>
    let settings := Settings.ofPayload payload
    let (acquisition, engine) :=
      if setup.acquisition = .pending then setup.engine.attempt settings else (setup.acquisition, setup.engine)
    ⟨settings, engine, acquisition, setup.root⟩
  | .setRoot text =>
    { setup with root := setup.root.or (Event.setRoot text).root? }
  | _ => setup

namespace Workspace

/-- What is set in a state. -/
def setup (workspace : Workspace) : Setup :=
  ⟨workspace.settings, workspace.engine, workspace.acquisition, workspace.root⟩

variable {workspace before after : Workspace}

private theorem Beside.setup (beside : Beside before after) : after.setup = before.setup := by
  obtain ⟨settings, engine, acquisition, root⟩ := beside
  simp only [Workspace.setup, settings, engine, acquisition, root]

/-! ## Contexts -/

private theorem setup_foldl_dispose (workspace : Workspace) (removed : List Context) :
    (removed.foldl dispose workspace).setup = workspace.setup := by
  induction removed generalizing workspace with
  | nil => rfl
  | cons context rest ih => exact ih (workspace.dispose context)

private theorem setup_prune (workspace : Workspace) : workspace.prune.setup = workspace.setup :=
  setup_foldl_dispose { workspace with registry := (workspace.registry.prune workspace.store.isActive).2 } _

private theorem setup_release (workspace : Workspace) (previous : Nat) (document : Uri) (successor : Nat) :
    (workspace.release previous document successor).setup = workspace.setup := by
  rw [release_eq]
  exact (setup_prune _).trans (tacit_freed workspace previous document successor).beside.setup

private theorem setup_resolve (workspace : Workspace) (uri : Uri) :
    (workspace.resolve uri).2.setup = workspace.setup := by
  have chosen := (tacit_choose workspace uri.normalize).beside.setup
  have resolves := resolve_cases workspace uri
  generalize workspace.resolve uri = outcome at resolves ⊢
  cases resolves with
  | failed error after found => rwa [found] at chosen
  | stayed id after found _ => rwa [found] at chosen
  | left id settled old found _ _ =>
    rw [found] at chosen
    exact (setup_release settled old _ id).trans chosen

/-! ## Passes -/

private theorem setup_runPass (workspace : Workspace) (id : Nat) (context : Context) :
    (workspace.runPass id context).2.setup = workspace.setup := by
  obtain ⟨cleared, last, keys, processed, clears, annotates, ended⟩ := runPass_course workspace id context
  rw [ended]
  exact annotates.beside.setup.trans clears.beside.setup

private theorem setup_revalidateAll (workspace : Workspace) (ids : List Nat) :
    (workspace.revalidateAll ids).setup = workspace.setup :=
  revalidateAll_keeps (fun later => later.setup = workspace.setup)
    (fun before id context _ => (setup_runPass before id context).trans) (fun _ _ _ => id) rfl ids

/-! ## Events -/

private theorem setup_edit (workspace : Workspace) (uri : Uri) (language text : String) :
    (workspace.edit uri language text).2.setup = workspace.setup := by
  have searched := (setup_resolve (workspace.opened uri text) uri.normalize).trans
    (tacit_opened workspace uri text).beside.setup
  have edits := edit_cases workspace uri language text
  generalize workspace.edit uri language text = outcome at edits ⊢
  cases edits with
  | unknown => rfl
  | replaced => rfl
  | failed error after _ resolved => rwa [resolved] at searched
  | engaged id settled _ resolved =>
    rw [resolved] at searched
    rw [engage_eq]
    exact (setup_revalidateAll _ _).trans ((tacit_enlisted settled id _).beside.setup.trans searched)

private theorem setup_foldl_dropInput (workspace : Workspace) (id : Nat) (inputs : List Uri) :
    (inputs.foldl (dropInput id) workspace).setup = workspace.setup :=
  foldl_dropInput_keeps (fun later => later.setup = workspace.setup) (fun _ _ same => same) (fun _ _ _ same => same) rfl id inputs

private theorem setup_depart (workspace : Workspace) (id : Nat) (context : Context) (document key : Uri) :
    (workspace.depart id context document key).setup = workspace.setup :=
  depart_keeps (fun later => later.setup = workspace.setup) (fun _ _ same => same) (fun _ _ _ same => same) rfl id context
    document key

private theorem setup_close (workspace : Workspace) (uri : Uri) : (workspace.close uri).setup = workspace.setup := by
  have closes := close_cases workspace uri
  generalize workspace.close uri = outcome at closes ⊢
  cases closes with
  | unknown => rfl
  | unowned => rfl
  | gone => rfl
  | owned file id owner _ _ _ =>
    refine (setup_prune _).trans ((setup_depart _ id owner _ _).trans ?_)
    split
    · exact setup_foldl_dropInput workspace id owner.inputs
    · rfl

private theorem setup_save (workspace : Workspace) (uri : Uri) (text : String) :
    (workspace.save uri text).2.setup = workspace.setup := by
  have searched := setup_resolve workspace uri.normalize
  have saves := save_cases workspace uri text
  generalize workspace.save uri text = outcome at saves ⊢
  cases saves with
  | ignored => rfl
  | failed error after resolved => rwa [resolved] at searched
  | kept id settled resolved => rwa [resolved] at searched
  | written id settled path content resolved =>
    rw [resolved] at searched
    exact (tacit_writeShadow settled path content).beside.setup.trans searched

/-! ## Settings and roots -/

private theorem ofPayload_eq_of_brings {payload : Json} {settings : Settings} (ordered : payload.Ordered)
    (brings : Settings.Brings payload settings) : Settings.ofPayload payload = settings := by
  rw [Settings.ofPayload, (Settings.read_eq_ok_iff ordered).mpr brings]
  rfl

private theorem ofPayload_eq_initial {payload : Json} (ordered : payload.Ordered)
    (unreadable : ∀ settings, ¬Settings.Brings payload settings) : Settings.ofPayload payload = Settings.initial := by
  rw [Settings.ofPayload]
  cases reads : Settings.read payload with
  | error error => rfl
  | ok settings => exact absurd ((Settings.read_eq_ok_iff ordered).mp reads) (unreadable settings)

private theorem ofPayload_toJson {settings : Settings} (small : settings.maxNumberOfProblems < Nat.pow 2 64) :
    Settings.ofPayload settings.toJson = settings := by
  rw [Settings.ofPayload, Settings.read_toJson small]
  rfl

private theorem setup_applySettings (workspace : Workspace) (payload : Json) :
    (workspace.applySettings payload).setup = { workspace.setup with settings := Settings.ofPayload payload } := by
  simp only [applySettings, Settings.ofPayload]
  cases Settings.read payload <;> rfl

private theorem setup_acquireEngine (workspace : Workspace) :
    workspace.acquireEngine.setup =
      { workspace.setup with
        acquisition := (workspace.engine.attempt workspace.settings).1
        engine := (workspace.engine.attempt workspace.settings).2 } := by
  have asked : workspace.settings.minimumVersion.getD "latest-installed" = workspace.settings.requestedVersion := rfl
  simp only [acquireEngine, Engine.acquire, Engine.attempt, asked]
  cases Version.meets workspace.settings.requestedVersion <;> rfl

private theorem setup_configure (workspace : Workspace) (payload : Json) :
    (workspace.configure payload).setup = workspace.setup.next (.configure payload) := by
  have applied := setup_applySettings workspace payload
  have acquired := setup_acquireEngine (workspace.applySettings payload)
  simp only [configure]
  generalize workspace.applySettings payload = noted at applied acquired ⊢
  have settings : noted.settings = Settings.ofPayload payload := congrArg Setup.settings applied
  have engine : noted.engine = workspace.engine := congrArg Setup.engine applied
  have acquisition : noted.acquisition = workspace.acquisition := congrArg Setup.acquisition applied
  by_cases pending : workspace.acquisition = .pending
  · rw [if_pos (acquisition.trans pending), acquired, applied, settings, engine]
    simp only [Setup.next, setup, pending, ↓reduceIte]
  · rw [if_neg (acquisition ▸ pending), applied]
    simp only [Setup.next, setup, pending, ↓reduceIte]

private theorem setup_setRoot (workspace : Workspace) (text : Option String) :
    (workspace.setRoot text).2.setup = workspace.setup.next (.setRoot text) := by
  simp only [setRoot, Setup.next, Event.root?]
  cases text.filter (!·.isEmpty) with
  | none => exact congrArg (Setup.mk _ _ _) (Option.or_none).symm
  | some raw =>
    simp only [Option.bind_some]
    cases rootOf raw with
    | error error => exact congrArg (Setup.mk _ _ _) (Option.or_none).symm
    | ok requested =>
      simp only [setup]
      cases held : workspace.root with
      | some current => simp only [held, Option.some_or]
      | none => rfl

/-- An event changes what is set as its settings or its root ask for, and any other event changes nothing. -/
theorem setup_step (workspace : Workspace) (event : Event) :
    (workspace.step event).setup = workspace.setup.next event := by
  cases event with
  | edit uri language text => exact setup_edit workspace uri language text
  | close uri => exact setup_close workspace uri
  | changedOnDisk uris => exact (setup_revalidateAll _ _).trans (asked_noteChanges [] workspace uris).beside.setup
  | save uri text => exact setup_save workspace uri text
  | configure payload => exact setup_configure workspace payload
  | setRoot text => exact setup_setRoot workspace text
  | hover uri position => exact (asked_hover workspace uri position).beside.setup
  | definitions uri position => exact (asked_definitions workspace uri position).beside.setup
  | definition uri => exact (asked_definition? workspace uri).beside.setup
  | take => rfl
  | replaceDisk disk => rfl

private theorem setup_run (workspace : Workspace) (events : List Event) :
    (workspace.run events).setup = events.foldl Setup.next workspace.setup := by
  induction events generalizing workspace with
  | nil => rfl
  | cons event rest ih =>
    rw [List.foldl_cons, ← setup_step]
    exact ih (workspace.step event)

/-! ## What a run leaves set -/

private theorem root_foldl (setup : Setup) (events : List Event) :
    (events.foldl Setup.next setup).root = setup.root.or (events.findSome? Event.root?) := by
  induction events generalizing setup with
  | nil => exact Option.or_none.symm
  | cons event rest ih =>
    have first : (setup.next event).root = setup.root.or event.root? := by
      cases event <;> simp [Setup.next, Event.root?]
    rw [List.foldl_cons, ih, first, List.findSome?_cons, Option.or_assoc]
    cases event.root? <;> rfl

private theorem settings_foldl (setup : Setup) (events : List Event) :
    (events.foldl Setup.next setup).settings =
      ((events.filterMap Event.payload?).getLast?.map Settings.ofPayload).getD setup.settings := by
  induction events generalizing setup with
  | nil => rfl
  | cons event rest ih =>
    rw [List.foldl_cons, ih]
    cases event with
    | configure payload =>
      have brings : (Event.configure payload :: rest).filterMap Event.payload? =
          payload :: rest.filterMap Event.payload? := rfl
      rw [brings, List.getLast?_cons]
      cases (rest.filterMap Event.payload?).getLast? <;> rfl
    | _ => rfl

private theorem engine_foldl (setup : Setup) (events : List Event) :
    let last := events.foldl Setup.next setup
    (last.acquisition, last.engine) =
      if setup.acquisition = .pending then
        ((events.filterMap Event.payload?).head?.map fun payload =>
          setup.engine.attempt (Settings.ofPayload payload)).getD (setup.acquisition, setup.engine)
      else (setup.acquisition, setup.engine) := by
  induction events generalizing setup with
  | nil => simp
  | cons event rest ih =>
    simp only [List.foldl_cons] at ih ⊢
    rw [ih]
    cases event with
    | configure payload =>
      have settled : ∀ settings, (setup.engine.attempt settings).1 ≠ .pending := by
        intro settings
        simp only [Engine.attempt]
        split <;> nofun
      by_cases pending : setup.acquisition = .pending
      · simp [Setup.next, Event.payload?, pending, settled]
      · simp [Setup.next, pending]
    | _ => rfl

/-- Whether a text names a root: it is a URI, or the path of a folder that is no URI. -/
inductive NamesRoot (text : String) : Uri → Prop
  | uri (uri : Uri) (given : text.isEmpty = false) (reads : Uri.parse text = .ok uri) : NamesRoot text uri.normalize
  | folder (error : UriError) (folder : Uri) (given : text.isEmpty = false) (fails : Uri.parse text = .error error)
      (absolute : Uri.ofFolder? text = some folder) : NamesRoot text folder.normalize

private theorem ofFolder?_eq_none_iff {text : String} : Uri.ofFolder? text = none ↔ text.toList.head? ≠ some '/' := by
  unfold Uri.ofFolder?
  split
  next shape => simp [shape]
  next shape =>
    refine ⟨fun _ slash => ?_, fun _ => rfl⟩
    obtain ⟨rest, whole⟩ := List.head?_eq_some_iff.mp slash
    exact shape rest whole

private theorem namesRoot_iff {text : String} {root : Uri} :
    NamesRoot text root ↔ text.isEmpty = false ∧ rootOf text = .ok root := by
  simp only [rootOf]
  constructor
  · intro names
    cases names with
    | uri uri given reads => exact ⟨given, by rw [reads]⟩
    | folder error folder given fails absolute => exact ⟨given, by rw [fails, absolute]⟩
  · intro ⟨given, found⟩
    split at found
    next uri reads =>
      cases found
      exact .uri uri given reads
    next error fails =>
      split at found
      next folder absolute =>
        cases found
        exact .folder error folder given fails absolute
      next => cases found

private theorem relative_of_rootOf {text : String} {error : UriError} (failed : rootOf text = .error error) :
    Uri.parse text = .error error ∧ text.toList.head? ≠ some '/' := by
  simp only [rootOf] at failed
  split at failed
  next => cases failed
  next fails =>
    split at failed
    next => cases failed
    next relative =>
      cases failed
      exact ⟨fails, ofFolder?_eq_none_iff.mp relative⟩

private theorem root?_eq_some_iff {event : Event} {root : Uri} :
    event.root? = some root ↔ ∃ text, event = .setRoot (some text) ∧ NamesRoot text root := by
  have named : ∀ text : String, (Event.setRoot (some text)).root? = some root ↔ NamesRoot text root := by
    intro text
    simp only [namesRoot_iff, Event.root?, Option.filter_some]
    cases text.isEmpty with
    | true => simp
    | false => cases named : rootOf text <;> simp [named, Except.toOption]
  constructor
  · intro found
    cases event with
    | setRoot text =>
      cases text with
      | none => cases found
      | some text => exact ⟨text, rfl, (named text).mp found⟩
    | _ => cases found
  · rintro ⟨text, rfl, names⟩
    exact (named text).mpr names

private theorem root_reached (disk : Disk) (events : List Event) :
    (reached disk events).root = events.findSome? Event.root? := by
  have run := setup_run (start disk) events
  exact (congrArg Setup.root run).trans ((root_foldl _ events).trans Option.none_or)

private theorem findSome?_root?_eq_some_iff {events : List Event} {root : Uri} :
    events.findSome? Event.root? = some root ↔
      ∃ front text back, events = front ++ .setRoot (some text) :: back ∧ NamesRoot text root ∧
        ∀ earlier other, .setRoot (some earlier) ∈ front → ¬NamesRoot earlier other := by
  rw [List.findSome?_eq_some_iff]
  constructor
  · intro ⟨front, event, back, place, found, before⟩
    obtain ⟨text, rfl, names⟩ := root?_eq_some_iff.mp found
    refine ⟨front, text, back, place, names, ?_⟩
    intro earlier other member unnamed
    have nothing := before _ member
    rw [root?_eq_some_iff.mpr ⟨earlier, rfl, unnamed⟩] at nothing
    cases nothing
  · intro ⟨front, text, back, place, names, before⟩
    refine ⟨front, _, back, place, root?_eq_some_iff.mpr ⟨text, rfl, names⟩, ?_⟩
    intro event member
    rw [Option.eq_none_iff_forall_ne_some]
    intro other found
    obtain ⟨earlier, rfl, unnamed⟩ := root?_eq_some_iff.mp found
    exact before earlier other member unnamed

/-- What the editor is answered when it sets a root. -/
inductive RootAnswer (before : Workspace) : Option String → Except WorkspaceError Unit × Workspace → Prop
  | absent (text : Option String) (after : Workspace) (empty : ∀ raw ∈ text, raw.isEmpty = true)
      (same : after.setup = before.setup) : RootAnswer before text (.ok (), after)
  | invalid (raw : String) (error : UriError) (given : raw.isEmpty = false) (fails : Uri.parse raw = .error error)
      (relative : raw.toList.head? ≠ some '/') : RootAnswer before (some raw) (.error (.invalidUri raw error), before)
  | refused (raw : String) (current requested : Uri) (names : NamesRoot raw requested)
      (held : before.root = some current) :
    RootAnswer before (some raw) (.error (.rootAlreadySet current requested), before)
  | taken (raw : String) (requested : Uri) (after : Workspace) (names : NamesRoot raw requested)
      (free : before.root = none) (same : after.setup = { before.setup with root := some requested }) :
    RootAnswer before (some raw) (.ok (), after)

private theorem rootAnswer_setRoot (workspace : Workspace) (text : Option String) :
    RootAnswer workspace text (workspace.setRoot text) := by
  cases text with
  | none => exact .absent none _ nofun rfl
  | some raw =>
    cases given : raw.isEmpty with
    | true =>
      have nothing : workspace.setRoot (some raw) = (.ok (), workspace.log .warning "No workspace uri.") := by
        simp only [setRoot, Option.filter_some, given, Bool.not_true, Bool.false_eq_true, ↓reduceIte]
      rw [nothing]
      refine .absent _ _ (fun other member => ?_) rfl
      cases member
      exact given
    | false =>
      simp only [setRoot, Option.filter_some, given, Bool.not_false, ↓reduceIte]
      cases named : rootOf raw with
      | error error =>
        obtain ⟨fails, relative⟩ := relative_of_rootOf named
        exact .invalid raw error given fails relative
      | ok requested =>
        have names := namesRoot_iff.mpr ⟨given, named⟩
        simp only
        cases held : workspace.root with
        | some current => exact .refused raw current requested names held
        | none => exact .taken raw requested _ names held rfl

/-- In every state reached the root is the first one that was named, and stays it, each further one is refused and each
text that names none is invalid; the settings are those that came last; and the engine is what the first settings made
of it. A payload gives the settings that it brings, the initial ones if it cannot be read, and settings that were
written are given back. -/
theorem setup_reached (disk : Disk) (events : List Event) :
    (∀ root, (reached disk events).root = some root ↔
        ∃ front text back, events = front ++ .setRoot (some text) :: back ∧ NamesRoot text root ∧
          ∀ earlier other, .setRoot (some earlier) ∈ front → ¬NamesRoot earlier other) ∧
      (∀ root more, (reached disk events).root = some root → (reached disk (events ++ more)).root = some root) ∧
      (∀ text, RootAnswer (reached disk events) text ((reached disk events).setRoot text)) ∧
      (reached disk events).settings =
        ((events.filterMap Event.payload?).getLast?.map Settings.ofPayload).getD Settings.initial ∧
      ((reached disk events).acquisition, (reached disk events).engine) =
        ((events.filterMap Event.payload?).head?.map fun payload =>
          Engine.idle.attempt (Settings.ofPayload payload)).getD (.pending, .idle) ∧
      (∀ payload settings, payload.Ordered → Settings.Brings payload settings →
        Settings.ofPayload payload = settings) ∧
      (∀ payload, payload.Ordered → (∀ settings, ¬Settings.Brings payload settings) →
        Settings.ofPayload payload = Settings.initial) ∧
      ∀ settings, settings.maxNumberOfProblems < Nat.pow 2 64 → Settings.ofPayload settings.toJson = settings := by
  have run := setup_run (start disk) events
  refine ⟨?_, ?_, rootAnswer_setRoot _, ?_, ?_, fun _ _ => ofPayload_eq_of_brings, fun _ => ofPayload_eq_initial,
    fun _ => ofPayload_toJson⟩
  · intro requested
    rw [root_reached]
    exact findSome?_root?_eq_some_iff
  · intro requested more held
    rw [root_reached] at held ⊢
    rw [List.findSome?_append, held, Option.some_or]
  · exact (congrArg Setup.settings run).trans (settings_foldl _ events)
  · have same : ((reached disk events).acquisition, (reached disk events).engine) =
        ((reached disk events).setup.acquisition, (reached disk events).setup.engine) := rfl
    rw [same, reached, run]
    exact engine_foldl (start disk).setup events

/-- Settings that ask for an engine that there is none of. -/
def firstPayload : Json :=
  .object [("autorest", .object [("minimumAutoRestVersion", .string "9.0")])]

/-- Settings none of which is the default. -/
def lastSettings : Settings :=
  { maxNumberOfProblems := 3, information := true, verbose := true, debug := true, runtimeId := some "r"
    minimumVersion := some "2.0", configuration := .bool true, informationSeverity := .information }

/-- Settings come twice; a root is named after texts that name none and before another one. -/
def settingRun : List Event :=
  [.setRoot (some ""), .setRoot (some "w"), .configure firstPayload, .setRoot (some "/w"),
    .configure lastSettings.toJson, .setRoot (some "file:///v")]

/-- The root that it names first. -/
def firstRoot : Uri := ⟨"file".toList, some ⟨[], [], none⟩, "/w/".toList, none, none⟩

private theorem root_settingRun : (reached Disk.empty settingRun).root = some firstRoot := by
  decide +kernel

private theorem ordered_firstPayload : firstPayload.Ordered := by
  refine .object _ (List.pairwise_singleton _ _) fun field member => ?_
  obtain rfl := List.mem_singleton.mp member
  refine .object _ (List.pairwise_singleton _ _) fun field member => ?_
  obtain rfl := List.mem_singleton.mp member
  exact .string _

private theorem brings_firstPayload :
    Settings.Brings firstPayload { Settings.initial with minimumVersion := some "9.0" } :=
  .engine _ _ _ [("minimumAutoRestVersion", .string "9.0")] _ rfl rfl rfl ⟨rfl, rfl, rfl, rfl, rfl, rfl, rfl, rfl⟩

/-- The root stays, a text that names none is refused, and the engine is not asked for again by the last settings. -/
theorem setup_reached_sample :
    (reached Disk.empty settingRun).root = some firstRoot ∧
      (reached Disk.empty (settingRun ++ sampleRun)).root = some firstRoot ∧
      RootAnswer (reached Disk.empty settingRun) (some "w") ((reached Disk.empty settingRun).setRoot (some "w")) ∧
      (reached Disk.empty settingRun).settings = lastSettings ∧
      ((reached Disk.empty settingRun).acquisition, (reached Disk.empty settingRun).engine) =
        (.failed (.notAcquired "9.0"), .idle) ∧
      Settings.ofPayload (.bool true) = Settings.initial := by
  obtain ⟨-, stays, answers, settings, engine, brought, unread, written⟩ := setup_reached Disk.empty settingRun
  refine ⟨root_settingRun, stays firstRoot sampleRun root_settingRun, answers (some "w"), ?_, ?_, ?_⟩
  · exact settings.trans (written lastSettings (by decide))
  · have first := brought firstPayload _ ordered_firstPayload brings_firstPayload
    rw [engine]
    simp only [settingRun, List.filterMap_cons, Event.payload?, List.head?_cons, Option.map_some, Option.getD_some, first]
    decide +kernel
  · refine unread (.bool true) (.bool true) fun settings brings => ?_
    cases brings with
    | silent _ entries stands absent => cases stands
    | engine _ node entries inner _ stands found record conveys => cases stands

end Workspace

end SpecServer
