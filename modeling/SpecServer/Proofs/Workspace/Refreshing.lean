import SpecServer.Proofs.Workspace.Accounts
import SpecServer.Workspace.Reads
set_option autoImplicit false

/-!
Which contexts an edit validates. A context that tracks or declares the document is validated on the new text, and
nothing that is validated after it changes what a pass over it would tell.
-/

namespace SpecServer

-- neither the model's parser nor the disk must be unfolded
attribute [local irreducible] Uri.normalize Store.load

theorem Registry.mem_concerned {registry : Registry} (formed : registry.WellFormed) {id : Nat} {context : Context}
    {key : Uri}
    (found : registry.get? id = some context) : id ∈ registry.concerned key ↔ context.concerns key = true := by
  simp only [concerned, List.mem_map, List.mem_filter]
  constructor
  · rintro ⟨⟨other, held⟩, ⟨member, concerns⟩, rfl⟩
    have stored : registry.get? other = some held := (Entries.get?_eq_some_iff formed.ids).mpr member
    exact Option.some.inj (found.symm.trans stored) ▸ concerns
  · exact fun concerns => ⟨(id, context), ⟨(Entries.get?_eq_some_iff formed.ids).mp found, concerns⟩, rfl⟩

private theorem Registry.nodup_concerned {registry : Registry} (formed : registry.WellFormed) (key : Uri) :
    (registry.concerned key).Nodup :=
  formed.ids.sublist (List.filter_sublist.map Prod.fst)

namespace Workspace

variable {workspace before after : Workspace}

/-! ## What is told stays told -/

private theorem events_runPass (workspace : Workspace) (id : Nat) (context : Context) :
    workspace.events <+: (workspace.runPass id context).2.events := by
  obtain ⟨cleared, last, keys, processed, clears, annotates, ended⟩ := runPass_course workspace id context
  rw [ended]
  exact clears.extends.trans (annotates.extends.trans (List.prefix_append _ _))

/-! ## One validation after another -/

/-- The workspace after the validation of a context. A failure goes to the log. -/
def validated (workspace : Workspace) (id : Nat) : Workspace :=
  match workspace.revalidate id with
  | (.ok (), workspace) => workspace
  | (.error error, workspace) => workspace.log .error error.message

theorem revalidateAll_eq (workspace : Workspace) (ids : List Nat) :
    workspace.revalidateAll ids = ids.foldl validated workspace := by
  induction ids generalizing workspace with
  | nil => rfl
  | cons id rest ih =>
    simp only [revalidateAll, List.foldl_cons, validated, ← ih]
    generalize workspace.revalidate id = outcome
    obtain ⟨result, after⟩ := outcome
    cases result <;> rfl

private theorem revalidateAll_append (workspace : Workspace) (front : List Nat) (id : Nat) (rest : List Nat) :
    workspace.revalidateAll (front ++ id :: rest) = ((workspace.revalidateAll front).validated id).revalidateAll rest := by
  simp only [revalidateAll_eq, List.foldl_append, List.foldl_cons]

theorem registry_validated (workspace : Workspace) (id : Nat) :
    (workspace.validated id).registry = (workspace.revalidate id).2.registry := by
  simp only [validated]
  split
  next passed => rw [passed]
  next failed =>
    rw [failed]
    rfl

/-- What validations of some contexts leave as it is. -/
structure Validates (ids : List Nat) (before after : Workspace) : Prop where
  reads : before.store.Reads after.store
  others : ∀ id ∉ ids, after.registry.get? id = before.registry.get? id
  events : before.events <+: after.events

private theorem Validates.trans {front back : List Nat} {first second third : Workspace}
    (left : Validates front first second)
    (right : Validates back second third) : Validates (front ++ back) first third := by
  refine ⟨left.reads.trans right.reads, fun id other => ?_, left.events.trans right.events⟩
  rw [List.mem_append, not_or] at other
  exact (right.others id other.2).trans (left.others id other.1)

theorem validates_runPass (keyed : workspace.store.Keyed) (id : Nat) (context : Context) :
    Validates [id] workspace (workspace.runPass id context).2 := by
  have told := events_runPass workspace id context
  have ended := runPass_spec keyed id context
  generalize workspace.runPass id context = outcome at told ended ⊢
  obtain ⟨result, after⟩ := outcome
  have others : ∀ {changed : Context}, after.registry = workspace.registry.set id changed →
      ∀ other ∉ [id], after.registry.get? other = workspace.registry.get? other := by
    intro changed registry other apart
    rw [registry, Registry.set, Registry.get?_modify, if_neg fun same => apart (List.mem_singleton.mpr same)]
  cases ended with
  | failed _ _ _ registry reads => exact ⟨reads, others registry, told⟩
  | done _ _ _ registry reads _ => exact ⟨reads, others registry, told⟩

theorem validates_validated (keyed : workspace.store.Keyed) (id : Nat) :
    Validates [id] workspace (workspace.validated id) := by
  have still : Validates [id] workspace workspace := ⟨.rfl keyed, fun _ _ => rfl, List.prefix_rfl⟩
  have first : Validates [id] workspace (workspace.revalidate id).2 := by
    simp only [revalidate]
    split
    · exact still
    · split
      · exact still
      · exact validates_runPass keyed id _
  simp only [validated]
  split
  next passed =>
    rw [passed] at first
    exact first
  next failed =>
    rw [failed] at first
    exact ⟨first.reads, first.others, first.events.trans (List.prefix_append _ _)⟩

theorem validates_revalidateAll (keyed : workspace.store.Keyed) (ids : List Nat) :
    Validates ids workspace (workspace.revalidateAll ids) := by
  rw [revalidateAll_eq]
  induction ids generalizing workspace with
  | nil => exact ⟨.rfl keyed, fun _ _ => rfl, List.prefix_rfl⟩
  | cons id rest ih =>
    have first := validates_validated keyed id
    exact first.trans (ih first.reads.keyed)

private theorem fst_runPass (workspace : Workspace) (id : Nat) (context : Context) :
    (workspace.runPass id context).1 = (workspace.verdict context).map fun _ => () := by
  simp only [runPass, verdict]
  split <;> simp only [*] <;> rfl

/-- What a pass over a context would tell does not change by that pass, nor by those over other contexts. -/
theorem verdict_of_passed {prior : Workspace} {id : Nat} {former context : Context} (keyed : prior.store.Keyed)
    (reads : prior.store.Reads after.store) (stood : prior.registry.get? id = some former)
    (found : (prior.runPass id former).2.registry.get? id = some context) :
    after.verdict context = prior.verdict former := by
  have ended := runPass_spec keyed id former
  generalize prior.runPass id former = outcome at found ended
  obtain ⟨result, passed⟩ := outcome
  rw [verdict_eq reads.keyed, verdict_eq keyed, reads.reading]
  cases ended with
  | failed _ _ _ registry _ =>
    rw [registry, Registry.set, Registry.get?_modify, if_pos rfl, stood, Option.map_some] at found
    rw [← Option.some.inj found]
  | done view _ _ registry _ _ =>
    rw [registry, Registry.set, Registry.get?_modify, if_pos rfl, stood, Option.map_some] at found
    rw [← Option.some.inj found]
    rfl

/-! ## The document of an edit -/

private theorem file?_opened (workspace : Workspace) (uri : Uri) (text : String) :
    (workspace.opened uri text).store.file? uri.normalize.normalize.normalize =
      ((workspace.store.acquire uri.normalize.normalize none).file? uri.normalize.normalize.normalize).map fun file =>
        (file.setActive true).setContent (some text) := by
  obtain ⟨key, -, store⟩ := acquire_spec workspace uri.normalize none
  simp only [opened, modifyFile, key, store, Store.file?_modify, ↓reduceIte]

theorem content_opened (workspace : Workspace) (uri : Uri) (text : String) :
    ∃ document, (workspace.opened uri text).store.file? uri.normalize.normalize.normalize = some document ∧
      document.content = some text := by
  obtain ⟨document, found⟩ := Option.isSome_iff_exists.mp (known_opened workspace uri text)
  refine ⟨document, found, ?_⟩
  rw [file?_opened] at found
  obtain ⟨former, -, rfl⟩ := Option.map_eq_some_iff.mp found
  rfl

private theorem generation_opened {uri : Uri} {document : Document}
    (found : workspace.store.file? uri.normalize.normalize.normalize = some document) (text : String) :
    ∃ later, (workspace.opened uri text).store.file? uri.normalize.normalize.normalize = some later ∧
      document.generation < later.generation := by
  refine ⟨(document.setActive true).setContent (some text), ?_, Nat.lt_succ_self document.generation⟩
  rw [file?_opened, Store.file?_acquire, found, Option.some_or, Option.map_some]

/-- A context whose last pass saw a generation of the document that was opened is not up to date. -/
theorem stale_opened {held pending replaced : Uri → Prop} {ready : Workspace} {store : Store} {uri : Uri} {text : String}
    (normal : uri.normalize.normalize = uri.normalize) (accounted : Accounted held pending before)
    (turned : Turned held replaced (before.opened uri text) ready) (reads : ready.store.Reads store) {id : Nat}
    {context : Context} (found : ready.registry.get? id = some context)
    (noted : uri.normalize ∈ context.tracked ∨ uri.normalize ∈ context.inputs) :
    context.isUpToDate (context.generations store) = false := by
  -- the document as it is now
  have key : uri.normalize.normalize.normalize = uri.normalize := by rw [normal, normal]
  obtain ⟨opened, open', -⟩ := content_opened before uri text
  obtain ⟨middle, met, ages⟩ := turned.store.documents _ opened open'
  obtain ⟨now, stored, ages'⟩ := (reads.elapses held replaced).documents _ middle met
  rw [key] at stored
  have known : store.get? uri.normalize = some now := by rw [Store.get?, normal, stored]
  refine Bool.eq_false_iff.mpr fun same => ?_
  have processed : context.processed = some (context.generations store) := beq_iff_eq.mp same
  rcases turned.contexts id context found with new | ⟨earlier, stood, follows⟩
  · cases new.symm.trans processed
  · obtain ⟨generation, member⟩ := Context.noted_generations store
      (noted.imp_right fun declared => ⟨declared, Option.isSome_iff_exists.mpr ⟨now, known⟩⟩)
    have current : generation = now.generation := by
      rcases Context.mem_generations member with ⟨-, same⟩ | ⟨document, found', same⟩
      · rw [same, stored]
        rfl
      · rw [same, Option.some.inj (found'.symm.trans known)]
    rw [(opened_spec before uri text).1] at stood
    obtain ⟨former, kept, bound⟩ := (accounted.contexts id earlier stood).bounded _ (follows.processed ▸ processed) _ _
      member normal
    obtain ⟨opened', open'', newer⟩ := generation_opened (key.symm ▸ kept) text
    obtain rfl := Option.some.inj (open''.symm.trans open')
    have := ages.generation
    have := ages'.generation
    omega

/-! ## Edits -/

theorem nodup_affected (formed : workspace.registry.WellFormed) (id : Nat) (document : Uri) :
    (workspace.affected id document).Nodup := by
  have concerned := Registry.nodup_concerned formed document
  simp only [affected]
  split
  · exact concerned
  next absent =>
    rw [List.contains_iff_mem] at absent
    refine List.nodup_append.mpr ⟨concerned, by simp, fun other member last single => ?_⟩
    rw [List.mem_singleton.mp single]
    exact fun same => absent (same ▸ member)

private theorem mem_affected (formed : workspace.registry.WellFormed) {id chosen : Nat} {context : Context}
    {document : Uri}
    (found : workspace.registry.get? id = some context) (working : context.activated = true)
    (noted : document ∈ context.tracked ∨ document ∈ context.inputs) : id ∈ workspace.affected chosen document := by
  have concerns : context.concerns document = true := by
    simp only [Context.concerns, working, Context.isTracking, Bool.true_and, Bool.or_eq_true, List.contains_iff_mem]
    exact noted.elim (fun tracked => .inl (.inl tracked)) .inr
  have member := (Registry.mem_concerned formed found).mpr concerns
  simp only [affected]
  split
  · exact member
  · exact List.mem_append_left _ member

theorem accounted_reached (disk : Disk) (events : List Event) :
    Accounted (fun _ => True) (fun _ => True) (reached disk events) := by
  suffices kept : ∀ workspace : Workspace, workspace.Sound → Accounted (fun _ => True) (fun _ => True) workspace →
      Accounted (fun _ => True) (fun _ => True) (workspace.run events) from kept _ (sound_start disk) (accounted_start disk)
  induction events with
  | nil => exact fun _ _ accounted => accounted
  | cons event rest ih =>
    intro workspace sound accounted
    exact ih _ (sound.stepped (step_spec sound event))
      (accounted.step sound event (fun _ _ => trivial) (fun _ _ _ => trivial) fun _ _ => trivial)

/-- A failure of a pass is in the log after the validations that follow it. -/
theorem logged_validated {id : Nat} {context : Context} (keyed : workspace.store.Keyed)
    (ran : workspace.revalidate id = workspace.runPass id context) (rest : List Nat) {error : EngineError}
    (failed : workspace.verdict context = .error error) :
    .record ⟨.error, error.message⟩ ∈ ((workspace.validated id).revalidateAll rest).events := by
  have told := (validates_revalidateAll (validates_validated keyed id).reads.keyed rest).events
  have failure := fst_runPass workspace id context
  refine told.subset ?_
  rw [failed] at failure
  simp only [validated, ran]
  generalize workspace.runPass id context = outcome at failure ⊢
  obtain ⟨result, after⟩ := outcome
  obtain rfl : result = .error error := failure
  simp [log]

/-- Whether among some validations a pass runs over a context. What it tells, or its failure, which goes to the log, is
what a pass would tell in the end, too. -/
structure Reruns (ready : Workspace) (ids : List Nat) (id : Nat) (context : Context) (prior : Workspace)
    (former : Context) : Prop where
  among : ∃ front rest, ids = front ++ id :: rest ∧ prior = ready.revalidateAll front ∧
    ready.revalidateAll ids = (prior.validated id).revalidateAll rest
  found : prior.registry.get? id = some former
  ran : prior.revalidate id = prior.runPass id former
  logged : ∀ error, prior.verdict former = .error error →
    .record ⟨.error, error.message⟩ ∈ (ready.revalidateAll ids).events
  told : (ready.revalidateAll ids).verdict context = prior.verdict former

/-- Each context that is validated and cannot be skipped is passed over. -/
theorem reruns_revalidateAll (keyed : workspace.store.Keyed) {ids : List Nat} (distinct : ids.Nodup) {id : Nat}
    (member : id ∈ ids) {context : Context} (found : (workspace.revalidateAll ids).registry.get? id = some context)
    (working : context.activated = true)
    (stale : workspace.registry.get? id = some context → ∀ store, workspace.store.Reads store →
      context.isUpToDate (context.generations store) = false) :
    ∃ prior former, Reruns workspace ids id context prior former ∧ workspace.store.Reads prior.store := by
  obtain ⟨front, rest, rfl⟩ := List.append_of_mem member
  obtain ⟨-, last, apart⟩ := List.nodup_append.mp distinct
  have sooner := validates_revalidateAll keyed front
  have now := validates_validated sooner.reads.keyed id
  have later := validates_revalidateAll now.reads.keyed rest
  have split' := revalidateAll_append workspace front id rest
  generalize reached : workspace.revalidateAll front = prior at sooner now later split'
  have stood : prior.registry.get? id = workspace.registry.get? id :=
    sooner.others id fun before => apart id before id List.mem_cons_self rfl
  have kept : (prior.validated id).registry.get? id = some context := by
    rw [← found, split', later.others id (List.nodup_cons.mp last).1]
  cases former? : prior.registry.get? id with
  | none =>
    have still : prior.revalidate id = (.ok (), prior) := by simp only [revalidate, former?]
    rw [validated, still, former?] at kept
    cases kept
  | some former =>
    by_cases skipped : (!former.activated || former.isUpToDate (former.generations prior.store)) = true
    · have still : prior.revalidate id = (.ok (), prior) := by simp only [revalidate, former?, skipped, ↓reduceIte]
      rw [validated, still, former?] at kept
      obtain rfl := Option.some.inj kept
      rw [working, stale (stood ▸ former?) prior.store sooner.reads] at skipped
      cases skipped
    · have ran : prior.revalidate id = prior.runPass id former := by
        simp only [revalidate, former?, skipped, Bool.false_eq_true, ↓reduceIte]
      rw [registry_validated, ran] at kept
      refine ⟨prior, former, ⟨⟨front, rest, rfl, reached.symm, split'⟩, former?, ran, fun error failed => ?_, ?_⟩,
        sooner.reads⟩
      · rw [split']
        exact logged_validated sooner.reads.keyed ran rest failed
      · rw [split']
        exact verdict_of_passed sooner.reads.keyed (now.reads.trans later.reads) former? kept

/-- The end of an edit passes over every context at work that tracks or declares the document. -/
theorem reruns_engage {held pending replaced : Uri → Prop} {ready : Workspace} {uri : Uri} {text : String}
    (normal : uri.normalize.normalize = uri.normalize) (accounted : Accounted held pending before) (sound : ready.Sound)
    (turned : Turned held replaced (before.opened uri text) ready) {id chosen : Nat} {context : Context}
    (found : (ready.revalidateAll (ready.affected chosen uri.normalize)).registry.get? id = some context)
    (working : context.activated = true) (noted : uri.normalize ∈ context.tracked ∨ uri.normalize ∈ context.inputs) :
    ∃ prior former, Reruns ready (ready.affected chosen uri.normalize) id context prior former ∧
      ready.store.Reads prior.store := by
  have member : id ∈ ready.affected chosen uri.normalize := by
    refine Decidable.not_not.mp fun left => left (mem_affected sound.formed ?_ working noted)
    rw [← (validates_revalidateAll sound.keyed _).others id left]
    exact found
  exact reruns_revalidateAll sound.keyed (nodup_affected sound.formed chosen uri.normalize) member found working
    fun stood _ reads => stale_opened normal accounted turned reads stood noted

/-- Whether an edit validates a context on the new text. -/
def Refreshed (before : Workspace) (uri : Uri) (text : String) (id : Nat) (context : Context) (after : Workspace) :
    Prop :=
  ∃ chosen settled prior former, (before.opened uri text).resolve uri.normalize = (.ok chosen, settled) ∧
    after = (settled.enlisted chosen uri.normalize.normalize.normalize).revalidateAll
      ((settled.enlisted chosen uri.normalize.normalize.normalize).affected chosen uri.normalize) ∧
    Reruns (settled.enlisted chosen uri.normalize.normalize.normalize)
      ((settled.enlisted chosen uri.normalize.normalize.normalize).affected chosen uri.normalize) id context prior former ∧
    prior.store.reading uri = .ok (some text)

/-- An edit validates every context at work that tracks or declares the document, on the new text. -/
theorem refreshed_edited (disk : Disk) (events : List Event) {uri : Uri} {language text : String}
    (analysed : isAnalysed language = true) (normal : uri.normalize.normalize = uri.normalize)
    (done : ((reached disk events).edit uri language text).1 = .ok ()) {id : Nat} {context : Context}
    (found : ((reached disk events).edit uri language text).2.registry.get? id = some context)
    (working : context.activated = true) (noted : uri.normalize ∈ context.tracked ∨ uri.normalize ∈ context.inputs) :
    Refreshed (reached disk events) uri text id context ((reached disk events).edit uri language text).2 := by
  have sound := sound_reached disk events
  have accounted := accounted_reached disk events
  generalize reached disk events = before at done found sound accounted ⊢
  have sound' := sound_opened sound uri text
  have resolved := resolve_spec sound'.formed sound'.keyed uri.normalize
  have turned : ∀ chosen settled, (before.opened uri text).resolve uri.normalize = (.ok chosen, settled) →
      Turned (fun _ => True) (fun _ => False) (before.opened uri text)
        (settled.enlisted chosen uri.normalize.normalize.normalize) :=
    fun _ _ resolved => turned_ready sound uri text (fun _ _ => trivial) resolved
  simp only [Refreshed]
  rw [edit_of_analysed before uri text analysed] at done found ⊢
  generalize (before.opened uri text).resolve uri.normalize = outcome at done found resolved turned ⊢
  obtain ⟨result, settled⟩ := outcome
  cases result with
  | error error => cases done
  | ok chosen =>
    have turned := turned chosen settled rfl
    have formed := formed_enlisted (sound'.resolved resolved).formed chosen uri.normalize.normalize.normalize
    simp only [engage_eq] at found formed ⊢
    refine ⟨chosen, settled, ?_⟩
    generalize settled.enlisted chosen uri.normalize.normalize.normalize = ready at found turned formed ⊢
    obtain ⟨prior, former, reruns, reads⟩ :=
      reruns_engage normal accounted ⟨formed, turned.store.keyed sound'.keyed⟩ turned found working noted
    refine ⟨prior, former, rfl, rfl, reruns, ?_⟩
    obtain ⟨document, stored, content⟩ := content_opened before uri text
    obtain ⟨later, stored', ages⟩ := turned.store.documents _ document stored
    rw [normal, normal] at stored'
    rw [reads.reading, Store.reading_eq, stored']
    simp only [Document.reading, ages.lasting not_false text content]

/-- A configuration declares a document, which is not open yet. -/
def declaringRun : List Event :=
  [.edit topConfiguration "markdown" "#see https://aka.ms/autorest\ninput-file: x"]

private theorem edit_declaringRun :
    isAnalysed "yaml" = true ∧ topDocument.normalize.normalize = topDocument.normalize ∧
      ((reached Disk.empty declaringRun).edit topDocument "yaml" "a: 1").1.toOption = some () ∧
      (((reached Disk.empty declaringRun).edit topDocument "yaml" "a: 1").2.registry.get? 0).map (fun context =>
        (context.activated, context.tracked.contains topDocument.normalize)) = some (true, true) := by
  decide +kernel

theorem refreshed_edited_sample :
    ∃ context, ((reached Disk.empty declaringRun).edit topDocument "yaml" "a: 1").2.registry.get? 0 = some context ∧
      Refreshed (reached Disk.empty declaringRun) topDocument "a: 1" 0 context
        ((reached Disk.empty declaringRun).edit topDocument "yaml" "a: 1").2 := by
  obtain ⟨analysed, normal, done, found⟩ := edit_declaringRun
  obtain ⟨context, held, site⟩ := Option.map_eq_some_iff.mp found
  simp only [Prod.mk.injEq, List.contains_iff_mem] at site
  exact ⟨context, held, refreshed_edited Disk.empty declaringRun analysed normal (ok_of_toOption done) held site.1
    (.inl site.2)⟩

/-- The documents that a pass over a context reads: the configuration, the inputs, and what their references lead to. -/
def consulted (workspace : Workspace) (context : Context) : List Uri :=
  context.session.configuration ::
    match context.session.viewIn workspace.store.reading with
    | .error _ => []
    | .ok view =>
      context.session.inputsOf view ++ (context.session.inputsOf view).flatMap workspace.referenced

/-- A document refers to another one, which is not open yet. -/
def referringRun : List Event :=
  [.edit topDocument "yaml" "$ref: y#/t"]

private theorem edit_referringRun :
    ((reached Disk.empty referringRun).edit secondDocument "yaml" "t: 1").1.toOption = some () ∧
      (((reached Disk.empty referringRun).edit secondDocument "yaml" "t: 1").2.registry.get? 0).map (fun context =>
        (context.activated,
          (((reached Disk.empty referringRun).edit secondDocument "yaml" "t: 1").2.consulted context).contains
            secondDocument.normalize)) = some (true, true) ∧
      (((reached Disk.empty referringRun).opened secondDocument "t: 1").resolve secondDocument.normalize).1.toOption =
        some 1 ∧
      ((((reached Disk.empty referringRun).opened secondDocument "t: 1").resolve secondDocument.normalize).2.enlisted 1
        secondDocument.normalize.normalize.normalize).affected 1 secondDocument.normalize = [1] := by
  decide +kernel

/-- A context that only refers to a document is not validated when the document is opened. -/
theorem not_always_refreshed :
    ¬ ∀ (disk : Disk) (events : List Event) (uri : Uri) (language text : String),
      ((reached disk events).edit uri language text).1 = .ok () → ∀ (id : Nat) (context : Context),
      ((reached disk events).edit uri language text).2.registry.get? id = some context → context.activated = true →
      uri.normalize ∈ ((reached disk events).edit uri language text).2.consulted context →
      Refreshed (reached disk events) uri text id context ((reached disk events).edit uri language text).2 := by
  intro always
  obtain ⟨done, found, resolved, affected⟩ := edit_referringRun
  obtain ⟨context, held, site⟩ := Option.map_eq_some_iff.mp found
  simp only [Prod.mk.injEq, List.contains_iff_mem] at site
  obtain ⟨chosen, settled, prior, former, searched, -, reruns, -⟩ := always Disk.empty referringRun secondDocument "yaml"
    "t: 1" (ok_of_toOption done) 0 context held site.1 site.2
  obtain ⟨front, rest, among, -⟩ := reruns.among
  rw [searched] at resolved affected
  obtain rfl := Option.some.inj resolved
  have member : 0 ∈ [1] := affected ▸ among ▸ List.mem_append_right front List.mem_cons_self
  exact absurd member (by decide)

end Workspace

end SpecServer
