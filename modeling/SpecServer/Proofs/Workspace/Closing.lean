import SpecServer.Proofs.Registry.Survival
import SpecServer.Proofs.Store.Shown
import SpecServer.Proofs.Workspace.Coherence
set_option autoImplicit false

/-!
What the closing of a document does to contexts that it does not belong to. They stay as they are; but a
configuration that is closed takes its inputs with it, also those that another context holds, and so does each
context that does not outlive the closing.
-/

namespace SpecServer

/-- The contexts that a pruning removes are those that do not outlive it. -/
theorem Registry.mem_prune {registry : Registry} (formed : registry.WellFormed) (active : Uri → Bool)
    {context : Context} :
    context ∈ (registry.prune active).1 ↔
      ∃ id, registry.get? id = some context ∧ ¬ (registry.prune active).2.Lives id := by
  have idle : ∀ {id}, registry.get? id = some context →
      ((registry.prune active).2.Lives id ↔ registry.isIdle active (id, context) = false) := by
    intro id found
    simp [Lives, get?_prune formed, found, Option.filter_eq_some_iff]
  simp only [prune, List.mem_map, List.mem_filter]
  constructor
  · rintro ⟨⟨id, _⟩, ⟨member, idles⟩, rfl⟩
    have found := (Entries.get?_eq_some_iff formed.ids).mpr member
    refine ⟨id, found, fun lives => ?_⟩
    cases idles.symm.trans ((idle found).mp lives)
  · rintro ⟨id, found, gone⟩
    refine ⟨(id, context), ⟨Entries.mem_of_get? found, ?_⟩, rfl⟩
    exact Bool.not_eq_false _ |>.mp fun busy => gone ((idle found).mpr busy)

namespace Workspace

-- the model's parser must not be unfolded to compare two keys
attribute [local irreducible] Uri.normalize

variable {workspace : Workspace}

/-! ## What each part of a closing hides -/

private theorem wipes_dropInput (keyed : workspace.store.Keyed) (id : Nat) (input : Uri) :
    Store.Wipes (fun key => isShut workspace.store input.normalize ∧ key = input.normalize) workspace.store
      (dropInput id workspace input).store := by
  simp only [dropInput]
  cases found : workspace.store.get? input with
  | none =>
    have shut : isShut workspace.store input.normalize = false := by
      rw [isShut, Store.status?_of_get?_eq_none found, Option.any_none]
    exact (Store.Wipes.of_shown fun _ => rfl).congr (by simp [shut])
  | some file =>
    have shut : isShut workspace.store input.normalize = !file.active := by
      rw [isShut, Store.status?_of_get? found, Option.any_some]
    simp only
    split
    next active => exact (Store.Wipes.of_shown fun _ => rfl).congr (by simp [shut, active])
    next inactive =>
      refine (Store.wipes_hide workspace.store file.uri).congr fun key => ?_
      simp [shut, inactive, keyed.uri_of_get? found]

private theorem wipes_foldl_dropInput (keyed : workspace.store.Keyed) (id : Nat) (inputs : List Uri) :
    Store.Wipes (fun key => ∃ input ∈ inputs, isShut workspace.store input.normalize ∧ key = input.normalize)
      workspace.store (inputs.foldl (dropInput id) workspace).store := by
  induction inputs generalizing workspace with
  | nil => exact (Store.Wipes.of_shown fun _ => rfl).congr (by simp)
  | cons input rest ih =>
    have status := (dropInput_spec keyed id input).2
    refine ((wipes_dropInput keyed id input).trans (ih (keyed.congr status))).congr fun key => ?_
    simp only [isShut, status, List.mem_cons, or_and_right, exists_or, exists_eq_left]

private theorem wipes_foldl_dispose (workspace : Workspace) (removed : List Context) :
    Store.Wipes (fun key => ∃ context ∈ removed, key ∈ context.tracked) workspace.store
      (removed.foldl dispose workspace).store := by
  induction removed generalizing workspace with
  | nil => exact (Store.Wipes.of_shown fun _ => rfl).congr (by simp)
  | cons context rest ih =>
    have hidden := Store.wipes_foldl_hide workspace.store context.tracked
    refine (hidden.trans (ih (workspace.dispose context))).congr fun key => ?_
    simp only [List.mem_cons, or_and_right, exists_or, exists_eq_left]

private theorem wipes_prune (formed : workspace.registry.WellFormed) :
    Store.Wipes (fun key => ∃ id, workspace.registry.Tracks id key ∧ ¬ workspace.prune.registry.Lives id)
      workspace.store workspace.prune.store := by
  have wipes := wipes_foldl_dispose { workspace with registry := (workspace.registry.prune workspace.store.isActive).2 }
    (workspace.registry.prune workspace.store.isActive).1
  -- what was published is no longer pending, which shows no document differently
  refine (wipes.then (fun _ => rfl : ∀ key, workspace.prune.store.shown? key = _)).congr fun key => ?_
  rw [registry_prune]
  simp only [Registry.mem_prune formed, Registry.Tracks]
  constructor
  · rintro ⟨context, ⟨id, found, gone⟩, member⟩
    exact ⟨id, ⟨context, found, member⟩, gone⟩
  · rintro ⟨id, ⟨context, found, member⟩, gone⟩
    exact ⟨context, ⟨id, found, gone⟩, member⟩

/-! ## A closing -/

/-- The document leaves the context that it belongs to, together with the inputs that only its configuration
showed. -/
def withdraw (workspace : Workspace) (id : Nat) (owner : Context) (document : Uri) : Workspace :=
  let freed :=
    if !owner.isSynthesized && owner.configuration == document then owner.inputs.foldl (dropInput id) workspace
    else workspace
  (freed.modifyFile document.normalize fun file => file.setActive false).depart id owner document document.normalize

theorem withdraw_eq (keyed : workspace.store.Keyed) {document : Uri} {file : Document}
    (found : workspace.store.get? document = some file) (id : Nat) (owner : Context) :
    ((if !owner.isSynthesized && owner.configuration == document then owner.inputs.foldl (dropInput id) workspace
      else workspace).modifyFile file.uri fun file => file.setActive false).depart id owner document file.uri =
        workspace.withdraw id owner document := by
  rw [keyed.uri_of_get? found]
  rfl

private theorem close_eq (keyed : workspace.store.Keyed) {uri : Uri} {id : Nat} {owner : Context}
    (known : (workspace.store.get? uri.normalize).isSome) (owned : workspace.registry.ownerOf uri.normalize = some id)
    (found : workspace.registry.get? id = some owner) :
    workspace.close uri = (workspace.withdraw id owner uri.normalize).prune := by
  obtain ⟨file, held⟩ := Option.isSome_iff_exists.mp known
  rw [← withdraw_eq keyed held]
  unfold close
  simp only [held, owned, found]
  rfl

private theorem close_of_unknown {uri : Uri} (unknown : workspace.store.get? uri.normalize = none) :
    workspace.close uri = workspace := by
  unfold close
  simp only [unknown]

/-- Whether an input goes with the closing of a configuration: it is declared, and not open itself. -/
structure Dropped (before : Workspace) (owner : Context) (document input : Uri) : Prop where
  known : (before.store.get? document).isSome
  real : owner.kind = .real
  own : owner.configuration = document
  declared : input ∈ owner.inputs
  shut : isShut before.store input.normalize

private theorem isOwn_iff {owner : Context} {document : Uri} :
    (!owner.isSynthesized && owner.configuration == document) = true ↔
      owner.kind = .real ∧ owner.configuration = document := by
  cases kind : owner.kind <;> simp [Context.isSynthesized, kind]

private theorem exists_dropped {owner : Context} {document : Uri} (known : (workspace.store.get? document).isSome)
    (own : owner.kind = .real ∧ owner.configuration = document) (key : Uri) :
    (∃ input ∈ owner.inputs, isShut workspace.store input.normalize ∧ key = input.normalize) ↔
      ∃ input, workspace.Dropped owner document input ∧ key = input.normalize := by
  constructor
  · rintro ⟨input, declared, shut, same⟩
    exact ⟨input, ⟨known, own.1, own.2, declared, shut⟩, same⟩
  · rintro ⟨input, drops, same⟩
    exact ⟨input, drops.declared, drops.shut, same⟩

theorem formed_withdraw (sound : workspace.Sound) (id : Nat) (owner : Context) (document : Uri) :
    (workspace.withdraw id owner document).registry.WellFormed := by
  have formed := Registry.wellFormed_outline.mpr sound.formed
  simp only [withdraw]
  rw [← Registry.wellFormed_outline, (depart_spec _ id owner document document.normalize).1]
  refine Registry.WellFormed.leave ?_ _ _ _ _
  split
  · rw [modifyFile, (foldl_dropInput_spec sound.keyed id owner.inputs).1]
    exact formed.foldl_drop id _ owner.inputs
  · exact formed

/-- What the closing takes from the registry before the pruning: keys of the document and of dropped inputs, and
documents that its context tracked. -/
theorem withdraw_spec (keyed : workspace.store.Keyed) (coherent : workspace.registry.outline.Coherent) (id : Nat)
    (owner : Context) {document : Uri} (known : (workspace.store.get? document).isSome) :
    (workspace.withdraw id owner document).registry.outline.Coherent ∧
      (∀ key other, (workspace.withdraw id owner document).registry.outline.target? key = some other ↔
        workspace.registry.target? key = some other ∧ key ≠ .input document ∧
          ¬(owner.kind = .synthesized ∧ key = .synthesized owner.configuration) ∧
          ¬(owner.kind = .real ∧ owner.configuration = document ∧ key = .configuration document) ∧
          ∀ input, workspace.Dropped owner document input → key ≠ .input input) ∧
      (∀ other key, (workspace.withdraw id owner document).registry.Tracks other key ↔
        workspace.registry.Tracks other key ∧ ¬(other = id ∧ key = document.normalize) ∧
          ¬(other = id ∧ ∃ input, workspace.Dropped owner document input ∧ key = input.normalize)) := by
  have left : ∀ freed : Workspace,
      ((freed.modifyFile document.normalize fun file => file.setActive false).depart id owner document
          document.normalize).registry.outline =
        freed.registry.outline.leave id owner.outline document document.normalize :=
    fun freed => (depart_spec (freed.modifyFile document.normalize fun file => file.setActive false) id owner document
      document.normalize).1
  simp only [withdraw, left]
  by_cases own : owner.kind = .real ∧ owner.configuration = document
  · have freed := coherent.foldl_drop id (isShut workspace.store) owner.inputs
    rw [if_pos (isOwn_iff.mpr own), (foldl_dropInput_spec keyed id owner.inputs).1]
    refine ⟨freed.leave _ _ _ _, fun key other => ?_, fun other key => ?_⟩
    · have drops : (∀ input ∈ owner.inputs, isShut workspace.store input.normalize → key ≠ .input input) ↔
          ∀ input, workspace.Dropped owner document input → key ≠ .input input :=
        ⟨fun free input dropped => free input dropped.declared dropped.shut,
          fun free input declared shut => free input ⟨known, own.1, own.2, declared, shut⟩⟩
      rw [Registry.target?_leave, Registry.target?_foldl_drop, Registry.target?_outline, drops]
      simp only [Context.outline_kind, Context.outline_configuration]
      grind
    · rw [← Registry.tracks_outline, left, (foldl_dropInput_spec keyed id owner.inputs).1, Registry.tracks_leave freed,
        Registry.tracks_foldl_drop coherent, Registry.tracks_outline,
        exists_dropped known own]
      grind
  · have none' : ∀ input, ¬ workspace.Dropped owner document input := fun input drops => own ⟨drops.real, drops.own⟩
    rw [if_neg (fun holds => own (isOwn_iff.mp holds))]
    refine ⟨coherent.leave _ _ _ _, fun key other => ?_, fun other key => ?_⟩
    · rw [Registry.target?_leave, Registry.target?_outline]
      simp [none']
    · rw [← Registry.tracks_outline, left, Registry.tracks_leave coherent, Registry.tracks_outline]
      simp [none']

private theorem wipes_withdraw (keyed : workspace.store.Keyed) (id : Nat) (owner : Context) {document : Uri}
    (known : (workspace.store.get? document).isSome) :
    Store.Wipes
      (fun key => (∃ input, workspace.Dropped owner document input ∧ key = input.normalize) ∨ key = document.normalize)
      workspace.store (workspace.withdraw id owner document).store := by
  have left : ∀ freed : Workspace, Store.Wipes (fun key => key = document.normalize) freed.store
      ((freed.modifyFile document.normalize fun file => file.setActive false).depart id owner document
        document.normalize).store := by
    intro freed
    have shut : ∀ key, (freed.modifyFile document.normalize fun file => file.setActive false).store.shown? key =
        freed.store.shown? key :=
      fun key => Store.shown?_modify _ _ key fun _ => rfl
    have hidden := (Store.Wipes.of_shown shut).trans (Store.wipes_hide _ document.normalize)
    refine (hidden.congr fun _ => iff_of_eq (false_or _)).then fun key => ?_
    simp only [depart, untrackAndHide, hide]
    split
    · rfl
    · split <;> rfl
  simp only [withdraw]
  by_cases own : owner.kind = .real ∧ owner.configuration = document
  · rw [if_pos (isOwn_iff.mpr own)]
    refine ((wipes_foldl_dropInput keyed id owner.inputs).trans (left _)).congr fun key => ?_
    rw [exists_dropped known own]
  · have none' : ∀ input, ¬ workspace.Dropped owner document input := fun input drops => own ⟨drops.real, drops.own⟩
    rw [if_neg (fun holds => own (isOwn_iff.mp holds))]
    exact (left workspace).congr fun key => by simp [none']

/-- The closing leaves contexts that the document does not belong to as they are, as long as they live. -/
theorem get?_withdraw (id : Nat) (owner : Context) (document : Uri) {other : Nat} (apart : other ≠ id) :
    (workspace.withdraw id owner document).registry.get? other = workspace.registry.get? other := by
  have dropped : ∀ (inputs : List Uri) (freed : Workspace),
      (inputs.foldl (dropInput id) freed).registry.get? other = freed.registry.get? other := by
    intro inputs
    induction inputs with
    | nil => exact fun _ => rfl
    | cons input rest ih =>
      intro freed
      refine (ih _).trans ?_
      simp only [dropInput]
      split
      · rfl
      · split
        · rfl
        · exact (Registry.get?_modify _ id other _).trans (if_neg apart)
  have left : ∀ freed : Workspace,
      ((freed.modifyFile document.normalize fun file => file.setActive false).depart id owner document
        document.normalize).registry.get? other = freed.registry.get? other := by
    intro freed
    refine (Registry.get?_modify _ id other _).trans ((if_neg apart).trans ?_)
    split
    · rfl
    · split <;> rfl
  simp only [withdraw, left]
  split
  · exact dropped _ _
  · rfl

/-! ## Other contexts -/

/-- Whether a key names a closed document, or is the one of the configuration generated for its context. -/
def IsKeyOf (document : Uri) (owner : Context) (key : ContextKey) : Prop :=
  key = .input document ∨ key = .configuration document ∨ key = .synthesized owner.configuration

/-- What a closing should leave another context with. -/
structure Undisturbed (before : Workspace) (document : Uri) (owner : Context) (other : Nat)
    (after : Workspace) : Prop where
  /-- The context is as it was. -/
  context : after.registry.get? other = before.registry.get? other
  /-- The same keys lead to it, but for those of the document. -/
  keys : ∀ key, ¬ IsKeyOf document owner key →
    (after.registry.lookup key = some other ↔ before.registry.lookup key = some other)
  /-- All that it tracks besides the document shows what it did. -/
  shown : ∀ key, after.registry.Tracks other key → key ≠ document.normalize →
    after.store.shown? key = before.store.shown? key

/-- The ways in which a closing disturbs another context. -/
inductive Disturbs (before : Workspace) (document : Uri) (owner : Context) (other : Nat) (after : Workspace) : Prop
  /-- It removes the key of a dropped input that led to the context. -/
  | unkeyed (input : Uri) (dropped : before.Dropped owner document input) (apart : input ≠ document)
      (led : before.registry.lookup (.input input) = some other)
  /-- It hides what a dropped input shows that the context tracks. -/
  | emptied (input : Uri) (dropped : before.Dropped owner document input) (apart : input.normalize ≠ document.normalize)
      (tracks : before.registry.Tracks other input.normalize) (shows : before.store.Shows input.normalize)
  /-- A context that does not outlive it takes along what a document shows that both track. -/
  | torn (rival : Nat) (key : Uri) (held : before.registry.Tracks rival key) (gone : ¬ after.registry.Lives rival)
      (apart : key ≠ document.normalize) (tracks : before.registry.Tracks other key) (shows : before.store.Shows key)

private theorem undisturbed_of_unknown {document : Uri} {owner : Context} {other : Nat}
    (unknown : workspace.store.get? document = none) :
    Undisturbed workspace document owner other workspace ∧ ¬ Disturbs workspace document owner other workspace := by
  refine ⟨⟨rfl, fun _ _ => .rfl, fun _ _ _ => rfl⟩, fun disturbs => ?_⟩
  have never : ∀ input, ¬ workspace.Dropped owner document input := by
    intro input dropped
    simpa [unknown] using dropped.known
  cases disturbs with
  | unkeyed input dropped _ _ => exact never input dropped
  | emptied input dropped _ _ _ => exact never input dropped
  | torn rival key held gone _ _ _ => exact gone held.lives

/-- What the closing of a known document leaves: the keys of another context, the context, and what is shown. -/
theorem close_known_spec (sound : workspace.Sound) (coherent : workspace.registry.outline.Coherent) {uri : Uri}
    {id other : Nat} {owner : Context} (known : (workspace.store.get? uri.normalize).isSome)
    (owned : workspace.registry.ownerOf uri.normalize = some id) (found : workspace.registry.get? id = some owner)
    (apart : other ≠ id) (lives : (workspace.close uri).registry.Lives other) :
    (workspace.close uri).registry.get? other = workspace.registry.get? other ∧
      (∀ key, ¬ IsKeyOf uri.normalize owner key →
        ((workspace.close uri).registry.lookup key = some other ↔ workspace.registry.lookup key = some other ∧
          ∀ input, workspace.Dropped owner uri.normalize input → key ≠ .input input)) ∧
      Store.Wipes
        (fun key => ((∃ input, workspace.Dropped owner uri.normalize input ∧ key = input.normalize) ∨
            key = uri.normalize.normalize) ∨
          ∃ rival, (workspace.registry.Tracks rival key ∧ ¬(rival = id ∧ key = uri.normalize.normalize) ∧
            ¬(rival = id ∧ ∃ input, workspace.Dropped owner uri.normalize input ∧ key = input.normalize)) ∧
            ¬ (workspace.close uri).registry.Lives rival)
        workspace.store (workspace.close uri).store := by
  have done := close_eq sound.keyed known owned found
  have coherent' := coherent_closed (close_spec sound.formed sound.keyed uri) coherent
  obtain ⟨freed, targets, tracks⟩ := withdraw_spec sound.keyed coherent id owner known
  have wipes := wipes_withdraw sound.keyed id owner known
  have formed := Registry.wellFormed_outline.mp freed.formed
  obtain ⟨outline, -⟩ := prune_spec (workspace.withdraw id owner uri.normalize)
  rw [← done] at outline
  refine ⟨?context, fun key free => ?keys, ?shown⟩
  case context =>
    obtain ⟨context, held⟩ := lives
    have kept := held
    rw [done, registry_prune, Registry.get?_prune formed, Option.filter_eq_some_iff,
      get?_withdraw id owner _ apart] at kept
    rw [held, kept.1]
  case keys =>
    simp only [IsKeyOf, not_or] at free
    rw [← Registry.lookup_outline, coherent'.lookup, outline, Registry.target?_prune_iff freed, targets,
      ← Registry.lookup_outline, coherent.lookup, Registry.target?_outline, ← outline, Registry.lives_outline]
    grind
  case shown =>
    rw [done]
    exact (wipes.trans (wipes_prune formed)).congr fun key => by simp only [tracks]

private theorem undisturbed_close_iff_of_coherent (sound : workspace.Sound)
    (coherent : workspace.registry.outline.Coherent)
    {uri : Uri}
    {id other : Nat} {owner : Context} (owned : workspace.registry.ownerOf uri.normalize = some id)
    (found : workspace.registry.get? id = some owner) (apart : other ≠ id)
    (lives : (workspace.close uri).registry.Lives other) :
    Undisturbed workspace uri.normalize owner other (workspace.close uri) ↔
      ¬ Disturbs workspace uri.normalize owner other (workspace.close uri) := by
  by_cases known : (workspace.store.get? uri.normalize).isSome
  · obtain ⟨context, keys, wipes⟩ := close_known_spec sound coherent known owned found apart lives
    have tracks : ∀ key, (workspace.close uri).registry.Tracks other key ↔ workspace.registry.Tracks other key := by
      intro key
      simp only [Registry.Tracks, context]
    constructor
    · rintro ⟨-, kept, shown⟩ disturbs
      cases disturbs with
      | unkeyed input dropped differs led =>
        have free : ¬ IsKeyOf uri.normalize owner (.input input) := by simp [IsKeyOf, differs]
        exact ((keys _ free).mp ((kept _ free).mpr led)).2 input dropped rfl
      | emptied input dropped differs held shows =>
        have same := shown _ ((tracks _).mpr held) differs
        exact (wipes.shown_iff _).mp same ⟨.inl (.inl ⟨input, dropped, rfl⟩), shows⟩
      | torn rival key held gone differs both shows =>
        have same := shown _ ((tracks _).mpr both) differs
        refine (wipes.shown_iff _).mp same ⟨?_, shows⟩
        by_cases hidden : ∃ input, workspace.Dropped owner uri.normalize input ∧ key = input.normalize
        · exact .inl (.inl hidden)
        · exact .inr ⟨rival, ⟨held, fun same => differs same.2, fun same => hidden same.2⟩, gone⟩
    · intro calm
      refine ⟨context, fun key free => ?_, fun key held differs => ?_⟩
      · rw [keys key free, and_iff_left_iff_imp]
        rintro led input dropped rfl
        exact calm (.unkeyed input dropped (fun same => free (.inl (congrArg _ same))) led)
      · rw [wipes.shown_iff]
        rintro ⟨(⟨input, dropped, rfl⟩ | same) | ⟨rival, ⟨before, -, -⟩, gone⟩, shows⟩
        · exact calm (.emptied input dropped differs ((tracks _).mp held) shows)
        · exact differs same
        · exact calm (.torn rival key before gone differs ((tracks _).mp held) shows)
  · have unknown : workspace.store.get? uri.normalize = none := by simpa using known
    rw [close_of_unknown unknown]
    exact iff_of_true (undisturbed_of_unknown unknown).1 (undisturbed_of_unknown unknown).2

/-- In every state reached, a closing leaves another context that outlives it undisturbed exactly if it neither drops
an input of that context nor takes along what both show. -/
theorem undisturbed_close_iff (disk : Disk) (events : List Event) {uri : Uri} {id other : Nat} {owner : Context}
    (owned : (reached disk events).registry.ownerOf uri.normalize = some id)
    (found : (reached disk events).registry.get? id = some owner) (apart : other ≠ id)
    (lives : ((reached disk events).close uri).registry.Lives other) :
    Undisturbed (reached disk events) uri.normalize owner other ((reached disk events).close uri) ↔
      ¬ Disturbs (reached disk events) uri.normalize owner other ((reached disk events).close uri) :=
  undisturbed_close_iff_of_coherent (sound_reached disk events) (coherent_reached disk events) owned found apart lives

/-- Two configurations, one in a folder below the other, declare the same document. -/
def sharedRun : List Event :=
  [.edit topConfiguration "markdown" "#see https://aka.ms/autorest\ninput-file: w/x.json",
    .edit sampleConfiguration "markdown" "#see https://aka.ms/autorest\ninput-file: x.json"]

private theorem close_sharedRun :
    (reached Disk.empty sharedRun).registry.ownerOf topConfiguration.normalize = some 0 ∧
      ((reached Disk.empty sharedRun).registry.get? 0).isSome ∧
      (((reached Disk.empty sharedRun).close topConfiguration).registry.get? 1).isSome ∧
      (reached Disk.empty sharedRun).registry.lookup (.input sampleDocument) = some 1 ∧
      ((reached Disk.empty sharedRun).close topConfiguration).registry.lookup (.input sampleDocument) = none ∧
      sampleDocument ≠ topConfiguration.normalize := by
  decide +kernel

theorem undisturbed_close_iff_sample :
    (reached Disk.empty sharedRun).registry.ownerOf topConfiguration.normalize = some 0 ∧ 1 ≠ 0 ∧
      ((reached Disk.empty sharedRun).close topConfiguration).registry.Lives 1 ∧
      ∃ owner, (reached Disk.empty sharedRun).registry.get? 0 = some owner ∧
        (Undisturbed (reached Disk.empty sharedRun) topConfiguration.normalize owner 1
            ((reached Disk.empty sharedRun).close topConfiguration) ↔
          ¬ Disturbs (reached Disk.empty sharedRun) topConfiguration.normalize owner 1
            ((reached Disk.empty sharedRun).close topConfiguration)) := by
  obtain ⟨owned, owns, outlives, -⟩ := close_sharedRun
  obtain ⟨owner, found⟩ := Option.isSome_iff_exists.mp owns
  have lives := Option.isSome_iff_exists.mp outlives
  exact ⟨owned, by decide, lives, owner, found,
    undisturbed_close_iff Disk.empty sharedRun owned found (by decide) lives⟩

/-- Where the outer configuration is closed, the key of the document goes, which led to the context of the inner
one. -/
theorem not_always_undisturbed :
    ¬ ∀ (disk : Disk) (events : List Event) (uri : Uri) (id other : Nat) (owner : Context),
      (reached disk events).registry.ownerOf uri.normalize = some id →
      (reached disk events).registry.get? id = some owner → other ≠ id →
      ((reached disk events).close uri).registry.Lives other →
      Undisturbed (reached disk events) uri.normalize owner other ((reached disk events).close uri) := by
  intro always
  obtain ⟨owned, owns, outlives, led, leads, differs⟩ := close_sharedRun
  obtain ⟨owner, found⟩ := Option.isSome_iff_exists.mp owns
  have undisturbed := always Disk.empty sharedRun topConfiguration 0 1 owner owned found (by decide)
    (Option.isSome_iff_exists.mp outlives)
  have free : ¬ IsKeyOf topConfiguration.normalize owner (.input sampleDocument) := by simp [IsKeyOf, differs]
  cases leads.symm.trans ((undisturbed.keys _ free).mpr led)

end Workspace

end SpecServer
