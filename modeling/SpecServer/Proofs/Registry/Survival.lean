import SpecServer.Proofs.Registry.Tracking
set_option autoImplicit false

/-!
Which contexts and which keys outlive each move. A context keeps its kind and its configuration as long as it
lives; settling may found one, pruning takes away those that nothing keeps alive, and letting go takes away
keys.
-/

namespace SpecServer.Registry

variable {registry : Registry}

/-- Whether a number stands for a living context of a kind and a configuration. -/
def Sits (registry : Registry) (id : Nat) (kind : ContextKind) (configuration : Uri) : Prop :=
  ∃ context, registry.get? id = some context ∧ context.kind = kind ∧ context.configuration = configuration

theorem Sits.lives {id : Nat} {kind : ContextKind} {configuration : Uri} (sits : registry.Sits id kind configuration) :
    registry.Lives id := by
  obtain ⟨context, found, -, -⟩ := sits
  exact ⟨context, found⟩

theorem Lives.sits {id : Nat} (lives : registry.Lives id) : ∃ kind configuration, registry.Sits id kind configuration := by
  obtain ⟨context, found⟩ := lives
  exact ⟨context.kind, context.configuration, context, found, rfl, rfl⟩

theorem Sits.unique {id : Nat} {kind kind' : ContextKind} {configuration configuration' : Uri}
    (sits : registry.Sits id kind configuration) (sits' : registry.Sits id kind' configuration') :
    kind = kind' ∧ configuration = configuration' := by
  obtain ⟨context, found, rfl, rfl⟩ := sits
  obtain ⟨other, found', rfl, rfl⟩ := sits'
  have same : context = other := Option.some.inj (found.symm.trans found')
  exact ⟨same ▸ rfl, same ▸ rfl⟩

theorem sits_outline {id : Nat} {kind : ContextKind} {configuration : Uri} :
    registry.outline.Sits id kind configuration ↔ registry.Sits id kind configuration := by
  simp only [Sits, get?_outline, Option.map_eq_some_iff]
  constructor
  · rintro ⟨-, ⟨context, found, rfl⟩, site⟩
    exact ⟨context, found, site⟩
  · rintro ⟨context, found, site⟩
    exact ⟨_, ⟨context, found, rfl⟩, site⟩

private theorem sits_modify (registry : Registry) (id : Nat) {change : Context → Context}
    (site : ∀ context, Context.SameSite context (change context)) {other : Nat} {kind : ContextKind} {configuration : Uri} :
    (registry.modify id change).Sits other kind configuration ↔ registry.Sits other kind configuration := by
  simp only [Sits, get?_modify]
  split
  · cases registry.get? other with
    | none => simp
    | some context => simp [(site context).kind, (site context).configuration]
  · rfl

@[simp] theorem sits_removeKey (key : ContextKey) (id : Nat) (kind : ContextKind) (configuration : Uri) :
    (registry.removeKey key).Sits id kind configuration ↔ registry.Sits id kind configuration := .rfl

@[simp] theorem sits_hold (id other : Nat) (key : Uri) (kind : ContextKind) (configuration : Uri) :
    (registry.hold id key).Sits other kind configuration ↔ registry.Sits other kind configuration :=
  sits_modify registry id fun context => Context.sameSite_track context key

@[simp] theorem sits_untrack (id other : Nat) (key : Uri) (kind : ContextKind) (configuration : Uri) :
    (registry.modify id fun context => context.untrack key).Sits other kind configuration ↔
      registry.Sits other kind configuration :=
  sits_modify registry id fun context => (⟨rfl, rfl⟩ : Context.SameSite context (context.untrack key))

@[simp] theorem target?_hold (registry : Registry) (id : Nat) (key : Uri) (other : ContextKey) :
    (registry.hold id key).target? other = registry.target? other := rfl

theorem Coherent.sits (coherent : registry.Coherent) {key : ContextKey} {id : Nat} (target : registry.target? key = some id) :
    registry.Lives id := by
  obtain ⟨context, found, -⟩ := coherent.fits key id target
  exact ⟨context, found⟩

/-- Only keys of inputs and the key of its generated configuration lead to a generated context. -/
theorem Coherent.key_of_synthesized (coherent : registry.Coherent) {key : ContextKey} {id : Nat} {configuration : Uri}
    (target : registry.target? key = some id) (sits : registry.Sits id .synthesized configuration) :
    key = .synthesized configuration ∨ ∃ document, key = .input document := by
  obtain ⟨context, found, kind, rfl⟩ := sits
  obtain ⟨other, met, fits⟩ := coherent.fits key id target
  obtain rfl : context = other := Option.some.inj (found.symm.trans met)
  cases key with
  | folder folder => cases kind.symm.trans fits.1
  | configuration configuration => cases kind.symm.trans fits
  | input document => exact .inr ⟨document, rfl⟩
  | synthesized configuration => exact .inl (congrArg ContextKey.synthesized fits.2.symm)

/-! ## Settling -/

theorem Settled.sits {before after : Registry} {document : Uri} {choice : Choice} {id : Nat}
    (settled : Settled before document choice id after) {other : Nat} {kind : ContextKind} {configuration : Uri} :
    after.Sits other kind configuration ↔ before.Sits other kind configuration ∨
      (other = id ∧ ¬ before.Lives id ∧ kind = choice.kind ∧ configuration = choice.configuration document) := by
  have site := fun context => Context.sameSite_foldl_track context choice.taken
  simp only [Sits, Lives, settled.context]
  split
  next same =>
    subst same
    cases before.get? other with
    | none => simp [(site _).kind, (site _).configuration, Choice.founder, Context.start, Session.start, eq_comm]
    | some context => simp [(site _).kind, (site _).configuration]
  next apart => simp [apart]

/-- The context that a document settles in is of the kind that the choice says. -/
theorem Settled.sits_seat {before after : Registry} {document : Uri} {choice : Choice} {id : Nat}
    (coherent : before.Coherent) (settled : Settled before document choice id after) :
    ∃ configuration, after.Sits id choice.kind configuration ∧
      (choice.kind = .synthesized → configuration = choice.configuration document) := by
  have site := Context.sameSite_foldl_track ((before.get? id).getD (choice.founder document)) choice.taken
  have fits := settled.fits coherent
  have found := (settled.context id).trans (if_pos rfl)
  refine ⟨_, ⟨_, found, ?_, rfl⟩, fun generated => ?_⟩
  · rw [site.kind]
    cases choice with
    | own inputs => exact fits.1
    | declared configuration => exact fits.1
    | generated configuration => exact fits.1
  · rw [site.configuration]
    cases choice with
    | own inputs => cases generated
    | declared configuration => cases generated
    | generated configuration => exact fits.2

/-! ## Pruning -/

/-- A context outlives the pruning if a key leads to it and, where it is real, one of its documents is open. -/
theorem lives_prune (formed : registry.WellFormed) (active : Uri → Bool) {id : Nat} :
    (registry.prune active).2.Lives id ↔ ∃ kind configuration, registry.Sits id kind configuration ∧
      (∃ key, registry.target? key = some id) ∧ (kind = .real → ∃ document, registry.Tracks id document ∧ active document) := by
  have keyed : registry.keys.any (·.2 == id) = true ↔ ∃ key, registry.target? key = some id := by
    simp only [List.any_eq_true, beq_iff_eq, target?_eq_some_iff formed]
    constructor
    · rintro ⟨⟨key, _⟩, member, rfl⟩
      exact ⟨key, member⟩
    · rintro ⟨key, member⟩
      exact ⟨_, member, rfl⟩
  simp only [Lives, get?_prune formed, Option.filter_eq_some_iff, isIdle, Bool.not_or, Bool.not_not, Bool.and_eq_true,
    Bool.not_and, Bool.or_eq_true, keyed]
  constructor
  · rintro ⟨context, found, leads, used⟩
    refine ⟨context.kind, context.configuration, ⟨context, found, rfl, rfl⟩, leads, fun real => ?_⟩
    rcases used with synthesized | active'
    · simp [Context.isSynthesized, real] at synthesized
    · obtain ⟨document, member, open'⟩ := List.any_eq_true.mp active'
      exact ⟨document, ⟨context, found, member⟩, open'⟩
  · rintro ⟨kind, configuration, ⟨context, found, rfl, rfl⟩, leads, used⟩
    refine ⟨context, found, leads, ?_⟩
    cases kind : context.kind with
    | synthesized => exact .inl (by simp [Context.isSynthesized, kind])
    | real =>
      obtain ⟨document, ⟨other, met, member⟩, open'⟩ := used kind
      obtain rfl : context = other := Option.some.inj (found.symm.trans met)
      exact .inr (List.any_eq_true.mpr ⟨document, member, open'⟩)

theorem sits_prune (formed : registry.WellFormed) (active : Uri → Bool) {id : Nat} {kind : ContextKind} {configuration : Uri} :
    (registry.prune active).2.Sits id kind configuration ↔
      registry.Sits id kind configuration ∧ (registry.prune active).2.Lives id := by
  simp only [Sits, Lives, get?_prune formed, Option.filter_eq_some_iff]
  constructor
  · rintro ⟨context, ⟨found, stays⟩, site⟩
    exact ⟨⟨context, found, site⟩, context, found, stays⟩
  · rintro ⟨⟨context, found, site⟩, other, met, stays⟩
    obtain rfl : context = other := Option.some.inj (found.symm.trans met)
    exact ⟨context, ⟨found, stays⟩, site⟩

theorem target?_prune_iff (coherent : registry.Coherent) (active : Uri → Bool) {key : ContextKey} {id : Nat} :
    (registry.prune active).2.target? key = some id ↔
      registry.target? key = some id ∧ (registry.prune active).2.Lives id := by
  constructor
  · intro target
    have lives := (coherent.prune active).sits target
    rw [target?_prune coherent.formed, Option.filter_eq_some_iff] at target
    exact ⟨target.1, lives⟩
  · rintro ⟨target, context, found⟩
    rw [get?_prune coherent.formed, Option.filter_eq_some_iff] at found
    rw [target?_prune coherent.formed, target, Option.filter_some, found.1, Option.any_some, if_pos found.2]

/-- A generated context outlives the pruning by the key of its configuration. -/
theorem Coherent.outlives_synthesized (coherent : registry.Coherent) (active : Uri → Bool) {id : Nat} {configuration : Uri}
    (target : registry.target? (.synthesized configuration) = some id) : (registry.prune active).2.Lives id := by
  obtain ⟨context, found, kind, -⟩ := coherent.fits _ id target
  refine (lives_prune coherent.formed active).mpr ⟨.synthesized, _, ⟨context, found, kind, rfl⟩, ⟨_, target⟩, ?_⟩
  exact fun real => nomatch real

theorem Coherent.outlives_real (coherent : registry.Coherent) (active : Uri → Bool) {id : Nat} {document configuration : Uri}
    (sits : registry.Sits id .real configuration) (tracks : registry.Tracks id document) (open' : active document) :
    (registry.prune active).2.Lives id := by
  refine (lives_prune coherent.formed active).mpr ⟨.real, configuration, sits, ?_, fun _ => ⟨document, tracks, open'⟩⟩
  obtain ⟨context, found, real, rfl⟩ := sits
  exact ⟨_, coherent.anchored id context found real⟩

/-- A real context outlives the pruning by nothing but an open document. -/
theorem Coherent.outlives_real_iff (coherent : registry.Coherent) (active : Uri → Bool) {id : Nat} {configuration : Uri}
    (sits : registry.Sits id .real configuration) :
    (registry.prune active).2.Lives id ↔ ∃ document, registry.Tracks id document ∧ active document := by
  constructor
  · intro lives
    obtain ⟨kind, _, sits', -, used⟩ := (lives_prune coherent.formed active).mp lives
    exact used (sits'.unique sits).1
  · rintro ⟨document, tracks, open'⟩
    exact coherent.outlives_real active sits tracks open'

/-- A generated context outlives the pruning by any key that leads to it. -/
theorem outlives_synthesized_iff (formed : registry.WellFormed) (active : Uri → Bool) {id : Nat} {configuration : Uri}
    (sits : registry.Sits id .synthesized configuration) :
    (registry.prune active).2.Lives id ↔ ∃ key, registry.target? key = some id := by
  rw [lives_prune formed]
  constructor
  · rintro ⟨_, _, -, leads, -⟩
    exact leads
  · intro leads
    exact ⟨.synthesized, configuration, sits, leads, fun real => nomatch real⟩

theorem lives_prune_hold (formed : registry.WellFormed) {active : Uri → Bool} {id other : Nat} {key : Uri}
    (shut : ¬ active key) : ((registry.hold id key).prune active).2.Lives other ↔ (registry.prune active).2.Lives other := by
  have held : ∀ document, active document → ((registry.hold id key).Tracks other document ↔ registry.Tracks other document) := by
    intro document open'
    rw [tracks_hold, or_iff_left]
    rintro ⟨-, rfl, -⟩
    exact shut open'
  have formed' : (registry.hold id key).WellFormed := formed.modify id fun context => context.track key
  rw [lives_prune formed', lives_prune formed]
  simp only [sits_hold, target?_hold]
  refine exists_congr fun kind => exists_congr fun configuration => and_congr_right fun _ => and_congr_right fun _ => ?_
  refine forall_congr' fun _ => exists_congr fun document => ?_
  exact and_congr_left (held document)

theorem prune_eq (active : Uri → Bool) (busy : ∀ entry ∈ registry.contexts, registry.isIdle active entry = false) :
    registry.prune active = ([], registry) := by
  have none' : registry.contexts.filter (registry.isIdle active) = [] :=
    List.filter_eq_nil_iff.mpr fun entry member idle => by simp [busy entry member] at idle
  have all : ∀ {α : Type} (entries : List α), entries.filter (fun _ => true) = entries :=
    fun entries => List.filter_eq_self.mpr fun _ _ => rfl
  simp only [prune, none', List.map_nil, List.contains_nil, Bool.not_false, all]

/-! ## Letting go -/

private theorem sits_vacate (registry : Registry) (previous : Nat) (document : Uri) {id : Nat} {kind : ContextKind}
    {configuration : Uri} :
    (registry.vacate previous document).Sits id kind configuration ↔ registry.Sits id kind configuration := by
  simp only [vacate]
  split
  · rfl
  · split
    · rw [sits_removeKey, sits_untrack]
    · rw [sits_untrack]

theorem sits_release (registry : Registry) (previous : Nat) (document : Uri) {id : Nat} {kind : ContextKind}
    {configuration : Uri} :
    (registry.release previous document).Sits id kind configuration ↔ registry.Sits id kind configuration := by
  rw [← sits_vacate registry previous document, release, disclaim]
  split
  · rw [sits_removeKey]
  · rfl

private theorem target?_vacate (registry : Registry) (previous : Nat) (document : Uri) {key : ContextKey} {id : Nat} :
    (registry.vacate previous document).target? key = some id ↔ registry.target? key = some id ∧
      ¬∃ configuration, registry.Sits previous .synthesized configuration ∧ key = .synthesized configuration := by
  simp only [vacate, Sits]
  cases found : registry.get? previous with
  | none => simp
  | some context =>
    by_cases synthesized : context.isSynthesized = true
    · have kind : context.kind = .synthesized := by simpa [Context.isSynthesized] using synthesized
      simp only [synthesized, ↓reduceIte, target?_removeKey, target?_modify, Option.some.injEq, exists_eq_left', kind,
        true_and]
      by_cases same : ContextKey.synthesized context.configuration = key
      · simp [← same]
      · simp only [same, ↓reduceIte, iff_self_and]
        rintro - ⟨_, rfl, rfl⟩
        exact same rfl
    · have kind : ¬ context.kind = .synthesized := by simpa [Context.isSynthesized] using synthesized
      simp [synthesized, kind]

/-- A release takes away the keys of the document and of the configuration generated for it. -/
theorem target?_release (coherent : registry.Coherent) (previous : Nat) (document : Uri) {key : ContextKey} {id : Nat} :
    (registry.release previous document).target? key = some id ↔ registry.target? key = some id ∧
      ¬(key = .input document ∧ id = previous) ∧
      ¬∃ configuration, registry.Sits previous .synthesized configuration ∧ key = .synthesized configuration := by
  have vacated : ∀ {key : ContextKey} {id : Nat}, (registry.vacate previous document).target? key = some id ↔
      registry.target? key = some id ∧
        ¬∃ configuration, registry.Sits previous .synthesized configuration ∧ key = .synthesized configuration :=
    target?_vacate registry previous document
  have claimed : (registry.vacate previous document).lookup (.input document) = some previous ↔
      registry.target? (.input document) = some previous := by
    rw [lookup_eq_some_iff, vacated]
    constructor
    · exact fun held => held.1.1
    · intro target
      obtain ⟨kind, configuration, sits⟩ := (coherent.sits target).sits
      exact ⟨⟨target, by simp⟩, ((sits_vacate registry previous document).mpr sits).lives⟩
  rw [release, disclaim]
  split
  next held =>
    rw [target?_removeKey]
    have target := claimed.mp held
    split
    next same =>
      subst same
      simp only [reduceCtorEq, target, Option.some.injEq, true_and, false_iff, not_and]
      rintro rfl apart
      exact absurd rfl apart
    next apart =>
      rw [vacated]
      simp [Ne.symm apart]
  next free =>
    rw [vacated]
    constructor
    · rintro ⟨target, kept⟩
      refine ⟨target, ?_, kept⟩
      rintro ⟨rfl, rfl⟩
      exact free (claimed.mpr target)
    · rintro ⟨target, -, kept⟩
      exact ⟨target, kept⟩

theorem sits_foldl_drop (registry : Registry) (id : Nat) (closed : Uri → Bool) (inputs : List Uri) {other : Nat}
    {kind : ContextKind} {configuration : Uri} :
    (inputs.foldl (drop id closed) registry).Sits other kind configuration ↔ registry.Sits other kind configuration := by
  induction inputs generalizing registry with
  | nil => rfl
  | cons input rest ih =>
    rw [List.foldl_cons, ih, drop]
    split
    · rw [sits_untrack, sits_removeKey]
    · rfl

theorem target?_foldl_drop (registry : Registry) (id : Nat) (closed : Uri → Bool) (inputs : List Uri) {key : ContextKey}
    {other : Nat} :
    (inputs.foldl (drop id closed) registry).target? key = some other ↔ registry.target? key = some other ∧
      ∀ input ∈ inputs, closed input.normalize → key ≠ .input input := by
  induction inputs generalizing registry with
  | nil => simp
  | cons input rest ih =>
    rw [List.foldl_cons, ih, drop]
    split
    next shut =>
      rw [target?_modify, target?_removeKey]
      simp only [List.forall_mem_cons, shut, true_implies]
      split
      next same => simp [same]
      next apart => simp [Ne.symm apart]
    next free => simp [free]

theorem tracks_foldl_drop (coherent : registry.Coherent) (id : Nat) (closed : Uri → Bool) (inputs : List Uri) {other : Nat}
    {document : Uri} :
    (inputs.foldl (drop id closed) registry).Tracks other document ↔ registry.Tracks other document ∧
      ¬(other = id ∧ ∃ input ∈ inputs, closed input.normalize ∧ document = input.normalize) := by
  induction inputs generalizing registry with
  | nil => simp
  | cons input rest ih =>
    rw [List.foldl_cons]
    by_cases shut : closed input.normalize = true
    · have dropped : registry.drop id closed input =
          (registry.removeKey (.input input)).modify id fun context => context.untrack input.normalize := if_pos shut
      have free := coherent.removeKey (show ∀ folder, ContextKey.input input ≠ .folder folder by simp)
      rw [dropped, ih (free.untrack id _), tracks_untrack free, tracks_removeKey]
      grind
    · have kept : registry.drop id closed input = registry := if_neg shut
      rw [kept, ih coherent]
      simp [shut]

theorem sits_leave (registry : Registry) (id : Nat) (context : Context) (document key : Uri) {other : Nat} {kind : ContextKind}
    {configuration : Uri} :
    (registry.leave id context document key).Sits other kind configuration ↔ registry.Sits other kind configuration := by
  simp only [leave, sits_untrack, sits_removeKey]
  split
  · rw [sits_removeKey]
  · split
    · rw [sits_removeKey]
    · rfl

/-- A closed document that leaves a context takes its own key away, and that of the configuration if it is the
document or was generated. -/
theorem target?_leave (registry : Registry) (id : Nat) (context : Context) (document key : Uri) {other : ContextKey}
    {number : Nat} :
    (registry.leave id context document key).target? other = some number ↔ registry.target? other = some number ∧
      other ≠ .input document ∧ ¬(context.kind = .synthesized ∧ other = .synthesized context.configuration) ∧
      ¬(context.kind = .real ∧ context.configuration = document ∧ other = .configuration document) := by
  simp only [leave, target?_modify, target?_removeKey]
  cases kind : context.kind with
  | synthesized =>
    have synthesized : context.isSynthesized = true := by simp [Context.isSynthesized, kind]
    simp only [synthesized, ↓reduceIte, target?_removeKey]
    split
    next same => simp [← same]
    next apart =>
      split
      next same => simp [← same]
      next apart' => simp [Ne.symm apart, Ne.symm apart']
  | real =>
    have synthesized : context.isSynthesized = false := by simp [Context.isSynthesized, kind]
    simp only [synthesized, Bool.false_eq_true, ↓reduceIte, Bool.not_false, Bool.true_and, beq_iff_eq]
    split
    next same => simp [← same]
    next apart =>
      split
      next own =>
        rw [target?_removeKey]
        split
        next same => simp [← same, own]
        next apart' => simp [Ne.symm apart, Ne.symm apart']
      next other' => simp [Ne.symm apart, other']

theorem tracks_leave (coherent : registry.Coherent) (id : Nat) (context : Context) (document key : Uri) {other : Nat}
    {held : Uri} :
    (registry.leave id context document key).Tracks other held ↔
      registry.Tracks other held ∧ ¬(other = id ∧ held = key) := by
  have freed : ∀ key : ContextKey, (∀ folder, key ≠ .folder folder) → (registry.removeKey key).Coherent :=
    fun _ => coherent.removeKey
  simp only [leave]
  split
  · rw [tracks_untrack ((freed _ (by simp)).removeKey (by simp))]
    simp
  · split
    · rw [tracks_untrack ((freed _ (by simp)).removeKey (by simp))]
      simp
    · rw [tracks_untrack (freed _ (by simp))]
      simp

end SpecServer.Registry
