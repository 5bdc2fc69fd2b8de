import SpecServer.Proofs.Registry.Moves
set_option autoImplicit false

/-!
Coherent registries: each key leads to a living context that fits it, and each real context is the one that
the folder of its configuration leads to. All moves keep a registry coherent.
-/

namespace SpecServer

/-- Whether a context is one that a key may lead to. -/
def ContextKey.Fits : ContextKey → Context → Prop
  | .folder uri, context => context.kind = .real ∧ context.configuration.folder = uri
  | .configuration _, context => context.kind = .real
  | .input _, _ => True
  | .synthesized uri, context => context.kind = .synthesized ∧ context.configuration = uri

theorem ContextKey.Fits.congr {key : ContextKey} {before after : Context} (fits : key.Fits before)
    (kind : after.kind = before.kind) (configuration : after.configuration = before.configuration) : key.Fits after := by
  cases key with
  | folder uri => exact ⟨kind.trans fits.1, configuration ▸ fits.2⟩
  | configuration uri => exact kind.trans fits
  | input uri => exact trivial
  | synthesized uri => exact ⟨kind.trans fits.1, configuration.trans fits.2⟩

namespace Context

/-- A change of what a context tracks. -/
structure SameSite (before after : Context) : Prop where
  kind : after.kind = before.kind
  configuration : after.configuration = before.configuration

theorem sameSite_track (context : Context) (key : Uri) : SameSite context (context.track key) := by
  simp only [track]
  split <;> exact ⟨rfl, rfl⟩

theorem sameSite_foldl_track (context : Context) (keys : List Uri) : SameSite context (keys.foldl track context) := by
  induction keys generalizing context with
  | nil => exact ⟨rfl, rfl⟩
  | cons key rest ih =>
    have first := sameSite_track context key
    have later := ih (context.track key)
    exact ⟨later.kind.trans first.kind, later.configuration.trans first.configuration⟩

theorem mem_track {context : Context} {key other : Uri} :
    other ∈ (context.track key).tracked ↔ other ∈ context.tracked ∨ other = key := by
  by_cases tracking : context.isTracking key = true
  · have member : key ∈ context.tracked := by simpa [isTracking] using tracking
    simp only [track, tracking, ↓reduceIte]
    exact ⟨.inl, fun found => found.elim id fun same => same ▸ member⟩
  · simp [track, tracking]

theorem mem_foldl_track {context : Context} {keys : List Uri} {other : Uri} :
    other ∈ (keys.foldl track context).tracked ↔ other ∈ context.tracked ∨ other ∈ keys := by
  induction keys generalizing context with
  | nil => simp
  | cons key rest ih => rw [List.foldl_cons, ih, mem_track, List.mem_cons, or_assoc]

private theorem nodup_track {context : Context} (single : context.tracked.Nodup) (key : Uri) :
    (context.track key).tracked.Nodup := by
  by_cases tracking : context.isTracking key = true
  · simpa only [track, tracking, ↓reduceIte] using single
  · have absent : key ∉ context.tracked := by simpa [isTracking] using tracking
    simp only [track, tracking]
    refine List.nodup_append.mpr ⟨single, by simp, ?_⟩
    rintro held member added singleton rfl
    exact absent (List.mem_singleton.mp singleton ▸ member)

private theorem nodup_foldl_track {context : Context} (single : context.tracked.Nodup) (keys : List Uri) :
    (keys.foldl track context).tracked.Nodup := by
  induction keys generalizing context with
  | nil => exact single
  | cons key rest ih => exact ih (nodup_track single key)

end Context

namespace Registry

variable {registry : Registry}

/-- Whether the keys fit the living contexts and the real contexts stand by the folders of their configurations. -/
structure Coherent (registry : Registry) : Prop where
  formed : registry.WellFormed
  fits : ∀ key id, registry.target? key = some id → ∃ context, registry.get? id = some context ∧ key.Fits context
  anchored : ∀ id context, registry.get? id = some context → context.kind = .real →
    registry.target? (.folder context.configuration.folder) = some id
  single : ∀ id context, registry.get? id = some context → context.tracked.Nodup

theorem coherent_empty : empty.Coherent := by
  refine ⟨wellFormed_empty, ?_, ?_, ?_⟩
  · intro key id target
    cases target
  · intro id context found
    cases found
  · intro id context found
    cases found

/-- In a coherent registry a key that leads to a number leads to a living context. -/
theorem Coherent.lookup (coherent : registry.Coherent) {key : ContextKey} {id : Nat} :
    registry.lookup key = some id ↔ registry.target? key = some id := by
  rw [lookup_eq_some_iff]
  refine ⟨And.left, fun target => ⟨target, ?_⟩⟩
  obtain ⟨context, found, -⟩ := coherent.fits key id target
  exact ⟨context, found⟩

theorem Coherent.lookup_eq (coherent : registry.Coherent) (key : ContextKey) :
    registry.lookup key = registry.target? key :=
  Option.ext fun _ => coherent.lookup

theorem Coherent.only (coherent : registry.Coherent) {id other : Nat} {context rival : Context}
    (found : registry.get? id = some context) (real : context.kind = .real) (met : registry.get? other = some rival)
    (real' : rival.kind = .real) (same : context.configuration.folder = rival.configuration.folder) : id = other := by
  have here := coherent.anchored id context found real
  have there := coherent.anchored other rival met real'
  rw [same] at here
  exact Option.some.inj (here.symm.trans there)

/-! ## Settling -/

private theorem seat_fits_founder (document : Uri) (choice : Choice) :
    (choice.seat document).Fits (choice.founder document) := by
  cases choice with
  | own inputs => exact ⟨rfl, rfl⟩
  | declared configuration => exact ⟨rfl, rfl⟩
  | generated configuration => exact ⟨rfl, rfl⟩

/-- A context that fits its seat fits all keys that lead to it from then on. -/
theorem claims_fit {document : Uri} {choice : Choice} {context : Context} (fits : (choice.seat document).Fits context)
    {key : ContextKey} (claimed : key ∈ choice.claims registry document) : key.Fits context := by
  cases choice with
  | own inputs =>
    simp only [Choice.claims, List.mem_cons, List.mem_map] at claimed
    rcases claimed with rfl | rfl | ⟨input, -, rfl⟩
    · exact fits.1
    · exact fits
    · exact trivial
  | declared configuration =>
    simp only [Choice.claims, List.mem_cons, List.not_mem_nil, or_false] at claimed
    rcases claimed with rfl | rfl
    · exact trivial
    · exact fits
  | generated configuration =>
    simp only [Choice.claims] at claimed
    split at claimed
    · cases claimed
    · simp only [List.mem_cons, List.not_mem_nil, or_false] at claimed
      rcases claimed with rfl | rfl
      · exact trivial
      · exact fits

/-- The only folder that leads to the context from then on is its seat. -/
theorem folder_claimed_iff (registry : Registry) (document folder : Uri) (choice : Choice) :
    .folder folder ∈ choice.claims registry document ↔ choice.seat document = .folder folder := by
  cases choice with
  | own inputs => simp [Choice.claims, Choice.seat, Choice.kind, Choice.configuration, eq_comm]
  | declared configuration => simp [Choice.claims, Choice.seat, Choice.kind, Choice.configuration, eq_comm]
  | generated configuration =>
    simp only [Choice.claims, Choice.seat, Choice.kind, reduceCtorEq, iff_false]
    split <;> simp

private theorem seat_of_fits {document : Uri} {choice : Choice} {context : Context}
    (fits : (choice.seat document).Fits context)
    (real : context.kind = .real) : choice.seat document = .folder context.configuration.folder := by
  cases choice with
  | own inputs => exact congrArg ContextKey.folder fits.2.symm
  | declared configuration => exact congrArg ContextKey.folder fits.2.symm
  | generated configuration => cases real.symm.trans fits.1

theorem Settled.fits {before after : Registry} {document : Uri} {choice : Choice} {id : Nat} (coherent : before.Coherent)
    (settled : Settled before document choice id after) :
    (choice.seat document).Fits ((before.get? id).getD (choice.founder document)) := by
  have number := settled.seat
  cases living : before.lookup (choice.seat document) with
  | some held =>
    rw [living, Option.getD_some] at number
    obtain ⟨context, found, fits⟩ := coherent.fits _ held (coherent.lookup.mp living)
    rw [number, found, Option.getD_some]
    exact fits
  | none =>
    rw [living, Option.getD_none] at number
    rw [number, get?_nextId coherent.formed, Option.getD_none]
    exact seat_fits_founder document choice

theorem Coherent.settled {before after : Registry} {document : Uri} {choice : Choice} {id : Nat}
    (coherent : before.Coherent) (settled : Settled before document choice id after) : after.Coherent := by
  have seated := settled.fits coherent
  have site := Context.sameSite_foldl_track ((before.get? id).getD (choice.founder document)) choice.taken
  refine ⟨settled.formed, fun key other target => ?_, fun other context found real => ?_, fun other context found => ?_⟩
  · rw [settled.target] at target
    split at target
    next claimed =>
      cases target
      refine ⟨_, (settled.context id).trans (if_pos rfl), ?_⟩
      exact (claims_fit seated claimed).congr site.kind site.configuration
    next =>
      obtain ⟨context, found, fits⟩ := coherent.fits key other target
      rw [settled.context]
      split
      next same =>
        subst same
        rw [found, Option.getD_some] at site ⊢
        exact ⟨_, rfl, fits.congr site.kind site.configuration⟩
      next => exact ⟨context, found, fits⟩
  · rw [settled.context] at found
    rw [settled.target]
    split at found
    next same =>
      cases found
      subst same
      rw [if_pos]
      rw [folder_claimed_iff, site.configuration]
      rw [site.kind] at real
      exact seat_of_fits seated real
    next apart =>
      have anchored := coherent.anchored other context found real
      rw [if_neg, anchored]
      rw [folder_claimed_iff]
      intro seat
      have number := settled.seat
      rw [seat, coherent.lookup.mpr anchored, Option.getD_some] at number
      exact apart number.symm
  · rw [settled.context] at found
    split at found
    next same =>
      cases found
      refine Context.nodup_foldl_track ?_ _
      cases held : before.get? id with
      | some context => exact coherent.single id context held
      | none => exact List.nodup_nil
    next => exact coherent.single other context found

/-! ## Holding, letting go and pruning -/

private theorem Coherent.modify (coherent : registry.Coherent) (id : Nat) {change : Context → Context}
    (site : ∀ context, Context.SameSite context (change context))
    (single : ∀ context, context.tracked.Nodup → (change context).tracked.Nodup) :
    (registry.modify id change).Coherent := by
  have shown := fun other => get?_modify registry id other change
  refine ⟨coherent.formed.modify id change, fun key other target => ?_, fun other context found real => ?_,
    fun other context found => ?_⟩
  · obtain ⟨context, found, fits⟩ := coherent.fits key other target
    rw [shown, found]
    split
    · exact ⟨_, rfl, fits.congr (site context).kind (site context).configuration⟩
    · exact ⟨context, rfl, fits⟩
  · rw [shown] at found
    rw [target?_modify]
    split at found
    · obtain ⟨before, held, rfl⟩ := Option.map_eq_some_iff.mp found
      rw [(site before).configuration]
      exact coherent.anchored other before held ((site before).kind ▸ real)
    · exact coherent.anchored other context found real
  · rw [shown] at found
    split at found
    · obtain ⟨before, held, rfl⟩ := Option.map_eq_some_iff.mp found
      exact single before (coherent.single other before held)
    · exact coherent.single other context found

theorem Coherent.hold (coherent : registry.Coherent) (id : Nat) (key : Uri) : (registry.hold id key).Coherent :=
  coherent.modify id (fun context => Context.sameSite_track context key)
    fun _ single => Context.nodup_track single key

theorem Coherent.untrack (coherent : registry.Coherent) (id : Nat) (key : Uri) :
    (registry.modify id fun context => context.untrack key).Coherent :=
  coherent.modify id (fun _ => ⟨rfl, rfl⟩) fun _ single => single.erase key

theorem Coherent.removeKey (coherent : registry.Coherent) {key : ContextKey} (free : ∀ folder, key ≠ .folder folder) :
    (registry.removeKey key).Coherent := by
  refine ⟨coherent.formed.removeKey key, fun other id target => ?_, fun id context found real => ?_, coherent.single⟩
  · rw [target?_removeKey] at target
    split at target
    · cases target
    · exact coherent.fits other id target
  · rw [target?_removeKey, if_neg (free _)]
    exact coherent.anchored id context found real

theorem Coherent.prune (coherent : registry.Coherent) (active : Uri → Bool) : (registry.prune active).2.Coherent := by
  have contexts := get?_prune coherent.formed active
  have targets := target?_prune coherent.formed active
  refine ⟨coherent.formed.prune active, fun key id target => ?_, fun id context found real => ?_,
    fun id context found => ?_⟩
  · rw [targets, Option.filter_eq_some_iff] at target
    obtain ⟨before, stays⟩ := target
    obtain ⟨context, found, fits⟩ := coherent.fits key id before
    rw [found, Option.any_some] at stays
    rw [contexts, found, Option.filter_some, if_pos stays]
    exact ⟨context, rfl, fits⟩
  · rw [contexts, Option.filter_eq_some_iff] at found
    obtain ⟨before, stays⟩ := found
    rw [targets, coherent.anchored id context before real, Option.filter_some, before, Option.any_some, if_pos stays]
  · rw [contexts, Option.filter_eq_some_iff] at found
    exact coherent.single id context found.1

theorem Coherent.release (coherent : registry.Coherent) (previous : Nat) (document : Uri) :
    (registry.release previous document).Coherent := by
  have vacated : (registry.vacate previous document).Coherent := by
    simp only [vacate]
    split
    · exact coherent
    · split
      · exact (coherent.untrack previous document).removeKey (by simp)
      · exact coherent.untrack previous document
  simp only [Registry.release, disclaim]
  split
  · exact vacated.removeKey (by simp)
  · exact vacated

theorem Coherent.foldl_drop (coherent : registry.Coherent) (id : Nat) (closed : Uri → Bool) (inputs : List Uri) :
    (inputs.foldl (Registry.drop id closed) registry).Coherent := by
  induction inputs generalizing registry with
  | nil => exact coherent
  | cons input rest ih =>
    refine ih ?_
    simp only [Registry.drop]
    split
    · exact (coherent.removeKey (by simp)).untrack id _
    · exact coherent

theorem Coherent.leave (coherent : registry.Coherent) (id : Nat) (context : Context) (document key : Uri) :
    (registry.leave id context document key).Coherent := by
  refine (Coherent.removeKey ?_ (by simp)).untrack id key
  split
  · exact coherent.removeKey (by simp)
  · split
    · exact coherent.removeKey (by simp)
    · exact coherent

end Registry

end SpecServer
