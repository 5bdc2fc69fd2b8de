import SpecServer.Proofs.Registry.Outline
set_option autoImplicit false

/-!
How ownership moves: a document settles in a context, a context lets go of a document, and a configuration
that is closed lets go of its inputs. The moves act on the outline of a registry.
-/

namespace SpecServer

/-- Where a document belongs: it is a configuration with declared inputs, or a configuration declares it, or a
configuration is generated for it. -/
inductive Choice where
  | own (inputs : List Uri)
  | declared (configuration : Uri)
  | generated (configuration : Uri)

namespace Choice

/-- The configuration of the context that the document settles in. -/
def configuration (document : Uri) : Choice → Uri
  | .own _ => document
  | .declared configuration => configuration
  | .generated configuration => configuration

/-- Whether that context has a configuration of its own. -/
def kind : Choice → ContextKind
  | .own _ => .real
  | .declared _ => .real
  | .generated _ => .synthesized

/-- The key that tells whether that context lives already. -/
def seat (document : Uri) (choice : Choice) : ContextKey :=
  match choice.kind with
  | .real => .folder (choice.configuration document).folder
  | .synthesized => .synthesized (choice.configuration document)

/-- The context that is made if none lives. -/
def founder (document : Uri) (choice : Choice) : Context :=
  .start choice.kind (.start (choice.configuration document))

/-- What that context tracks from then on besides the document. -/
def taken : Choice → List Uri
  | .own inputs => inputs.map fun input => input.normalize.normalize
  | .declared configuration => [configuration.normalize.normalize]
  | .generated configuration => [configuration.normalize.normalize]

/-- The keys that lead to that context from then on. A living context of a generated configuration gets no new
ones. -/
def claims (registry : Registry) (document : Uri) : Choice → List ContextKey
  | .own inputs => .configuration document :: .folder document.folder :: inputs.map .input
  | .declared configuration => [.input document, .folder configuration.folder]
  | .generated configuration =>
    match registry.lookup (.synthesized configuration) with
    | some _ => []
    | none => [.input document, .synthesized configuration]

end Choice

namespace Registry

def hold (id : Nat) (registry : Registry) (key : Uri) : Registry :=
  registry.modify id fun context => context.track key

def adopt (id : Nat) (registry : Registry) (input : Uri) : Registry :=
  (registry.hold id input.normalize.normalize).index (.input input) id

/-- The living context that a document settles in, or a new one. -/
def seat (registry : Registry) (document : Uri) (choice : Choice) : Nat × Registry :=
  match registry.lookup (choice.seat document) with
  | some id => (id, registry)
  | none => registry.insert (choice.founder document)

def settle (registry : Registry) (document : Uri) (choice : Choice) : Nat × Registry :=
  let (id, seated) := registry.seat document choice
  match choice with
  | .own inputs =>
    (id, ((inputs.foldl (adopt id) seated).index (.folder document.folder) id).index (.configuration document) id)
  | .declared configuration =>
    (id, ((seated.index (.folder configuration.folder) id).index (.input document) id).hold id
      configuration.normalize.normalize)
  | .generated configuration =>
    let held := seated.hold id configuration.normalize.normalize
    match registry.lookup (.synthesized configuration) with
    | some _ => (id, held)
    | none => (id, (held.index (.synthesized configuration) id).index (.input document) id)

/-- Takes a document out of a context; a generated configuration is of no use then. -/
def vacate (registry : Registry) (previous : Nat) (document : Uri) : Registry :=
  match registry.get? previous with
  | none => registry
  | some context =>
    let freed := registry.modify previous fun context => context.untrack document
    if context.isSynthesized then freed.removeKey (.synthesized context.configuration) else freed

def disclaim (registry : Registry) (previous : Nat) (document : Uri) : Registry :=
  if registry.lookup (.input document) = some previous then registry.removeKey (.input document) else registry

def release (registry : Registry) (previous : Nat) (document : Uri) : Registry :=
  (registry.vacate previous document).disclaim previous document

/-- Takes an input that is not open out of the context whose configuration is closed. -/
def drop (id : Nat) (closed : Uri → Bool) (registry : Registry) (input : Uri) : Registry :=
  if closed input.normalize then
    (registry.removeKey (.input input)).modify id fun context => context.untrack input.normalize
  else registry

/-- Takes a closed document out of its context, which loses the key of its configuration if that is the
document or was generated. -/
def leave (registry : Registry) (id : Nat) (context : Context) (document key : Uri) : Registry :=
  let freed :=
    if context.isSynthesized then registry.removeKey (.synthesized context.configuration)
    else if !context.isSynthesized && context.configuration == document then registry.removeKey (.configuration document)
    else registry
  (freed.removeKey (.input document)).modify id fun context => context.untrack key

/-! ## Settling -/

variable {registry : Registry}

theorem get?_hold (registry : Registry) (id other : Nat) (key : Uri) :
    (registry.hold id key).get? other =
      if other = id then (registry.get? other).map fun context => context.track key else registry.get? other :=
  get?_modify registry id other _

theorem hold_insert (formed : registry.WellFormed) (context : Context) (key : Uri) :
    (registry.insert context).2.hold registry.nextId key = (registry.insert (context.track key)).2 := by
  have apart : registry.contexts.map (fun entry =>
      if entry.1 = registry.nextId then (entry.1, entry.2.track key) else entry) = registry.contexts := by
    refine (List.map_congr_left ?_).trans (List.map_id _)
    rintro ⟨id, other⟩ member
    exact if_neg (Nat.ne_of_lt (formed.below id (List.mem_map.mpr ⟨_, member, rfl⟩)))
  simp only [hold, modify, insert, List.map_append, apart, List.map_cons, ↓reduceIte, List.map_nil]

private theorem get?_foldl_adopt (registry : Registry) (id other : Nat) (inputs : List Uri) :
    (inputs.foldl (adopt id) registry).get? other =
      if other = id then
        (registry.get? other).map fun context => (inputs.map fun input => input.normalize.normalize).foldl Context.track context
      else registry.get? other := by
  induction inputs generalizing registry with
  | nil => simp
  | cons input rest ih =>
    rw [List.foldl_cons, ih, adopt, get?_index, get?_hold]
    split
    · cases registry.get? other <;> rfl
    · rfl

private theorem target?_foldl_adopt (registry : Registry) (id : Nat) (inputs : List Uri) (key : ContextKey) :
    (inputs.foldl (adopt id) registry).target? key =
      if key ∈ inputs.map ContextKey.input then some id else registry.target? key := by
  induction inputs generalizing registry with
  | nil => rfl
  | cons input rest ih =>
    rw [List.foldl_cons, ih, adopt, target?_index, List.map_cons]
    by_cases later : key ∈ rest.map ContextKey.input
    · simp only [later, ↓reduceIte, List.mem_cons, or_true]
    · simp only [later, ↓reduceIte, List.mem_cons, or_false, eq_comm (a := key)]
      rfl

private theorem wellFormed_foldl_adopt (formed : registry.WellFormed) (id : Nat) (inputs : List Uri) :
    (inputs.foldl (adopt id) registry).WellFormed := by
  induction inputs generalizing registry with
  | nil => exact formed
  | cons input rest ih => exact ih ((formed.modify _ _).index _ _)

theorem seat_id (registry : Registry) (document : Uri) (choice : Choice) :
    (registry.seat document choice).1 = (registry.lookup (choice.seat document)).getD registry.nextId := by
  simp only [seat]
  cases registry.lookup (choice.seat document) <;> rfl

private theorem get?_seat (formed : registry.WellFormed) (document : Uri) (choice : Choice) (other : Nat) :
    (registry.seat document choice).2.get? other =
      if other = (registry.seat document choice).1 then
        some ((registry.get? (registry.seat document choice).1).getD (choice.founder document))
      else registry.get? other := by
  cases living : registry.lookup (choice.seat document) with
  | some id =>
    obtain ⟨-, context, found⟩ := lookup_eq_some_iff.mp living
    simp only [seat, living]
    split
    next same => rw [same, found, Option.getD_some]
    next => rfl
  | none =>
    simp only [seat, living, insert, get?_nextId formed, Option.getD_none]
    have inserted := get?_insert registry (choice.founder document) other
    simp only [insert] at inserted
    rw [inserted]
    split
    next same => rw [same, get?_nextId formed, Option.none_or]
    next => rw [Option.or_none]

private theorem target?_seat (registry : Registry) (document : Uri) (choice : Choice) (key : ContextKey) :
    (registry.seat document choice).2.target? key = registry.target? key := by
  simp only [seat]
  cases registry.lookup (choice.seat document) <;> rfl

private theorem wellFormed_seat (formed : registry.WellFormed) (document : Uri) (choice : Choice) :
    (registry.seat document choice).2.WellFormed := by
  simp only [seat]
  cases registry.lookup (choice.seat document) with
  | some id => exact formed
  | none => exact formed.insert _

/-- What a registry shows after a document settled: one context tracks more than before, and some keys lead
to it. -/
structure Settled (before : Registry) (document : Uri) (choice : Choice) (id : Nat) (after : Registry) : Prop where
  seat : id = (before.lookup (choice.seat document)).getD before.nextId
  context : ∀ other, after.get? other =
    if other = id then some (choice.taken.foldl Context.track ((before.get? id).getD (choice.founder document)))
    else before.get? other
  target : ∀ key, after.target? key = if key ∈ choice.claims before document then some id else before.target? key
  formed : after.WellFormed

private theorem settle_spec (formed : registry.WellFormed) (document : Uri) (choice : Choice) :
    Settled registry document choice (registry.settle document choice).1 (registry.settle document choice).2 := by
  have number := seat_id registry document choice
  have contexts := get?_seat formed document choice
  have targets := target?_seat registry document choice
  have seated := wellFormed_seat formed document choice
  generalize held : registry.seat document choice = outcome at number contexts targets seated
  obtain ⟨id, grown⟩ := outcome
  simp only at number contexts targets seated
  cases choice with
  | own inputs =>
    simp only [settle, held]
    refine ⟨number, fun other => ?_, fun key => ?_, ?_⟩
    · rw [get?_index, get?_index, get?_foldl_adopt, contexts]
      split <;> rfl
    · rw [target?_index, target?_index, target?_foldl_adopt, targets]
      simp only [Choice.claims, List.mem_cons, eq_comm (a := key)]
      by_cases configuration : ContextKey.configuration document = key
      · simp only [configuration, ↓reduceIte, true_or]
      · by_cases folder : ContextKey.folder document.folder = key
        · simp only [configuration, folder, ↓reduceIte, true_or, or_true]
        · simp only [configuration, folder, ↓reduceIte, false_or]
    · exact ((wellFormed_foldl_adopt seated id inputs).index _ _).index _ _
  | declared configuration =>
    simp only [settle, held]
    refine ⟨number, fun other => ?_, fun key => ?_, ((seated.index _ _).index _ _).modify _ _⟩
    · rw [get?_hold, get?_index, get?_index, contexts]
      split <;> rfl
    · rw [hold, target?_modify, target?_index, target?_index, targets]
      simp only [Choice.claims, List.mem_cons, List.not_mem_nil, or_false, eq_comm (a := key)]
      by_cases input : ContextKey.input document = key
      · simp only [input, ↓reduceIte, true_or]
      · simp only [input, ↓reduceIte, false_or]
  | generated configuration =>
    have tracked : ∀ other, (grown.hold id configuration.normalize.normalize).get? other =
        if other = id then
          some ((Choice.generated configuration).taken.foldl Context.track
            ((registry.get? id).getD ((Choice.generated configuration).founder document)))
        else registry.get? other := by
      intro other
      rw [get?_hold, contexts, Choice.taken]
      split
      · rw [Option.map_some, List.foldl_cons, List.foldl_nil]
      · rfl
    have kept : ∀ key, (grown.hold id configuration.normalize.normalize).target? key = registry.target? key := by
      intro key
      rw [hold, target?_modify, targets]
    have stays := seated.modify id fun context => context.track configuration.normalize.normalize
    rw [← hold] at stays
    cases living : registry.lookup (.synthesized configuration) with
    | some other =>
      simp only [settle, held, living]
      generalize grown.hold id configuration.normalize.normalize = settled at tracked kept stays ⊢
      refine ⟨number, tracked, fun key => ?_, stays⟩
      simp only [Choice.claims, living, List.not_mem_nil, ↓reduceIte]
      exact kept key
    | none =>
      simp only [settle, held, living]
      generalize grown.hold id configuration.normalize.normalize = settled at tracked kept stays ⊢
      refine ⟨number, tracked, fun key => ?_, (stays.index _ _).index _ _⟩
      simp only [target?_index, kept, Choice.claims, living, List.mem_cons, List.not_mem_nil, or_false,
        eq_comm (a := key)]
      by_cases input : ContextKey.input document = key
      · simp only [input, ↓reduceIte, true_or]
      · simp only [input, ↓reduceIte, false_or]

theorem settled_of_settle {settled : Registry} {document : Uri} {choice : Choice} {id : Nat} (formed : registry.WellFormed)
    (settles : registry.settle document choice = (id, settled)) : Settled registry document choice id settled := by
  have settling := settle_spec formed document choice
  rw [settles] at settling
  exact settling

/-! ## Letting go -/

private theorem WellFormed.vacate (formed : registry.WellFormed) (previous : Nat) (document : Uri) :
    (registry.vacate previous document).WellFormed := by
  simp only [Registry.vacate]
  split
  · exact formed
  · split
    · exact (formed.modify _ _).removeKey _
    · exact formed.modify _ _

private theorem WellFormed.disclaim (formed : registry.WellFormed) (previous : Nat) (document : Uri) :
    (registry.disclaim previous document).WellFormed := by
  simp only [Registry.disclaim]
  split
  · exact formed.removeKey _
  · exact formed

theorem WellFormed.release (formed : registry.WellFormed) (previous : Nat) (document : Uri) :
    (registry.release previous document).WellFormed :=
  (formed.vacate previous document).disclaim previous document

private theorem WellFormed.drop (formed : registry.WellFormed) (id : Nat) (closed : Uri → Bool) (input : Uri) :
    (registry.drop id closed input).WellFormed := by
  simp only [Registry.drop]
  split
  · exact (formed.removeKey _).modify _ _
  · exact formed

theorem WellFormed.foldl_drop (formed : registry.WellFormed) (id : Nat) (closed : Uri → Bool) (inputs : List Uri) :
    (inputs.foldl (Registry.drop id closed) registry).WellFormed := by
  induction inputs generalizing registry with
  | nil => exact formed
  | cons input rest ih => exact ih (formed.drop id closed input)

theorem WellFormed.leave (formed : registry.WellFormed) (id : Nat) (context : Context) (document key : Uri) :
    (registry.leave id context document key).WellFormed := by
  simp only [Registry.leave]
  split
  · exact ((formed.removeKey _).removeKey _).modify _ _
  · split
    · exact ((formed.removeKey _).removeKey _).modify _ _
    · exact (formed.removeKey _).modify _ _

end Registry

end SpecServer
