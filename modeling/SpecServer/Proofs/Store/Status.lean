import SpecServer.Proofs.Registry.Lookup
set_option autoImplicit false

/-!
The status of documents in the store: which ones are tracked, and which of them the editor has open. Reading,
clearing and publishing leave it as it is; only opening and closing change what is open.
-/

namespace SpecServer.Store

/-- The URI of the document under a key and whether the document is open. -/
def status? (store : Store) (key : Uri) : Option (Uri × Bool) :=
  (store.file? key).map fun document => (document.uri, document.active)

/-- Each document stands under its own URI. -/
def Keyed (store : Store) : Prop :=
  ∀ key entry, store.status? key = some entry → entry.1 = key

variable {store : Store}

theorem isActive_eq (store : Store) (key : Uri) : store.isActive key = (store.status? key).any Prod.snd := by
  simp only [isActive, status?]
  cases store.file? key <;> rfl

theorem isActive_congr {before after : Store} (same : after.status? = before.status?) :
    after.isActive = before.isActive := by
  funext key
  simp only [isActive_eq, same]

theorem known_of_isActive {key : Uri} (active : store.isActive key = true) : (store.status? key).isSome := by
  rw [isActive_eq] at active
  obtain ⟨entry, held, -⟩ := (Option.any_eq_true _ _).mp active
  exact Option.isSome_of_mem held

theorem Keyed.congr {before after : Store} (keyed : before.Keyed) (same : after.status? = before.status?) :
    after.Keyed := by
  intro key entry found
  exact keyed key entry (same ▸ found)

theorem status?_of_get? {uri : Uri} {document : Document} (found : store.get? uri = some document) :
    store.status? uri.normalize = some (document.uri, document.active) := by
  have held : store.file? uri.normalize = some document := found
  simp only [status?, held, Option.map_some]

theorem Keyed.uri_of_get? (keyed : store.Keyed) {uri : Uri} {document : Document}
    (found : store.get? uri = some document) : document.uri = uri.normalize :=
  keyed _ _ (status?_of_get? found)

theorem status?_of_get?_eq_none {uri : Uri} (absent : store.get? uri = none) :
    store.status? uri.normalize = none := by
  have held : store.file? uri.normalize = none := absent
  simp only [status?, held, Option.map_none]

/-! ## Changing documents -/

theorem file?_modify (store : Store) (key other : Uri) (change : Document → Document) :
    (store.modify key change).file? other =
      if other = key then (store.file? other).map change else store.file? other := by
  have shaped : (store.modify key change).files =
      store.files.map fun entry => (entry.1, if entry.1 = key then change entry.2 else entry.2) := by
    apply List.map_congr_left
    rintro ⟨uri, document⟩ -
    by_cases same : uri = key <;> simp [same]
  have mapped := Entries.get?_mapValue store.files
    (fun uri document => if uri = key then change document else document) other
  simp only [file?, shaped, mapped]
  split
  · rfl
  · exact Option.map_id' ▸ rfl

theorem status?_modify (store : Store) (key : Uri) {change : Document → Document}
    (same : ∀ document, (change document).uri = document.uri ∧ (change document).active = document.active) :
    (store.modify key change).status? = store.status? := by
  funext other
  simp only [status?, file?_modify]
  split
  · cases store.file? other with
    | none => rfl
    | some document => simp only [Option.map_some, same document]
  · rfl

theorem status?_modify_active (store : Store) (key other : Uri) (active : Bool) {change : Document → Document}
    (sets : ∀ document, (change document).uri = document.uri ∧ (change document).active = active) :
    (store.modify key change).status? other =
      if other = key then (store.status? other).map fun entry => (entry.1, active) else store.status? other := by
  simp only [status?, file?_modify]
  split
  · cases store.file? other with
    | none => rfl
    | some document => simp only [Option.map_some, sets document]
  · rfl

private theorem status?_acquire (store : Store) (uri : Uri) (content : Option String) (key : Uri) :
    (store.acquire uri content).status? key =
      (store.status? key).or (if key = uri.normalize then some (uri.normalize, false) else none) := by
  simp only [acquire]
  generalize uri.normalize = own
  cases held : store.file? own with
  | some document =>
    by_cases same : key = own
    · subst same
      simp only [status?, held, Option.map_some, Option.some_or]
    · simp only [same, ↓reduceIte, Option.or_none]
  | none =>
    simp only [status?, file?, Entries.get?_append, Entries.get?, eq_comm (a := own)]
    cases Entries.get? store.files key with
    | some document => rfl
    | none =>
      split
      · split <;> rfl
      · rfl

/-! ## Reading and publishing -/

theorem status?_contentOf (store : Store) (document : Document) :
    (store.contentOf document).2.status? = store.status? := by
  simp only [contentOf]
  split
  · rfl
  · split
    · rfl
    · rfl
    · exact status?_modify _ _ fun _ => ⟨rfl, rfl⟩

theorem status?_read (store : Store) (uri : Uri) : (store.read uri).2.status? = store.status? := by
  simp only [read]
  split
  · rfl
  next document _ =>
    split
    · have same := status?_contentOf store document
      split
      next read => simpa only [read] using same
      next read => simpa only [read] using same
    · split
      · rfl
      · rfl
      · exact status?_modify _ _ fun _ => ⟨rfl, rfl⟩

private theorem status?_flush (store : Store) (key : Uri) (force : Bool) :
    (store.flush key force).2.status? = store.status? := by
  simp only [flush]
  split
  · rfl
  · split <;> rfl

theorem status?_hide (store : Store) (key : Uri) : (store.hide key).status? = store.status? := by
  simp only [hide, status?_flush]
  exact status?_modify _ _ fun _ => ⟨rfl, rfl⟩

theorem status?_foldl_hide (store : Store) (keys : List Uri) :
    (keys.foldl hide store).status? = store.status? := by
  induction keys generalizing store with
  | nil => rfl
  | cons key rest ih => exact (ih (store.hide key)).trans (status?_hide store key)

theorem status?_foldl_flush (store : Store) (keys : List Uri) :
    (keys.foldl (fun store key => (store.flush key true).2) store).status? = store.status? := by
  induction keys generalizing store with
  | nil => rfl
  | cons key rest ih => exact (ih _).trans (status?_flush store key true)

/-! ## Growth -/

/-- Whether all documents stay tracked, and those that are open stay open; only some were opened. -/
structure Grows (opened : Uri → Prop) (before after : Store) : Prop where
  keyed : before.Keyed → after.Keyed
  known : ∀ key, (before.status? key).isSome → (after.status? key).isSome
  active : ∀ key, before.isActive key → after.isActive key
  opened : ∀ key, after.isActive key → before.isActive key ∨ opened key

variable {opened : Uri → Prop}

theorem Grows.of_status {before after : Store} (same : after.status? = before.status?) : Grows opened before after := by
  refine ⟨fun keyed => keyed.congr same, fun key known => by rw [same]; exact known, fun key active => ?_, fun key active => ?_⟩
  · rw [isActive_congr same]
    exact active
  · rw [isActive_congr same] at active
    exact .inl active

theorem Grows.trans {first second third : Store} (left : Grows opened first second) (right : Grows opened second third) :
    Grows opened first third := by
  refine ⟨fun keyed => right.keyed (left.keyed keyed), fun key known => right.known key (left.known key known),
    fun key active => right.active key (left.active key active), fun key active => ?_⟩
  rcases right.opened key active with before | new
  · exact left.opened key before
  · exact .inr new

theorem Grows.mono {before after : Store} {more : Uri → Prop} (grows : Grows opened before after)
    (wider : ∀ key, opened key → more key) : Grows more before after :=
  ⟨grows.keyed, grows.known, grows.active, fun key active => (grows.opened key active).imp_right (wider key)⟩

theorem Grows.isActive_eq {before after : Store} (grows : Grows (fun _ => False) before after) :
    after.isActive = before.isActive := by
  funext key
  rw [Bool.eq_iff_iff]
  constructor
  · intro active
    exact (grows.opened key active).elim id False.elim
  · exact grows.active key

theorem grows_acquire (store : Store) (uri : Uri) (content : Option String) :
    Grows opened store (store.acquire uri content) := by
  have shown := status?_acquire store uri content
  generalize store.acquire uri content = after at shown ⊢
  generalize uri.normalize = own at shown
  refine ⟨fun keyed key entry found => ?_, fun key known => ?_, fun key active => ?_, fun key active => ?_⟩
  · rw [shown] at found
    cases held : store.status? key with
    | some before =>
      rw [held, Option.some_or] at found
      exact keyed key entry (held.trans found)
    | none =>
      rw [held, Option.none_or] at found
      split at found
      next same =>
        cases found
        exact same.symm
      next => cases found
  · rw [shown]
    obtain ⟨entry, held⟩ := Option.isSome_iff_exists.mp known
    rw [held, Option.some_or]
    rfl
  · rw [isActive_eq] at active ⊢
    cases held : store.status? key with
    | some entry =>
      rw [shown, held, Option.some_or, ← held]
      exact active
    | none =>
      rw [held] at active
      cases active
  · rw [isActive_eq, shown] at active
    left
    rw [isActive_eq]
    cases held : store.status? key with
    | some entry =>
      rw [held, Option.some_or] at active
      exact active
    | none =>
      rw [held, Option.none_or] at active
      split at active
      · cases active
      · cases active

theorem known_acquire (store : Store) (uri : Uri) (content : Option String) :
    ((store.acquire uri content).status? uri.normalize).isSome := by
  rw [status?_acquire]
  generalize uri.normalize = own
  cases store.status? own with
  | some entry => rfl
  | none => simp

theorem grows_open (store : Store) (key : Uri) {change : Document → Document}
    (sets : ∀ document, (change document).uri = document.uri ∧ (change document).active = true)
    (opens : opened key) : Grows opened store (store.modify key change) := by
  have shown := fun other => status?_modify_active store key other true sets
  refine ⟨fun keyed other entry found => ?_, fun other known => ?_, fun other active => ?_, fun other active => ?_⟩
  · rw [shown] at found
    split at found
    · obtain ⟨before, held, rfl⟩ := Option.map_eq_some_iff.mp found
      exact keyed other before held
    · exact keyed other entry found
  · rw [shown]
    split
    · rw [Option.isSome_map]
      exact known
    · exact known
  · rw [isActive_eq] at active ⊢
    rw [shown]
    split
    · obtain ⟨entry, held, -⟩ := Option.any_eq_true _ _ |>.mp active
      rw [held]
      rfl
    · exact active
  · by_cases same : other = key
    · exact .inr (same ▸ opens)
    · rw [isActive_eq, shown, if_neg same, ← isActive_eq] at active
      exact .inl active

theorem isActive_open {key : Uri} {change : Document → Document}
    (sets : ∀ document, (change document).uri = document.uri ∧ (change document).active = true)
    (known : (store.status? key).isSome) : (store.modify key change).isActive key := by
  obtain ⟨entry, held⟩ := Option.isSome_iff_exists.mp known
  rw [isActive_eq, status?_modify_active store key key true sets, if_pos rfl, held]
  rfl

/-! ## Closing -/

/-- Whether a document, if it is known, is closed, and nothing else changes. -/
def Shuts (document : Uri) (before after : Store) : Prop :=
  ∀ key, after.status? key =
    if key = document then (before.status? key).map fun entry => (entry.1, false) else before.status? key

theorem Shuts.known {before after : Store} {document : Uri} (shuts : Shuts document before after) (key : Uri) :
    (after.status? key).isSome = (before.status? key).isSome := by
  rw [shuts]
  split
  · rw [Option.isSome_map]
  · rfl

theorem Shuts.isActive {before after : Store} {document : Uri} (shuts : Shuts document before after) (key : Uri) :
    after.isActive key ↔ key ≠ document ∧ before.isActive key := by
  rw [isActive_eq, shuts, isActive_eq]
  split
  next same => cases before.status? key <;> simp [same]
  next apart => simp [apart]

theorem Shuts.keyed {before after : Store} {document : Uri} (shuts : Shuts document before after) (keyed : before.Keyed) :
    after.Keyed := by
  intro other entry found
  rw [shuts] at found
  split at found
  · obtain ⟨held, stored, rfl⟩ := Option.map_eq_some_iff.mp found
    exact keyed other held stored
  · exact keyed other entry found

end SpecServer.Store
