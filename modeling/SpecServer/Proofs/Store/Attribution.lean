import SpecServer.Proofs.Store.Screen
set_option autoImplicit false

/-!
The document that a URI is attributed to: the one of the URI itself, or else one whose URI differs only in case. It is a
matter of the keys and their order, which neither reading nor diagnostics change.
-/

namespace SpecServer

-- neither the model's parser nor the disk must be unfolded
attribute [local irreducible] Uri.normalize Store.load

private theorem Entries.get?_map {κ ν μ : Type} [DecidableEq κ] (entries : Entries κ ν) (view : ν → μ) (key : κ) :
    Entries.get? (entries.map fun entry => (entry.1, view entry.2)) key = (entries.get? key).map view := by
  induction entries with
  | nil => rfl
  | cons entry rest ih =>
    rw [List.map_cons, get?, get?, ih]
    split <;> rfl

private theorem Entries.get?_of_find? {κ ν : Type} [DecidableEq κ] {entries : Entries κ ν} (kind : κ → Bool)
    {entry : κ × ν}
    (found : entries.find? (fun entry => kind entry.1) = some entry) : entries.get? entry.1 = some entry.2 := by
  induction entries with
  | nil => cases found
  | cons first rest ih =>
    rw [List.find?_cons] at found
    split at found
    next =>
      cases found
      exact if_pos rfl
    next unlike =>
      have apart : first.1 ≠ entry.1 := by
        intro same
        have fits := List.find?_some found
        rw [← same] at fits
        cases unlike.symm.trans fits
      exact (if_neg apart).trans (ih found)

namespace Store

/-- The document that a URI is attributed to. -/
def home? (store : Store) (uri : Uri) : Option Uri :=
  (store.find? uri).map Document.uri

def names (store : Store) : Entries Uri Uri :=
  store.files.map fun entry => (entry.1, entry.2.uri)

variable {store before after : Store}

theorem file?_of_find? (keyed : store.Keyed) {uri : Uri} {document : Document}
    (found : store.find? uri = some document) : store.file? document.uri = some document := by
  have named : ∀ key, store.file? key = some document → store.file? document.uri = some document := by
    intro key stored
    rw [keyed_iff.mp keyed key document stored]
    exact stored
  rw [find?] at found
  cases own : store.get? uri with
  | some twin =>
    rw [own] at found
    cases found
    exact named uri.normalize own
  | none =>
    rw [own] at found
    obtain ⟨entry, first, rfl⟩ := Option.map_eq_some_iff.mp found
    have stored : store.file? entry.1 = some entry.2 :=
      Entries.get?_of_find? (fun key => folded key == folded uri) first
    exact named entry.1 stored

private theorem home?_eq (store : Store) (uri : Uri) : store.home? uri =
    (store.names.get? uri.normalize).or
      ((store.names.find? fun entry => folded entry.1 == folded uri).map Prod.snd) := by
  have own : store.names.get? uri.normalize = (store.get? uri).map Document.uri :=
    Entries.get?_map store.files Document.uri uri.normalize
  rw [own, names, List.find?_map, home?, find?]
  cases store.get? uri with
  | some document => rfl
  | none =>
    simp only [Option.map_map, Option.map_none, Option.none_or]
    rfl

theorem home?_congr (same : after.names = before.names) : after.home? = before.home? := by
  funext uri
  rw [home?_eq, home?_eq, same]

theorem keyed_of_names (same : after.names = before.names) (keyed : before.Keyed) : after.Keyed := by
  rw [keyed_iff] at keyed ⊢
  intro key document found
  have named : (before.file? key).map Document.uri = (after.file? key).map Document.uri := by
    have view : ∀ store : Store, (store.file? key).map Document.uri = Entries.get? store.names key :=
      fun store => (Entries.get?_map store.files Document.uri key).symm
    rw [view, view, same]
  rw [found] at named
  obtain ⟨former, stored, uri⟩ := Option.map_eq_some_iff.mp named
  exact uri ▸ keyed key former stored

theorem names_modify (store : Store) (key : Uri) {change : Document → Document}
    (same : ∀ document, (change document).uri = document.uri) : (store.modify key change).names = store.names := by
  simp only [names, modify, List.map_map]
  apply List.map_congr_left
  intro entry _
  simp only [Function.comp_apply]
  split
  · rw [same]
  · rfl

/-- Publishing tracked documents sends what each of them shows, in their order. -/
theorem pending_foldl_flush (store : Store) {keys : List Uri} {publication : Uri → Publication}
    (known : ∀ key ∈ keys, ∃ document, store.file? key = some document ∧
      publication key = ⟨document.uri.editorForm, document.diagnostics⟩) :
    (keys.foldl (fun store key => (store.flush key true).2) store).pending = store.pending ++ keys.map publication := by
  induction keys generalizing store with
  | nil => exact (List.append_nil _).symm
  | cons key rest ih =>
    obtain ⟨⟨document, found, same⟩, later⟩ := List.forall_mem_cons.mp known
    have flushed : (store.flush key true).2.pending = store.pending ++ [publication key] := by
      simp only [flush, found, Bool.not_true, Bool.and_false, Bool.false_eq_true, ↓reduceIte, same]
    have still := ih (store.flush key true).2 (by simpa only [file?_flush] using later)
    rw [List.foldl_cons, still, flushed, List.append_assoc]
    rfl

end Store

end SpecServer
