import SpecServer.Proofs.Store.Status
set_option autoImplicit false

/-!
What the documents of a store show: their diagnostics. Publishing leaves these as they are, and hiding some
documents takes away theirs and no others.
-/

namespace SpecServer.Store

/-- The diagnostics of the document under a key. -/
def shown? (store : Store) (key : Uri) : Option (List Diagnostic) :=
  (store.file? key).map Document.diagnostics

/-- Whether the document under a key shows anything. -/
def Shows (store : Store) (key : Uri) : Prop :=
  ∃ first rest, store.shown? key = some (first :: rest)

theorem file?_flush (store : Store) (key : Uri) (force : Bool) (other : Uri) :
    (store.flush key force).2.file? other = store.file? other := by
  simp only [flush]
  split
  · rfl
  · split <;> rfl

private theorem file?_hide (store : Store) (key other : Uri) :
    (store.hide key).file? other =
      if other = key then (store.file? other).map Document.clear else store.file? other := by
  rw [hide, file?_flush, file?_modify]

/-- Whether some documents lost what they showed, and all others show what they did. -/
structure Wipes (wiped : Uri → Prop) (before after : Store) : Prop where
  emptied : ∀ key, wiped key → after.shown? key = (before.shown? key).map fun _ => []
  kept : ∀ key, ¬ wiped key → after.shown? key = before.shown? key

variable {wiped more : Uri → Prop} {before after : Store}

theorem Wipes.of_shown (same : ∀ key, after.shown? key = before.shown? key) : Wipes (fun _ => False) before after :=
  ⟨fun _ never => never.elim, fun key _ => same key⟩

theorem Wipes.trans {first second third : Store} (left : Wipes wiped first second) (right : Wipes more second third) :
    Wipes (fun key => wiped key ∨ more key) first third := by
  refine ⟨fun key either => ?_, fun key neither => ?_⟩
  · by_cases later : more key
    · rw [right.emptied key later]
      by_cases sooner : wiped key
      · rw [left.emptied key sooner, Option.map_map]
        rfl
      · rw [left.kept key sooner]
    · rw [right.kept key later, left.emptied key (either.resolve_right later)]
  · rw [not_or] at neither
    rw [right.kept key neither.2, left.kept key neither.1]

theorem Wipes.congr (wipes : Wipes wiped before after) (same : ∀ key, wiped key ↔ more key) : Wipes more before after :=
  ⟨fun key gone => wipes.emptied key ((same key).mpr gone),
    fun key stays => wipes.kept key fun gone => stays ((same key).mp gone)⟩

theorem Wipes.then {middle : Store} (wipes : Wipes wiped before middle)
    (same : ∀ key, after.shown? key = middle.shown? key) : Wipes wiped before after :=
  (wipes.trans (.of_shown same)).congr fun _ => or_iff_left id

/-- A document shows something else exactly if it showed something and was wiped. -/
theorem Wipes.shown_iff (wipes : Wipes wiped before after) (key : Uri) :
    after.shown? key = before.shown? key ↔ ¬(wiped key ∧ before.Shows key) := by
  by_cases gone : wiped key
  · rw [wipes.emptied key gone, Shows]
    cases shown : before.shown? key with
    | none => simp
    | some diagnostics => cases diagnostics <;> simp [gone]
  · simp [wipes.kept key gone, gone]

theorem shown?_modify (store : Store) (key other : Uri) {change : Document → Document}
    (same : ∀ document, (change document).diagnostics = document.diagnostics) :
    (store.modify key change).shown? other = store.shown? other := by
  simp only [shown?, file?_modify]
  split
  · cases store.file? other with
    | none => rfl
    | some document => simp only [Option.map_some, same document]
  · rfl

theorem wipes_hide (store : Store) (key : Uri) : Wipes (fun other => other = key) store (store.hide key) := by
  refine ⟨fun other same => ?_, fun other apart => ?_⟩
  · rw [shown?, file?_hide, if_pos same, shown?, Option.map_map, Option.map_map]
    rfl
  · rw [shown?, file?_hide, if_neg apart, shown?]

theorem wipes_foldl_hide (store : Store) (keys : List Uri) :
    Wipes (fun other => other ∈ keys) store (keys.foldl hide store) := by
  induction keys generalizing store with
  | nil => exact (Wipes.of_shown fun _ => rfl).congr (by simp)
  | cons key rest ih => exact ((wipes_hide store key).trans (ih _)).congr fun other => List.mem_cons.symm

end SpecServer.Store
