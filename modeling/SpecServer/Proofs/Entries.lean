import Mathlib.Data.List.Nodup
import SpecServer.Entries
set_option autoImplicit false

/-!
The order of tables. Storing a value keeps the keys in ascending order, and it adds no entry but its own. A key above all
others is stored at the end, and entries with different keys are all stored.
-/

namespace SpecServer.Entries

variable {κ ν : Type} [LT κ] [DecidableLT κ] [DecidableEq κ] {entries : Entries κ ν} {key : κ} {value : ν}

omit [DecidableLT κ] [DecidableEq κ] in
private theorem ascending_cons {first : κ × ν} :
    Ascending (first :: entries) ↔ (∀ entry ∈ entries, first.1 < entry.1) ∧ entries.Ascending := by
  rw [Ascending, List.map_cons, List.pairwise_cons, List.forall_mem_map]
  rfl

theorem mem_of_mem_put {entry : κ × ν} (member : entry ∈ entries.put key value) :
    entry = (key, value) ∨ entry ∈ entries := by
  induction entries with
  | nil => exact .inl (List.mem_singleton.mp member)
  | cons first rest ih =>
    obtain ⟨found, old⟩ := first
    simp only [put] at member
    split at member
    · exact (List.mem_cons.mp member).imp_right (List.mem_cons_of_mem _)
    · split at member
      · exact List.mem_cons.mp member
      · rcases List.mem_cons.mp member with rfl | later
        · exact .inr List.mem_cons_self
        · exact (ih later).imp_right (List.mem_cons_of_mem _)

private theorem put_perm (absent : key ∉ entries.map Prod.fst) :
    (entries.put key value).Perm ((key, value) :: entries) := by
  induction entries with
  | nil => exact .refl _
  | cons first rest ih =>
    obtain ⟨found, old⟩ := first
    simp only [List.map_cons, List.mem_cons, not_or] at absent
    simp only [put, if_neg (Ne.symm absent.1)]
    split
    · exact .refl _
    · exact ((ih absent.2).cons _).trans (.swap _ _ _)

theorem ofList_perm (distinct : (entries.map Prod.fst).Nodup) : (ofList entries).Perm entries := by
  have run : ∀ rest table : Entries κ ν, ((table ++ rest).map Prod.fst).Nodup →
      (rest.foldl (fun table entry => table.put entry.1 entry.2) table).Perm (table ++ rest) := by
    intro rest
    induction rest with
    | nil =>
      intro table _
      rw [List.append_nil]
      exact .refl _
    | cons entry rest ih =>
      intro table distinct
      have moved : (table ++ entry :: rest).Perm (entry :: table ++ rest) := List.perm_middle
      have apart := (moved.map Prod.fst).nodup_iff.mp distinct
      have absent : entry.1 ∉ table.map Prod.fst := by
        intro member
        obtain ⟨other, among, same⟩ := List.mem_map.mp member
        exact (List.nodup_cons.mp apart).1 (List.mem_map.mpr ⟨other, List.mem_append_left rest among, same⟩)
      have stored : (table.put entry.1 entry.2 ++ rest).Perm (entry :: table ++ rest) :=
        (put_perm absent).append_right rest
      exact ((ih _ ((stored.map Prod.fst).nodup_iff.mpr apart)).trans stored).trans moved.symm
  exact run entries [] distinct

variable [Trans (α := κ) (· < ·) (· < ·) (· < ·)] [Std.Trichotomous (α := κ) (· < ·)]

theorem Ascending.put (ascending : entries.Ascending) (key : κ) (value : ν) : (entries.put key value).Ascending := by
  induction entries with
  | nil => exact List.pairwise_singleton _ _
  | cons first rest ih =>
    obtain ⟨found, old⟩ := first
    obtain ⟨above, further⟩ := ascending_cons.mp ascending
    simp only [Entries.put]
    split
    next same => exact ascending_cons.mpr ⟨fun entry member => same ▸ above entry member, further⟩
    next differs =>
      split
      next less =>
        refine ascending_cons.mpr ⟨?_, ascending⟩
        intro entry member
        rcases List.mem_cons.mp member with rfl | later
        · exact less
        · exact Trans.trans less (above entry later)
      next greater =>
        refine ascending_cons.mpr ⟨?_, ih further⟩
        intro entry member
        rcases mem_of_mem_put member with rfl | later
        · exact Classical.byContradiction fun below => differs (Std.Trichotomous.trichotomous found key below greater)
        · exact above entry later

omit [Std.Trichotomous (α := κ) (· < ·)] in
theorem put_above [Std.Irrefl (α := κ) (· < ·)] (above : ∀ entry ∈ entries, entry.1 < key) :
    entries.put key value = entries ++ [(key, value)] := by
  induction entries with
  | nil => rfl
  | cons first rest ih =>
    obtain ⟨found, old⟩ := first
    obtain ⟨less, further⟩ := List.forall_mem_cons.mp above
    have differs : found ≠ key := by
      rintro rfl
      exact Std.Irrefl.irrefl _ less
    have greater : ¬key < found := fun back => Std.Irrefl.irrefl (r := (· < ·)) key (Trans.trans back less)
    rw [Entries.put, if_neg differs, if_neg greater, ih further, List.cons_append]

end SpecServer.Entries
