import Mathlib.Algebra.Group.Int.Defs
import SpecServer.Json.Merge
import SpecServer.Proofs.Entries
import SpecServer.Proofs.Registry.Lookup
set_option autoImplicit false

/-!
Documents as texts hold them: the keys of each object ascend and each integer has 64 bits. Layering such documents onto
each other gives such a document.
-/

namespace SpecServer

/-- Whether a number is one that texts hold: an integer has 64 bits, with a sign or without. -/
def Number.Fits : Number → Prop
  | .integer n => -2 ^ 63 ≤ n ∧ n < 2 ^ 64
  | .float _ => True

namespace Json

/-- Whether a document is one that texts hold: the keys of objects ascend and the numbers fit. -/
inductive Proper : Json → Prop
  | null : Proper null
  | bool (b : Bool) : Proper (bool b)
  | number (n : Number) (fits : n.Fits) : Proper (number n)
  | string (s : String) : Proper (string s)
  | array (items : List Json) (each : ∀ item ∈ items, Proper item) : Proper (array items)
  | object (fields : List (String × Json)) (ascending : Entries.Ascending fields)
      (each : ∀ field ∈ fields, Proper field.2) : Proper (object fields)

variable {fields : Entries String Json} {value : Json} {key : String}

private theorem Proper.each_item {items : List Json} (proper : (Json.array items).Proper) :
    ∀ item ∈ items, item.Proper := by
  cases proper with
  | array _ each => exact each

private theorem Proper.each_field (proper : (Json.object fields).Proper) : ∀ field ∈ fields, field.2.Proper := by
  cases proper with
  | object _ _ each => exact each

theorem proper_empty : (object []).Proper :=
  .object [] .nil nofun

theorem Proper.put (proper : (Json.object fields).Proper) (key : String) (inner : value.Proper) :
    (Json.object (fields.put key value)).Proper := by
  cases proper with
  | object _ ascending each =>
    refine .object _ (ascending.put key value) ?_
    intro field member
    rcases Entries.mem_of_mem_put member with rfl | before
    · exact inner
    · exact each field before

private theorem Proper.push {items : List Json} (proper : (Json.array items).Proper) (inner : value.Proper) :
    (Json.array (items ++ [value])).Proper := by
  refine .array _ (List.forall_mem_append.mpr ⟨proper.each_item, ?_⟩)
  intro item member
  rwa [List.mem_singleton.mp member]

mutual

theorem proper_overlay (base layer : Json) (proper : base.Proper) (above : layer.Proper) :
    (overlay base layer).Proper := by
  cases layer with
  | object added =>
    cases base with
    | object fields => exact proper_overlayFields fields added proper above.each_field
    | array items => exact proper.push above
    | _ => exact above
  | array added =>
    cases base with
    | array items => exact .array _ (List.forall_mem_append.mpr ⟨proper.each_item, above.each_item⟩)
    | _ => exact above
  | null =>
    cases base with
    | array items => exact proper.push above
    | _ => exact proper
  | _ =>
    cases base with
    | array items => exact proper.push above
    | _ => exact above
termination_by structural layer

theorem proper_overlayFields (fields : Entries String Json) (added : List (String × Json))
    (proper : (Json.object fields).Proper) (above : ∀ field ∈ added, field.2.Proper) :
    (object (overlayFields fields added)).Proper := by
  cases added with
  | nil => exact proper
  | cons field rest =>
    obtain ⟨first, later⟩ := List.forall_mem_cons.mp above
    rw [overlayFields]
    exact proper_overlayFields _ rest (proper_overlayField fields field proper first) later
termination_by structural added

theorem proper_overlayField (fields : Entries String Json) (field : String × Json) (proper : (Json.object fields).Proper)
    (above : field.2.Proper) : (object (overlayField fields field)).Proper := by
  obtain ⟨key, value⟩ := field
  rw [overlayField]
  split
  next existing found =>
    exact proper.put key (proper_overlay existing value (proper.each_field _ (Entries.mem_of_get? found)) above)
  next => exact proper.put key above
termination_by structural field

end

end Json

end SpecServer
