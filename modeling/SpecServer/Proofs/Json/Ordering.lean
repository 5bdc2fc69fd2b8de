import SpecServer.Engine.Input
import SpecServer.Proofs.Yaml.Values
set_option autoImplicit false

/-!
Each reader of documents makes only documents in which the keys of objects ascend.
-/

namespace SpecServer

namespace Json

variable {item : List Char → Reading Json} {fuel limit : Nat} {text : List Char} {found : Json × List Char}

private theorem Proper.ordered {document : Json} (proper : document.Proper) : document.Ordered := by
  induction proper with
  | null => exact .null
  | bool b => exact .bool b
  | number n => exact .number n
  | string s => exact .string s
  | array items _ ih => exact .array items ih
  | object fields ascending _ ih => exact .object fields ascending ih

/-- Whether a reader gives only documents with ascending keys. -/
def Orderly (item : List Char → Reading Json) : Prop :=
  ∀ {text found}, item text = .ok found → found.1.Ordered

private theorem Ordered.put {fields : Entries String Json} (ordered : (Json.object fields).Ordered) (key : String)
    {value : Json}
    (inner : value.Ordered) : (Json.object (fields.put key value)).Ordered := by
  cases ordered with
  | object _ ascending each =>
    refine .object _ (ascending.put key value) fun field member => ?_
    rcases Entries.mem_of_mem_put member with rfl | before
    · exact inner
    · exact each field before

private theorem ordered_itemsFrom (orderly : Orderly item) {read : List Json} (each : ∀ item ∈ read, item.Ordered)
    (done : itemsFrom item fuel read text = .ok found) : found.1.Ordered := by
  induction fuel generalizing read text with
  | zero => cases done
  | succ fuel ih =>
    rw [itemsFrom] at done
    split at done
    next => cases done
    next =>
      cases done
      exact .array _ fun item member => each item (List.mem_reverse.mp member)
    next =>
      split at done
      next => cases done
      next => cases done
      next =>
        split at done
        next => cases done
        next inside => exact ih (List.forall_mem_cons.mpr ⟨orderly inside, each⟩) done
    next => cases done

private theorem ordered_items (orderly : Orderly item) (done : items item fuel text = .ok found) : found.1.Ordered := by
  rw [items] at done
  split at done
  next => cases done
  next =>
    cases done
    exact .array [] nofun
  next =>
    split at done
    next => cases done
    next inside => exact ordered_itemsFrom orderly (List.forall_mem_singleton.mpr (orderly inside)) done

private theorem ordered_field (orderly : Orderly item) {entry : (String × Json) × List Char}
    (done : field item fuel text = .ok entry) : entry.1.2.Ordered := by
  rw [field] at done
  split at done
  next => cases done
  next =>
    split at done
    next => cases done
    next =>
      split at done
      next => cases done
      next inside =>
        cases done
        exact orderly inside
    next => cases done

private theorem ordered_fieldsFrom (orderly : Orderly item) {read : Entries String Json}
    (before : (Json.object read).Ordered)
    (done : fieldsFrom item limit fuel read text = .ok found) : found.1.Ordered := by
  induction fuel generalizing read text with
  | zero => cases done
  | succ fuel ih =>
    rw [fieldsFrom] at done
    split at done
    next => cases done
    next =>
      cases done
      exact before
    next =>
      split at done
      next => cases done
      next => cases done
      next =>
        split at done
        next => cases done
        next inside => exact ih (before.put _ (ordered_field orderly inside)) done
      next => cases done
    next => cases done

private theorem ordered_fields (orderly : Orderly item) (done : fields item fuel text = .ok found) :
    found.1.Ordered := by
  have empty : (Json.object []).Ordered := .object [] .nil nofun
  rw [fields] at done
  split at done
  next => cases done
  next =>
    cases done
    exact empty
  next =>
    split at done
    next => cases done
    next inside => exact ordered_fieldsFrom orderly (empty.put _ (ordered_field orderly inside)) done
  next => cases done

private theorem ordered_constant {value : Json} {rest : List Char} (plain : value.Ordered)
    (done : constant value rest text = .ok found) : found.1.Ordered := by
  obtain ⟨after, -, rfl⟩ := Yaml.map_eq_ok done
  exact plain

private theorem ordered_value {depth : Nat} (below : ∀ lower, depth = lower + 1 → Orderly (value fuel lower)) :
    Orderly (value fuel depth) := by
  intro text found done
  rw [value] at done
  split at done
  case h_1 => cases done
  case h_2 => exact ordered_constant .null done
  case h_3 => exact ordered_constant (.bool true) done
  case h_4 => exact ordered_constant (.bool false) done
  case h_5 =>
    obtain ⟨⟨s, after⟩, -, rfl⟩ := Yaml.map_eq_ok done
    exact .string s
  case h_6 =>
    split at done
    next => cases done
    next lower => exact ordered_items (below lower rfl) done
  case h_7 =>
    split at done
    next => cases done
    next lower => exact ordered_fields (below lower rfl) done
  case h_8 =>
    obtain ⟨⟨n, after⟩, -, rfl⟩ := Yaml.map_eq_ok done
    exact .number n
  case h_9 =>
    split at done
    next =>
      obtain ⟨⟨n, after⟩, -, rfl⟩ := Yaml.map_eq_ok done
      exact .number n
    next => cases done

private theorem orderly_value (fuel depth : Nat) : Orderly (value fuel depth) := by
  induction depth with
  | zero => exact ordered_value fun lower same => absurd same (Nat.zero_ne_add_one lower)
  | succ depth ih =>
    refine ordered_value fun lower same => ?_
    cases same
    exact ih

private theorem ordered_read {text : String} {document : Json} (done : read text = .ok document) :
    document.Ordered := by
  rw [read] at done
  split at done
  next whole =>
    cases done
    rw [Json.document] at whole
    split at whole
    next => cases whole
    next inside =>
      split at whole
      next =>
        cases whole
        exact orderly_value _ _ inside
      next => cases whole
  next => cases done

end Json

namespace Literate

variable {text : String} {offset : Nat} {document : Json} {found : List Block}

private theorem proper_structured {text : List Char} (read : structured text offset = .ok document) :
    document.Proper := by
  rw [structured] at read
  split at read
  next =>
    cases read
    exact .null
  next =>
    split at read
    next value inside =>
      cases read
      exact Yaml.proper_read inside
    next => cases read

private theorem proper_layer {base : Json} (proper : base.Proper) (layered : layer base found = .ok document) :
    document.Proper := by
  induction found generalizing base with
  | nil =>
    cases layered
    exact proper
  | cons block rest ih =>
    rw [layer] at layered
    split at layered
    next =>
      split at layered
      next => cases layered
      next value inside => exact ih (Json.proper_overlay base value proper (proper_structured inside)) layered
    next => exact ih proper layered

theorem proper_read (done : read text = .ok document) : document.Proper := by
  rw [read] at done
  split at done
  next => exact proper_structured done
  next => exact proper_layer Json.proper_empty done

end Literate

theorem Input.ordered_parse {input : Uri} {text : String} {document : Json} (parsed : parse input text = .ok document) :
    document.Ordered := by
  simp only [parse] at parsed
  split at parsed
  next =>
    split at parsed
    next done =>
      cases parsed
      exact Json.ordered_read done
    next => cases parsed
  next =>
    split at parsed
    next => exact (Literate.proper_read parsed).ordered
    next => exact (Literate.proper_structured parsed).ordered

end SpecServer
