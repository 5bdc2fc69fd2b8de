import SpecServer.Proofs.Json.Proper
import SpecServer.Yaml.Document
set_option autoImplicit false

/-!
The values of YAML texts. Each of them is a document as JSON texts hold them: a repeated key keeps its place, and integers
beyond 64 bits are refused.
-/

namespace SpecServer.Yaml

private theorem bind_eq_ok {ε α β : Type} {first : Except ε α} {next : α → Except ε β} {result : β}
    (done : (first >>= next) = .ok result) : ∃ value, first = .ok value ∧ next value = .ok result := by
  cases first with
  | error error => cases done
  | ok value => exact ⟨value, rfl, done⟩

theorem map_eq_ok {ε α β : Type} {first : Except ε α} {change : α → β} {result : β}
    (done : first.map change = .ok result) : ∃ value, first = .ok value ∧ change value = result := by
  cases first with
  | error error => cases done
  | ok value => exact ⟨value, rfl, Except.ok.inj done⟩

namespace Recording

variable {r : Recording} {inner : Inner} {trail : Trail} {walk : Walk} {found : Json × Walk} {fuel : Nat}

/-- Whether a reader gives only documents that JSON texts hold as well. -/
def Sound (inner : Inner) : Prop :=
  ∀ {trail walk found}, inner trail walk = .ok found → found.1.Proper

private theorem proper_integerValue {n : Int} {misfit : Misfit → ReadError} {value : Json}
    (read : integerValue n misfit = .ok value) : value.Proper := by
  unfold integerValue at read
  split at read
  next range =>
    cases read
    exact .number _ range
  next => cases read

private theorem proper_floatValue (x : Option Decimal.Binary64) : (floatValue x).Proper := by
  cases x with
  | none => exact .null
  | some x => exact .number (.float x) trivial

private theorem proper_scalarValue {tag : Option (List Char)} {text : List Char} {style : Style}
    {misfit : Misfit → ReadError}
    {value : Json} (read : scalarValue tag text style misfit = .ok value) : value.Proper := by
  simp only [scalarValue] at read
  split at read
  next tag =>
    split at read
    next isBool =>
      split at read
      · cases read
        exact .bool _
      · cases read
    next =>
      split at read
      next isInt =>
        split at read
        · exact proper_integerValue read
        · cases read
      next =>
        split at read
        next isFloat =>
          split at read
          · cases read
            exact proper_floatValue _
          · cases read
        next =>
          split at read
          next isNull =>
            split at read
            · cases read
              exact .null
            · cases read
          next =>
            cases read
            exact .string _
  next =>
    split at read
    next isPlain =>
      split at read
      · cases read
        exact .null
      · cases read
        exact .bool _
      · exact proper_integerValue read
      · cases read
        exact proper_floatValue _
      · cases read
        exact .string _
    next =>
      cases read
      exact .string _

private theorem proper_items (sound : Sound inner) {items : List Json} (each : ∀ item ∈ items, item.Proper)
    (read : r.items inner trail fuel items walk = .ok found) : found.1.Proper := by
  induction fuel generalizing items walk with
  | zero => cases read
  | succ fuel ih =>
    rw [Recording.items] at read
    obtain ⟨⟨entry, mark⟩, -, read⟩ := bind_eq_ok read
    simp only at read
    split at read
    · cases read
      exact .array _ fun item member => each item (List.mem_reverse.mp member)
    · obtain ⟨⟨item, after⟩, first, read⟩ := bind_eq_ok read
      exact ih (List.forall_mem_cons.mpr ⟨sound first, each⟩) read

private theorem proper_fields (sound : Sound inner) {first : Bool} {fields : SpecServer.Entries String Json}
    (proper : (Json.object fields).Proper) (read : r.fields inner trail fuel first fields walk = .ok found) :
    found.1.Proper := by
  induction fuel generalizing first fields walk with
  | zero => cases read
  | succ fuel ih =>
    rw [Recording.fields] at read
    obtain ⟨⟨entry, mark⟩, -, read⟩ := bind_eq_ok read
    simp only at read
    split at read
    · cases read
      exact proper
    · obtain ⟨⟨⟨turn, name⟩, behind⟩, -, read⟩ := bind_eq_ok read
      obtain ⟨⟨value, after⟩, inside, read⟩ := bind_eq_ok read
      exact ih (proper.put _ (sound inside)) read

private theorem proper_content {reader : Option Inner} (sound : ∀ inner ∈ reader, Sound inner) {entry : Entry}
    {mark : Mark}
    (read : r.content reader trail entry mark walk = .ok found) : found.1.Proper := by
  unfold content at read
  split at read
  next tag text style =>
    split at read
    · cases read
    · obtain ⟨value, inside, rfl⟩ := map_eq_ok read
      exact proper_scalarValue inside
  next tag =>
    split at read
    · cases read
    · split at read
      next inner => exact proper_items (sound inner rfl) (List.forall_mem_nil _) read
      next => cases read
  next tag =>
    split at read
    · cases read
    · split at read
      next inner => exact proper_fields (sound inner rfl) Json.proper_empty read
      next => cases read
  next =>
    cases read
    exact .null
  next => cases read

private theorem proper_nodeWith {reader : Option Inner} (sound : ∀ inner ∈ reader, Sound inner)
    (read : r.nodeWith reader trail walk = .ok found) : found.1.Proper := by
  rw [nodeWith] at read
  obtain ⟨⟨entry, mark⟩, -, read⟩ := bind_eq_ok read
  simp only at read
  split at read
  next anchor =>
    obtain ⟨⟨place, behind⟩, -, read⟩ := bind_eq_ok read
    obtain ⟨⟨target, there⟩, -, read⟩ := bind_eq_ok read
    obtain ⟨⟨value, after⟩, inside, read⟩ := bind_eq_ok read
    have proper := proper_content sound inside
    cases read
    exact proper
  next => exact proper_content sound read

private theorem sound_node (r : Recording) (depth : Nat) : Sound (r.node depth) := by
  induction depth with
  | zero =>
    intro trail walk found read
    have none : ∀ inner ∈ (none : Option Inner), Sound inner := nofun
    exact proper_nodeWith none read
  | succ depth ih =>
    intro trail walk found read
    refine proper_nodeWith ?_ read
    intro inner same
    cases same
    exact ih

end Recording

/-- What a YAML text is read as is a document that JSON texts hold as well. -/
theorem proper_read {text : List Char} {document : Json} (done : read text = .ok document) : document.Proper := by
  rw [read] at done
  simp only at done
  obtain ⟨⟨value, walk⟩, inside, done⟩ := bind_eq_ok done
  have proper := Recording.sound_node _ _ inside
  simp only at done
  split at done
  · cases done
  · split at done
    · split at done
      · cases done
        exact proper
      · cases done
    · cases done
      exact proper

end SpecServer.Yaml
