import SpecServer.Engine.Reference
import SpecServer.Proofs.Locate
set_option autoImplicit false

/-!
Which messages come about. A message about a node names the range of its key, and comes about if the search for that key
ends; a pass gives its messages if each of them comes about.
-/

namespace SpecServer

variable {uri : Uri} {text : String} {path : Path} {messages : List Message}

theorem Message.settled?_eq_none_iff :
    settled? messages = none ↔ ∃ message ∈ messages, message.endless = true := by
  rw [settled?, ite_eq_left_iff, ← List.any_eq_true]
  simp

theorem Message.settled?_of_ne_none (settled : settled? messages ≠ none) : settled? messages = some messages :=
  if_neg fun endless => settled (if_pos endless)

theorem Message.settled?_append_eq_none_iff (messages more : List Message) :
    settled? (messages ++ more) = none ↔ settled? messages = none ∨ settled? more = none := by
  simp only [settled?_eq_none_iff, List.mem_append, or_and_right, exists_or]

namespace Input

private theorem rangeOf_eq_none_iff : rangeOf uri text path = none ↔ Locate.place? text path = none :=
  Option.map_eq_none_iff

private theorem endless_ruleMessage_iff {violation : Violation} :
    (ruleMessage uri text violation).endless = true ↔ Locate.place? text violation.path = none :=
  Option.isNone_iff_eq_none.trans rangeOf_eq_none_iff

/-- The check of a document by itself ends if the search for each node that breaks a rule does, where rules are checked. -/
theorem settled?_check {document : Json} {validate : Bool} : Message.settled? (check uri text document validate) = none ↔
    validate = true ∧ ∃ violation ∈ Rule.violations document, Locate.place? text violation.path = none := by
  have format : Message.settled? (if Literate.namesFormat document then [] else [formatless uri text]) ≠ none := by
    split <;> exact Option.some_ne_none _
  rw [check, Message.settled?_append_eq_none_iff, or_iff_right format, Message.settled?_eq_none_iff]
  cases validate <;> simp [endless_ruleMessage_iff]

end Input

theorem Reference.endless_dangling_iff {reference : String} :
    (dangling uri text path reference).endless = true ↔ Locate.place? text path = none :=
  Option.isNone_iff_eq_none.trans Input.rangeOf_eq_none_iff

end SpecServer
