import SpecServer.Engine.Message
set_option autoImplicit false

/-!
Where the engine gets its documents from. Reading one may change the state of the source, which then keeps
the content.
-/

namespace SpecServer

/-- A source of documents over a state. A document that does not exist is nothing, which is no failure. -/
structure Source (σ : Type) where
  read : Uri → σ → Except ReadFailure (Option String) × σ

namespace Source

def ofFunction (content : Uri → Except ReadFailure (Option String)) : Source Unit :=
  ⟨fun uri _ => (content uri, ())⟩

end Source

end SpecServer
