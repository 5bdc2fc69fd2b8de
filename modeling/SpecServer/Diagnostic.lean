import SpecServer.Entries
import SpecServer.Text.Position
import SpecServer.Uri.Basic
set_option autoImplicit false

/-!
What the editor shows in documents, and how many of it.
-/

namespace SpecServer

inductive Severity where
  | error
  | warning
  | information
deriving DecidableEq, Repr

def Severity.code : Severity → Nat
  | error => 1
  | warning => 2
  | information => 3

/-- A range in a document: two places, both counted from zero. -/
structure Span where
  start : Text.Position
  stop : Text.Position
deriving DecidableEq, Repr

/-- A diagnostic; severity and source may be missing. -/
structure Diagnostic where
  span : Span
  severity : Option Severity
  source : Option String
  message : String
deriving DecidableEq, Repr

structure Budget where
  limit : Option Nat
  used : List (Uri × Nat)
deriving DecidableEq, Repr

namespace Budget

def start (limit : Option Nat) : Budget := ⟨limit, []⟩

def usedBy (budget : Budget) (uri : Uri) : Nat :=
  (Entries.get? budget.used uri).getD 0

/-- Takes a place for a diagnostic of a file, if there is one. -/
def take (budget : Budget) (uri : Uri) : Bool × Budget :=
  let used := budget.usedBy uri
  if budget.limit.any (· ≤ used) then (false, budget)
  else (true, { budget with used := (uri, used + 1) :: Entries.erase budget.used uri })

end Budget

end SpecServer
