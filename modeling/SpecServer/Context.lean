import SpecServer.Documents
import SpecServer.Engine.Session
set_option autoImplicit false

/-!
Contexts: a configuration, the engine's session for it, and the documents it governs.
-/

namespace SpecServer

/-- Whether a configuration is a document of its own or was generated for a single document. -/
inductive ContextKind where
  | real
  | synthesized
deriving DecidableEq, Repr

abbrev Generations := List (Uri × Nat)

/-- A context. Tracked documents are named by their keys in the store; `processed` holds the generations that
the last pass without failure saw. -/
structure Context where
  configuration : Uri
  kind : ContextKind
  session : Session
  tracked : List Uri
  activated : Bool
  processed : Option Generations
deriving DecidableEq

namespace Context

def start (kind : ContextKind) (session : Session) : Context :=
  ⟨session.configuration, kind, session, [], false, none⟩

def isSynthesized (context : Context) : Bool :=
  context.kind == .synthesized

def isTracking (context : Context) (key : Uri) : Bool :=
  context.tracked.contains key

def track (context : Context) (key : Uri) : Context :=
  if context.isTracking key then context else { context with tracked := context.tracked ++ [key] }

def untrack (context : Context) (key : Uri) : Context :=
  { context with tracked := context.tracked.erase key }

def activate (context : Context) : Context :=
  { context with activated := true }

def addInput (context : Context) (uri : Uri) : Context :=
  { context with session := context.session.addInput uri }

def inputs (context : Context) : List Uri :=
  (context.session.view.map View.inputs).getD []

def hasActive (active : Uri → Bool) (context : Context) : Bool :=
  context.tracked.any active

/-- The generations of all that a pass reads: of the tracked documents, and of the declared inputs that are
not tracked but known to the store. -/
def generations (store : Store) (context : Context) : Generations :=
  let tracked := context.tracked.map fun key => (key, ((store.file? key).map Document.generation).getD 0)
  context.inputs.foldl
    (fun found input =>
      if found.any (·.1 == input) then found
      else
        match store.get? input with
        | some document => found ++ [(input, document.generation)]
        | none => found)
    tracked

def isUpToDate (context : Context) (generations : Generations) : Bool :=
  context.processed == some generations

def concerns (context : Context) (key : Uri) : Bool :=
  context.activated &&
    (context.isTracking key || context.configuration == key || context.inputs.contains key)

def loadView (store : Store) (context : Context) : Except EngineError View × Context × Store :=
  let (result, session, store) := context.session.loadView Store.source store
  (result, { context with session := session }, store)

def process (store : Store) (context : Context) : Except EngineError (List Message) × Context × Store :=
  let (result, session, store) := context.session.process Store.source store
  (result, { context with session := session }, store)

/-- Tracks nothing any longer, and hides what the editor shows for it. -/
def teardown (store : Store) (context : Context) : Context × Store :=
  ({ context with tracked := [] }, context.tracked.foldl Store.hide store)

end Context

end SpecServer
