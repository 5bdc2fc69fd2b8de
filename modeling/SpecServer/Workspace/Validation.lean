import SpecServer.Diagnostic.Route
import SpecServer.Workspace.Basic
set_option autoImplicit false

/-!
Running a pass over a context and showing what it found. Each document that the context tracks or that a
finding is about loses its diagnostics first and is published once at the end.
-/

namespace SpecServer

/-- The documents of a pass that were cleared, in order, and how many diagnostics they may still get. -/
structure Round where
  budget : Budget
  touched : List Uri
deriving DecidableEq, Repr

namespace Workspace

def touch (round : Round) (workspace : Workspace) (key : Uri) : Round × Workspace :=
  if round.touched.contains key then (round, workspace)
  else ({ round with touched := round.touched ++ [key] }, workspace.modifyFile key Document.clear)

def touchAll (round : Round) (workspace : Workspace) : List Uri → Round × Workspace
  | [] => (round, workspace)
  | key :: rest =>
    let (round, workspace) := touch round workspace key
    touchAll round workspace rest

/-- Gives a diagnostic to its document, if that is tracked and may get one more. -/
def deliver (round : Round) (workspace : Workspace) (found : Uri × Diagnostic) : Round × Workspace :=
  match workspace.store.find? found.1 with
  | none => (round, workspace)
  | some document =>
    let (round, workspace) := touch round workspace document.uri
    let (granted, budget) := round.budget.take document.uri
    let round := { round with budget := budget }
    if granted then (round, workspace.modifyFile document.uri fun document => document.push found.2)
    else (round, workspace)

def deliverAll (round : Round) (workspace : Workspace) : List (Uri × Diagnostic) → Round × Workspace
  | [] => (round, workspace)
  | found :: rest =>
    let (round, workspace) := deliver round workspace found
    deliverAll round workspace rest

def levelOf : Route.Line → LogLevel
  | .debug => .debug
  | .verbose => .verbose
  | .error => .error

def dispatch (round : Round) (workspace : Workspace) : List Message → Round × Workspace
  | [] => (round, workspace)
  | message :: rest =>
    match Route.destination message workspace.settings.informationSeverity with
    | .log line text => dispatch round (workspace.log (levelOf line) text) rest
    | .diagnostics found =>
      let (round, workspace) := deliverAll round workspace found
      dispatch round workspace rest

/-- Publishes documents, also those without diagnostics. -/
def publishAll (workspace : Workspace) (keys : List Uri) : Workspace :=
  { workspace with store := keys.foldl (fun store key => (store.flush key true).2) workspace.store }

def isEndless : Except EngineError (List Message) → Bool
  | .error _ => false
  | .ok messages => (Message.settled? messages).isNone

/-- Runs a pass over a context. After a pass without failure the generations that it saw are kept; they are taken
at its end, so that what was read from the disk on the way counts as seen. -/
def runPass (workspace : Workspace) (id : Nat) (context : Context) : Except EngineError Unit × Workspace :=
  let round : Round := ⟨Budget.start workspace.settings.problemLimit, []⟩
  let (round, workspace) := touchAll round workspace context.tracked
  let (result, context, store) := context.process workspace.store
  let workspace := { workspace with store := store, endless := workspace.endless || isEndless result }
  match result with
  | .error error =>
    let workspace := { workspace with registry := workspace.registry.set id context }
    (.error error, (workspace.publishAll round.touched).forward)
  | .ok messages =>
    let seen := { context with processed := some (context.generations store) }
    let workspace := { workspace with registry := workspace.registry.set id seen }
    let (round, workspace) := dispatch round workspace messages
    (.ok (), (workspace.publishAll round.touched).forward)

/-- Validates an activated context, unless nothing that a pass reads has changed since the last one. -/
def revalidate (workspace : Workspace) (id : Nat) : Except EngineError Unit × Workspace :=
  match workspace.registry.get? id with
  | none => (.ok (), workspace)
  | some context =>
    if !context.activated || context.isUpToDate (context.generations workspace.store) then (.ok (), workspace)
    else workspace.runPass id context

/-- Validates contexts one after another; failures go to the log. -/
def revalidateAll (workspace : Workspace) : List Nat → Workspace
  | [] => workspace
  | id :: rest =>
    match workspace.revalidate id with
    | (.ok (), workspace) => revalidateAll workspace rest
    | (.error error, workspace) => revalidateAll (workspace.log .error error.message) rest

end Workspace

end SpecServer
