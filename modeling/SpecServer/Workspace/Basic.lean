import SpecServer.Engine.Basic
import SpecServer.Registry
import SpecServer.Workspace.Log
set_option autoImplicit false

/-!
The state of the server: the documents, the contexts, the settings and the engine, and what happened since the
editor was last told. Events of the editor change this state one after another.
-/

namespace SpecServer

inductive WorkspaceEvent where
  | publish (publication : Publication)
  | report (line : LogLine)
  | record (line : LogLine)
deriving DecidableEq, Repr

inductive Acquisition where
  | pending
  | ready
  | failed (error : EngineError)
deriving DecidableEq, Repr

/-- The state of the server. It is endless once it came to a search that does not end: the server never gets further
then, and what the state holds is what would follow if the search gave nothing. -/
structure Workspace where
  store : Store
  registry : Registry
  settings : Settings
  engine : Engine
  acquisition : Acquisition
  root : Option Uri
  events : List WorkspaceEvent
  endless : Bool
deriving DecidableEq

inductive WorkspaceError where
  | rootAlreadySet (current requested : Uri)
  | invalidUri (text : String) (error : UriError)
  | engine (error : EngineError)
  | disk (error : DiskError)
deriving DecidableEq, Repr

def WorkspaceError.message : WorkspaceError → String
  | rootAlreadySet current requested =>
    "Workspace root is already set to " ++ current.render ++ ", refusing " ++ requested.render
  | invalidUri text error => "Invalid URI '" ++ text ++ "': " ++ error.message
  | engine error => error.message
  | disk error => "IO error: " ++ error.message

namespace Workspace

def start (disk : Disk) : Workspace :=
  ⟨Store.start disk, Registry.empty, Settings.initial, Engine.idle, .pending, none, [], false⟩

/-! ## Telling the editor -/

/-- Writes a line to the log of the process, and to the editor if it wants such lines. -/
def log (workspace : Workspace) (level : LogLevel) (text : String) : Workspace :=
  let line : LogLine := ⟨level, text⟩
  let shown := if line.isShown workspace.settings then [.report line] else []
  { workspace with events := workspace.events ++ .record line :: shown }

def forward (workspace : Workspace) : Workspace :=
  { workspace with
    store := { workspace.store with pending := [] }
    events := workspace.events ++ workspace.store.pending.map .publish }

def takeEvents (workspace : Workspace) : List WorkspaceEvent × Workspace :=
  (workspace.events, { workspace with events := [] })

/-! ## Changing a part -/

def modifyFile (workspace : Workspace) (key : Uri) (change : Document → Document) : Workspace :=
  { workspace with store := workspace.store.modify key change }

/-- Drops the diagnostics of a document, also in the editor. -/
def hide (workspace : Workspace) (key : Uri) : Workspace :=
  { workspace with store := workspace.store.hide key }

def modifyContext (workspace : Workspace) (id : Nat) (change : Context → Context) : Workspace :=
  { workspace with registry := workspace.registry.modify id change }

def index (workspace : Workspace) (key : ContextKey) (id : Nat) : Workspace :=
  { workspace with registry := workspace.registry.index key id }

def removeKey (workspace : Workspace) (key : ContextKey) : Workspace :=
  { workspace with registry := workspace.registry.removeKey key }

/-! ## Documents -/

def acquire (workspace : Workspace) (uri : Uri) (content : Option String) : Uri × Workspace :=
  let uri := uri.normalize
  let noted :=
    if workspace.store.contains uri then workspace
    else workspace.log .information ("Tracking file: " ++ uri.render)
  (uri.normalize, { noted with store := noted.store.acquire uri content })

/-- The content of a tracked document, if it can be had. -/
def content? (workspace : Workspace) (uri : Uri) : Option String × Workspace :=
  let (content, store) :=
    match workspace.store.get? uri with
    | none => (none, workspace.store)
    | some document =>
      let (result, store) := workspace.store.contentOf document
      (result.toOption, store)
  let workspace := { workspace with store := store }
  match content with
  | some text => (some text, workspace)
  | none => (none, workspace.log .information ("file '" ++ uri.render ++ "' not found"))

def definition? (workspace : Workspace) (uri : Uri) : Option Definition × Workspace :=
  let key := uri.normalize
  match (workspace.registry.ownerOf key).bind workspace.registry.get? with
  | none => (none, workspace.log .debug ("no context found for " ++ key.render))
  | some context =>
    match context.session.definition with
    | some definition => (some definition, workspace)
    | none =>
      (none, workspace.log .debug ("No merged definition available yet for " ++ context.configuration.render))

/-! ## Contexts -/

/-- Says that a context is gone, and hides what the editor shows for its documents. -/
def dispose (workspace : Workspace) (context : Context) : Workspace :=
  let noted := workspace.log .debug ("Disposing context for " ++ context.configuration.render)
  { noted with store := (context.teardown noted.store).2 }

def prune (workspace : Workspace) : Workspace :=
  let (removed, registry) := workspace.registry.prune workspace.store.isActive
  (removed.foldl dispose { workspace with registry := registry }).forward

/-- Takes a document out of a context, and hides what the editor shows for it. -/
def untrackAndHide (workspace : Workspace) (id : Nat) (key : Uri) : Workspace :=
  (workspace.modifyContext id fun context => context.untrack key).hide key

end Workspace

end SpecServer
