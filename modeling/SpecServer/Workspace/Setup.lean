import SpecServer.Uri.FilePath
import SpecServer.Workspace.Basic
set_option autoImplicit false

/-!
What is set for the whole workspace: the settings, the engine, which is acquired with the first settings, and
the root folder, which is set once.
-/

namespace SpecServer.Workspace

/-- Puts the settings of a payload in force; a payload that cannot be read counts as none. -/
def applySettings (workspace : Workspace) (payload : Json) : Workspace :=
  match Settings.read payload with
  | .ok settings => { workspace with settings := settings }
  | .error error =>
    let noted := workspace.log .warning ("Ignoring malformed settings (" ++ error.message ++ "), using defaults")
    { noted with settings := Settings.initial }

def acquireEngine (workspace : Workspace) : Workspace :=
  match workspace.engine.acquire workspace.settings.requestedVersion with
  | (.ok (), engine) =>
    { workspace with engine := engine, acquisition := .ready }.log .information "Analysis engine runtime acquired."
  | (.error error, engine) =>
    { workspace with engine := engine, acquisition := .failed error }.log .warning
      ("Unable to get analysis engine runtime -- \n\n INFO: " ++ error.message)

def configure (workspace : Workspace) (payload : Json) : Workspace :=
  let workspace := workspace.applySettings payload
  if workspace.acquisition = .pending then workspace.acquireEngine else workspace

/-- The root that a text names: a URI, or the path of a folder. -/
def rootOf (text : String) : Except UriError Uri :=
  match Uri.parse text with
  | .ok uri => .ok uri.normalize
  | .error error =>
    match Uri.ofFolder? text with
    | some uri => .ok uri.normalize
    | none => .error error

def setRoot (workspace : Workspace) (text : Option String) : Except WorkspaceError Unit × Workspace :=
  match text.filter (!·.isEmpty) with
  | none => (.ok (), workspace.log .warning "No workspace uri.")
  | some raw =>
    match rootOf raw with
    | .error error => (.error (.invalidUri raw error), workspace)
    | .ok requested =>
      match workspace.root with
      | some current => (.error (.rootAlreadySet current requested), workspace)
      | none =>
        let noted := workspace.log .debug ("Workspace root: " ++ requested.render)
        (.ok (), { noted with root := some requested })

end SpecServer.Workspace
