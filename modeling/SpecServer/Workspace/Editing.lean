import SpecServer.Workspace.Ownership
import SpecServer.Workspace.Validation
set_option autoImplicit false

/-!
What the editor does with documents: it opens, changes, closes and saves them, and says what changed on the
disk.
-/

namespace SpecServer.Workspace

/-- Handles the opening and each change of a document. Where its language is none that is analysed, it only
loses its diagnostics. The content is replaced before the context is looked for, which may depend on it. -/
def edit (workspace : Workspace) (uri : Uri) (language text : String) : Except WorkspaceError Unit × Workspace :=
  let uri := uri.normalize
  if Engine.isConfigurationLanguage language || Engine.isSpecificationLanguage language then
    let (key, workspace) := workspace.acquire uri none
    let workspace := workspace.modifyFile key fun file => (file.setActive true).setContent (some text)
    match workspace.resolve uri with
    | (.error error, workspace) => (.error error, workspace)
    | (.ok id, workspace) =>
      let workspace := workspace.modifyContext id fun context => context.track key
      let workspace :=
        match workspace.registry.get? id with
        | none => workspace
        | some context =>
          if context.activated then workspace
          else
            (workspace.modifyContext id Context.activate).log .debug
              ("Activated context for " ++ context.configuration.render)
      let affected := workspace.registry.concerned uri
      (.ok (), workspace.revalidateAll (if affected.contains id then affected else affected ++ [id]))
  else
    match workspace.store.get? uri with
    | none => (.ok (), workspace)
    | some file =>
      let workspace := workspace.modifyFile file.uri fun file => file.setContent (some text)
      (.ok (), (workspace.hide file.uri).forward)

/-- Takes an input out of the context whose configuration is closed, unless the input is open itself. -/
def dropInput (id : Nat) (workspace : Workspace) (input : Uri) : Workspace :=
  match workspace.store.get? input with
  | none => workspace
  | some file =>
    if file.active then workspace else (workspace.removeKey (.input input)).untrackAndHide id file.uri

def close (workspace : Workspace) (uri : Uri) : Workspace :=
  let uri := uri.normalize
  match workspace.store.get? uri with
  | none => workspace
  | some file =>
    match workspace.registry.ownerOf uri with
    | none => ((workspace.modifyFile file.uri fun file => file.setActive false).hide file.uri).forward
    | some id =>
      match workspace.registry.get? id with
      | none => workspace
      | some context =>
        let isOwn := !context.isSynthesized && context.configuration == uri
        let workspace := if isOwn then context.inputs.foldl (dropInput id) workspace else workspace
        let workspace := workspace.modifyFile file.uri fun file => file.setActive false
        let workspace :=
          if context.isSynthesized then workspace.removeKey (.synthesized context.configuration)
          else if isOwn then workspace.removeKey (.configuration uri)
          else workspace
        ((workspace.removeKey (.input uri)).untrackAndHide id file.uri).prune

/-- Drops the content of a document that changed on the disk, and adds the contexts that this matters to. The
editor's content counts as long as the document is open. -/
def noteChange (affected : List Nat) (workspace : Workspace) (uri : Uri) : List Nat × Workspace :=
  let uri := uri.normalize
  if uri.kind = .file then
    let workspace := workspace.log .debug ("Changed On Disk: " ++ uri.render)
    match workspace.store.get? uri with
    | none => (affected, workspace)
    | some file =>
      if file.active then (affected, workspace)
      else
        let workspace := workspace.modifyFile file.uri fun file => file.setContent none
        let added := (workspace.registry.concerned uri).filter fun id => !affected.contains id
        (affected ++ added, workspace)
  else (affected, workspace)

def noteChanges (affected : List Nat) (workspace : Workspace) : List Uri → List Nat × Workspace
  | [] => (affected, workspace)
  | uri :: rest =>
    let (affected, workspace) := noteChange affected workspace uri
    noteChanges affected workspace rest

def changedOnDisk (workspace : Workspace) (uris : List Uri) : Workspace :=
  let (affected, workspace) := noteChanges [] workspace uris
  workspace.revalidateAll affected

def editorEntry : String := "vscode"

/-- What the configuration of a context says about the JSON form of literate documents. -/
def syncOf (context : Context) : Option Bool :=
  match (context.session.view.bind fun view => view.entries.get? editorEntry).bind fun entry => entry.field? "sync" with
  | some (.bool sync) => some sync
  | _ => none

/-- Whether saving a literate document writes its JSON form: always if the configuration says so, and
otherwise where there is one, unless the configuration forbids it. -/
def shouldWriteShadow (sync : Option Bool) (shadowExists : Bool) : Bool :=
  sync == some true || (shadowExists && sync != some false)

def writeShadow (workspace : Workspace) (path : List UInt8) (content : String) :
    Except WorkspaceError Unit × Workspace :=
  match workspace.store.disk.write path (Text.Utf8.encode content.toList) with
  | .error error => (.error (.disk error), workspace)
  | .ok disk =>
    let workspace := { workspace with store := { workspace.store with disk := disk } }
    (.ok (), workspace.log .verbose ("Updated " ++ String.ofList (Uri.pathText path)))

/-- Handles the saving of a document. Only literate specifications have a JSON form. -/
def save (workspace : Workspace) (uri : Uri) (text : String) : Except WorkspaceError Unit × Workspace :=
  let uri := uri.normalize
  if uri.extension?.any Uri.isLiterateExtension then
    match (Literate.toJson? text).filter Literate.isSpecification with
    | none => (.ok (), workspace)
    | some content =>
      match workspace.resolve uri with
      | (.error error, workspace) => (.error error, workspace)
      | (.ok id, workspace) =>
        let sync := (workspace.registry.get? id).bind syncOf
        match uri.shadowPath? with
        | none => (.ok (), workspace)
        | some path =>
          if shouldWriteShadow sync (workspace.store.disk.exists? path) then workspace.writeShadow path content
          else (.ok (), workspace)
  else (.ok (), workspace)

end SpecServer.Workspace
