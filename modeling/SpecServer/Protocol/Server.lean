import SpecServer.Protocol.Message
import SpecServer.Protocol.Params
import SpecServer.Workspace.Editing
import SpecServer.Workspace.Setup
set_option autoImplicit false

/-!
The server of an editor: it answers requests and follows notifications, one message after another.
-/

namespace SpecServer.Protocol

/-- A document that the editor has open: its language and its latest text. -/
structure OpenDocument where
  language : String
  text : String
deriving DecidableEq, Repr

/-- The state of the server. Open documents are kept under the normal form of their URIs. -/
structure Server where
  workspace : Workspace
  documents : List (Uri × OpenDocument)
deriving DecidableEq

inductive Unfollowed where
  | invalidParams (error : ShapeError)
  | failed (error : WorkspaceError)
deriving DecidableEq, Repr

def Unfollowed.message : Unfollowed → String
  | invalidParams error => "Invalid parameters: " ++ error.message
  | failed error => error.message

def capabilities : Json :=
  .object [("definitionProvider", .bool true), ("hoverProvider", .bool true),
    ("textDocumentSync", .object [("change", natural 1), ("openClose", .bool true),
      ("save", .object [("includeText", .bool true)])])]

def identity : Json :=
  .object [("name", .string "openapi-language-server"), ("version", .string "0.1.0")]

def greeting : Json :=
  .object [("capabilities", capabilities), ("serverInfo", identity)]

namespace Server

def takeMessages (server : Server) : List Outgoing × Server :=
  let (events, workspace) := server.workspace.takeEvents
  (events.filterMap Outgoing.ofEvent?, { server with workspace := workspace })

def withDisk (server : Server) (disk : Disk) : Server :=
  { server with workspace := { server.workspace with store := { server.workspace.store with disk := disk } } }

/-! ## Open documents -/

def remember (server : Server) (uri : Uri) (document : OpenDocument) : Server :=
  let key := uri.normalize
  { server with documents := (key, document) :: Entries.erase server.documents key }

def forget (server : Server) (uri : Uri) : Server :=
  { server with documents := Entries.erase server.documents uri.normalize }

def document? (server : Server) (uri : Uri) : Option OpenDocument :=
  Entries.get? server.documents uri.normalize

/-! ## Notifications -/

def settle (server : Server) (outcome : Except WorkspaceError Unit × Workspace) : Except Unfollowed Unit × Server :=
  (outcome.1.mapError .failed, { server with workspace := outcome.2 })

def opened (server : Server) (params : Json) : Except Unfollowed Unit × Server :=
  let item := params.valueAt "textDocument"
  let uri := uriAt item "uri"
  let document : OpenDocument := ⟨item.textAt "languageId", item.textAt "text"⟩
  let server := server.remember uri document
  server.settle (server.workspace.edit uri document.language document.text)

/-- A document was changed. Changes of documents that are not open do not count. -/
def changed (server : Server) (params : Json) : Except Unfollowed Unit × Server :=
  let uri := subject params
  match lastText? params, server.document? uri with
  | some text, some document =>
    let server := server.remember uri { document with text := text }
    server.settle (server.workspace.edit uri document.language text)
  | _, _ => (.ok (), server)

def closed (server : Server) (params : Json) : Except Unfollowed Unit × Server :=
  let uri := subject params
  let server := server.forget uri
  (.ok (), { server with workspace := server.workspace.close uri })

/-- A document was saved. If the message does not bring the text, it is the latest one. -/
def saved (server : Server) (params : Json) : Except Unfollowed Unit × Server :=
  let uri := subject params
  match (params.textAt? "text").or ((server.document? uri).map OpenDocument.text) with
  | some text => server.settle (server.workspace.save uri text)
  | none => (.ok (), server)

def watched (server : Server) (params : Json) : Except Unfollowed Unit × Server :=
  let uris := (params.itemsAt "changes").map fun change => uriAt change "uri"
  (.ok (), { server with workspace := server.workspace.changedOnDisk uris })

def configured (server : Server) (params : Json) : Except Unfollowed Unit × Server :=
  (.ok (), { server with workspace := server.workspace.configure (params.valueAt "settings") })

/-- The shape of a notification's parameters and what it does; nothing for those that do not matter. -/
def notification? (method : String) : Option (Shape × (Server → Json → Except Unfollowed Unit × Server)) :=
  match method with
  | "textDocument/didOpen" => some (openedShape, opened)
  | "textDocument/didChange" => some (changedShape, changed)
  | "textDocument/didClose" => some (closedShape, closed)
  | "textDocument/didSave" => some (savedShape, saved)
  | "workspace/didChangeWatchedFiles" => some (watchedShape, watched)
  | "workspace/didChangeConfiguration" => some (settingsShape, configured)
  | _ => none

def follow (server : Server) (method : String) (params : Json) : Except Unfollowed Unit × Server :=
  match notification? method with
  | none => (.ok (), server)
  | some (shape, act) =>
    match shape.read params with
    | .error error => (.error (.invalidParams error), server)
    | .ok params => act server params

/-- Follows a notification; a failure goes to the log. -/
def notify (server : Server) (method : String) (params : Json) : Server :=
  match server.follow method params with
  | (.ok (), server) => server
  | (.error reason, server) =>
    { server with workspace := server.workspace.log .error (method ++ ": " ++ reason.message) }

/-! ## Requests -/

def hover (server : Server) (params : Json) : Json × Server :=
  let (uri, position) := placeOf params
  let (contents, workspace) := server.workspace.hover uri position
  (Protocol.hover contents, { server with workspace := workspace })

def definition (server : Server) (params : Json) : Json × Server :=
  let (uri, position) := placeOf params
  let (found, workspace) := server.workspace.definitions uri position
  (locations found, { server with workspace := workspace })

def merged (server : Server) (params : Json) : Json × Server :=
  let (found, workspace) := server.workspace.definition? (uriAt params "uri")
  ((found.map Protocol.definition).getD .null, { server with workspace := workspace })

/-- The shape of a request's parameters and how it is answered, if the request is known. -/
def request? (method : String) : Option (Shape × (Server → Json → Json × Server)) :=
  match method with
  | "textDocument/hover" => some (hoverShape, hover)
  | "textDocument/definition" => some (definitionShape, definition)
  | "openapi/mergedDefinition" => some (mergedShape, merged)
  | _ => none

def reply (server : Server) (id : RequestId) (method : String) (params : Json) : Outgoing × Server :=
  match request? method with
  | none => (.refusal id (.unknownMethod method), server)
  | some (shape, act) =>
    match shape.read params with
    | .error error => (.refusal id (.invalidParams error), server)
    | .ok params =>
      let (result, server) := act server params
      (.answer id result, server)

/-! ## Messages -/

/-- Handles a message of the editor. What a request makes the workspace say comes before its answer. -/
def receive (server : Server) : Incoming → List Outgoing × Server
  | .request id method params =>
    let (answer, server) := server.reply id method params
    let (said, server) := server.takeMessages
    (said ++ [answer], server)
  | .notification method params => (server.notify method params).takeMessages
  | .answer => ([], server)

def start (disk : Disk) (id : RequestId) (params : Json) : Except ShapeError (List Outgoing × Server) :=
  match startShape.read params with
  | .error error => .error error
  | .ok params =>
    let server : Server :=
      match (Workspace.start disk).setRoot (Protocol.rootOf params) with
      | (.ok (), workspace) => ⟨workspace, []⟩
      | (.error error, workspace) => ⟨workspace.log .error error.message, []⟩
    let (said, server) := server.takeMessages
    .ok (.answer id greeting :: said, server)

end Server

end SpecServer.Protocol
