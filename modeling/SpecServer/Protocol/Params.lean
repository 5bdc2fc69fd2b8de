import SpecServer.Json.Shape
import SpecServer.Text.Position
set_option autoImplicit false

/-!
The parameters of the editor's messages: the shape each kind has, and what is read from them.
-/

namespace SpecServer.Protocol

/-! ## Shapes -/

abbrev Fields := List (String × Presence × Shape)

def word32 : Shape := .natural "u32" (Nat.pow 2 32)

def integer32 : Shape := .integer "i32" (Nat.pow 2 31)

def optional (name : String) (shape : Shape) : String × Presence × Shape :=
  (name, .optional, .option shape)

def required (name : String) (shape : Shape) : String × Presence × Shape :=
  (name, .required, shape)

def positionShape : Shape :=
  .record "struct Position" [required "line" word32, required "character" word32]

def rangeShape : Shape :=
  .record "struct Range" [required "start" positionShape, required "end" positionShape]

def documentShape : Shape :=
  .record "struct TextDocumentIdentifier" [required "uri" .uri]

def versionedShape : Shape :=
  .record "struct VersionedTextDocumentIdentifier" [required "uri" .uri, required "version" integer32]

def itemShape : Shape :=
  .record "struct TextDocumentItem"
    [required "uri" .uri, required "languageId" .text, required "version" integer32, required "text" .text]

def tokenShape : Shape :=
  .choice "NumberOrString" [integer32, .text]

def placeFields : Fields :=
  [required "textDocument" documentShape, required "position" positionShape]

def hoverShape : Shape :=
  .flat "struct HoverParams" [placeFields, [optional "workDoneToken" tokenShape]]

def definitionShape : Shape :=
  .flat "struct GotoDefinitionParams"
    [placeFields, [optional "workDoneToken" tokenShape], [optional "partialResultToken" tokenShape]]

def mergedShape : Shape :=
  .record "struct MergedDefinitionParams" [required "uri" .uri]

def openedShape : Shape :=
  .record "struct DidOpenTextDocumentParams" [required "textDocument" itemShape]

def changeShape : Shape :=
  .record "struct TextDocumentContentChangeEvent"
    [optional "range" rangeShape, optional "rangeLength" word32, required "text" .text]

def changedShape : Shape :=
  .record "struct DidChangeTextDocumentParams"
    [required "textDocument" versionedShape, required "contentChanges" (.list changeShape)]

def closedShape : Shape :=
  .record "struct DidCloseTextDocumentParams" [required "textDocument" documentShape]

def savedShape : Shape :=
  .record "struct DidSaveTextDocumentParams" [required "textDocument" documentShape, optional "text" .text]

def fileEventShape : Shape :=
  .record "struct FileEvent" [required "uri" .uri, required "type" integer32]

def watchedShape : Shape :=
  .record "struct DidChangeWatchedFilesParams" [required "changes" (.list fileEventShape)]

def settingsShape : Shape :=
  .record "struct DidChangeConfigurationParams" [required "settings" .any]

def capabilityGroup (name : String) : Shape := .record name []

def capabilitiesShape : Shape :=
  .record "struct ClientCapabilities"
    [optional "workspace" (capabilityGroup "struct WorkspaceClientCapabilities"),
      optional "textDocument" (capabilityGroup "struct TextDocumentClientCapabilities"),
      optional "notebookDocument" (capabilityGroup "struct NotebookDocumentClientCapabilities"),
      optional "window" (capabilityGroup "struct WindowClientCapabilities"),
      optional "general" (capabilityGroup "struct GeneralClientCapabilities"), optional "experimental" .any]

def folderShape : Shape :=
  .record "struct WorkspaceFolder" [required "uri" .uri, required "name" .text]

def clientShape : Shape :=
  .record "struct ClientInfo" [required "name" .text, optional "version" .text]

def startShape : Shape :=
  .record "struct InitializeParams"
    [optional "processId" word32, optional "rootPath" .text, ("rootUri", .defaulted, .option .uri),
      optional "initializationOptions" .any, required "capabilities" capabilitiesShape,
      ("trace", .defaulted, .option (.word ["off", "messages", "verbose"])),
      optional "workspaceFolders" (.list folderShape), optional "clientInfo" clientShape, optional "locale" .text]

/-! ## Reading -/

def uriAt (document : Json) (key : String) : Uri :=
  ((Uri.parse (document.textAt key)).toOption).getD default

def positionAt (document : Json) (key : String) : Text.Position :=
  let place := document.valueAt key
  ⟨place.naturalAt "line", place.naturalAt "character"⟩

def subject (params : Json) : Uri :=
  uriAt (params.valueAt "textDocument") "uri"

def placeOf (params : Json) : Uri × Text.Position :=
  (subject params, positionAt params "position")

/-- The root folder of the first request: a URI, or else a path. -/
def rootOf (params : Json) : Option String :=
  match params.textAt? "rootUri" with
  | some text => some (((Uri.parse text).toOption.map Uri.render).getD text)
  | none => params.textAt? "rootPath"

/-- The text after the last of some changes, each of which brings the whole text. -/
def lastText? (params : Json) : Option String :=
  ((params.itemsAt "contentChanges").getLast?).map fun change => change.textAt "text"

end SpecServer.Protocol
