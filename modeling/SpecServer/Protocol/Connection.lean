import SpecServer.Protocol.Server
import SpecServer.Workspace.Reads
set_option autoImplicit false

/-!
A connection with an editor from its first to its last message, and how messages are framed: a header with
the length of the body, an empty line, and the body.
-/

namespace SpecServer.Protocol

/-! ## Frames -/

def frame (body : String) : String :=
  "Content-Length: " ++ toString body.utf8ByteSize ++ "\r\n\r\n" ++ body

/-- The length that a line of a header gives, if it gives one. -/
def lengthIn? (line : String) : Option Nat :=
  match Text.splitOnce ':' line.toList with
  | some (name, value) =>
    if name.map Text.asciiLower = "content-length".toList then (String.ofList (Text.trim value)).toNat? else none
  | none => none

/-! ## Connections -/

/-- A connection: before the first request, at work, at work that does not end, after the request to stop, and at its
end, with the reason if it ended because of the first request. -/
inductive Connection where
  | waiting
  | serving (server : Server)
  | stuck (server : Server)
  | leaving
  | ended (reason : Option ShapeError)

namespace Connection

/-- Handles a message of the editor with the given files on the disk. A server that does not get further says nothing
more. -/
def receive (disk : Disk) : Connection → Incoming → List Outgoing × Connection
  | .waiting, .request id "initialize" params =>
    match Server.start disk id params with
    | .ok (said, server) => (said, .serving server)
    | .error error => ([], .ended (some error))
  | .serving _, .request id "shutdown" _ => ([.answer id .null], .leaving)
  | .serving _, .notification "exit" _ => ([], .ended none)
  | .leaving, .notification "exit" _ => ([], .ended none)
  | .serving server, message =>
    let (said, server) := (server.withDisk disk).receive message
    if server.workspace.endless then ([], .stuck server) else (said, .serving server)
  | connection, _ => ([], connection)

def mentioned (params : Json) : List Uri :=
  let places := params :: params.valueAt "textDocument" :: params.itemsAt "changes"
  places.filterMap fun place => (place.textAt? "uri").bind fun text => (Uri.parse text).toOption

def paramsOf : Incoming → Json
  | .request _ _ params => params
  | .notification _ params => params
  | .answer => .null

/-- The places on the disk that the handling of a message may look at. -/
def places (connection : Connection) (message : Incoming) : List Place :=
  match connection with
  | .serving server | .stuck server => server.workspace.places (mentioned (paramsOf message))
  | _ => []

def disk? : Connection → Option Disk
  | .serving server => some server.workspace.store.disk
  | _ => none

end Connection

end SpecServer.Protocol
