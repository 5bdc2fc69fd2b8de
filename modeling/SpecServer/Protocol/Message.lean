import SpecServer.Json.Writer
import SpecServer.Protocol.Encode
set_option autoImplicit false

/-!
The messages between editor and server, and how they look as JSON.
-/

namespace SpecServer.Protocol

inductive RequestId where
  | number (n : Int)
  | text (s : String)
deriving DecidableEq, Repr

def RequestId.toJson : RequestId → Json
  | number n => .number (.integer n)
  | text s => .string s

/-- The name in a message: a text or an integer of 32 bits. -/
def RequestId.ofJson? : Json → Option RequestId
  | .string s => some (.text s)
  | .number (.integer n) => if -(Nat.pow 2 31 : Int) ≤ n ∧ n < Nat.pow 2 31 then some (.number n) else none
  | _ => none

/-- A message of the editor. Parameters that are left out are `null`. -/
inductive Incoming where
  | request (id : RequestId) (method : String) (params : Json)
  | notification (method : String) (params : Json)
  | answer
deriving DecidableEq

def Incoming.ofJson? (message : Json) : Option Incoming :=
  let params := (message.field? "params").getD .null
  let id := (message.field? "id").bind RequestId.ofJson?
  match (message.field? "method").bind Json.asString?, id with
  | some method, some id => some (.request id method params)
  | some method, none => some (.notification method params)
  | none, some _ => some .answer
  | none, none => none

inductive Refusal where
  | invalidParams (error : ShapeError)
  | unknownMethod (method : String)
deriving DecidableEq, Repr

def Refusal.code : Refusal → Int
  | invalidParams _ => -32602
  | unknownMethod _ => -32601

def Refusal.message : Refusal → String
  | invalidParams error => error.message
  | unknownMethod method => "Method not found: " ++ method

inductive Outgoing where
  | answer (id : RequestId) (result : Json)
  | refusal (id : RequestId) (reason : Refusal)
  | publish (publication : Publication)
  | log (line : LogLine)
deriving DecidableEq

def lineCode : LogLevel → Nat
  | .error => 1
  | .warning => 2
  | _ => 4

def notification (method : String) (params : List (String × Json)) : Json :=
  .object [("method", .string method), ("params", .object params)]

namespace Outgoing

def ofEvent? : WorkspaceEvent → Option Outgoing
  | .publish publication => some (.publish publication)
  | .report line => some (.log line)
  | .record _ => none

def toJson (clock : String) : Outgoing → Json
  | .answer id result => .object [("id", id.toJson), ("result", result)]
  | .refusal id reason =>
    .object [("error", .object [("code", .number (.integer reason.code)), ("message", .string reason.message)]),
      ("id", id.toJson)]
  | .publish publication =>
    notification "textDocument/publishDiagnostics"
      [("diagnostics", .array (publication.diagnostics.map diagnostic)), ("uri", uri publication.uri)]
  | .log line =>
    notification "window/logMessage"
      [("message", .string (line.render clock)), ("type", natural (lineCode line.level))]

end Outgoing

end SpecServer.Protocol
