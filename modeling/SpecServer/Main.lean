import SpecServer.Json.Reader
import SpecServer.Protocol.Connection
import Std.Time
set_option autoImplicit false

/-!
The program: a connection over standard input and output. A message is handled against the files that its
handling may look at; where that leads to further files, they are read and the message is handled anew.
-/

namespace SpecServer.Program

open Protocol

/-- The path of a place as text, if it is one. -/
def pathOf? (place : Place) : Option String :=
  (place.mapM Text.Utf8.decode?).map fun names => String.ofList (names.flatMap fun name => '/' :: name)

def nodeAt (place : Place) : IO (Option DiskNode) := do
  match pathOf? place with
  | none => return none
  | some path =>
    try
      let content ← IO.FS.readBinFile path
      return some (.file content.toList)
    catch
      | .inappropriateType _ 21 _ => return some .folder
      | _ => return none

structure Snapshot where
  disk : Disk
  seen : List Place

def Snapshot.look (snapshot : Snapshot) (place : Place) : IO Snapshot := do
  if snapshot.seen.contains place then return snapshot
  let disk :=
    match ← nodeAt place with
    | some node => snapshot.disk.put place node
    | none => snapshot.disk
  return ⟨disk, place :: snapshot.seen⟩

def Snapshot.lookAll (snapshot : Snapshot) (places : List Place) : IO Snapshot :=
  (places.flatMap fun place => (List.range place.length).map fun length => place.take (length + 1)).foldlM
    Snapshot.look snapshot

def save (before after : Disk) : IO Unit :=
  after.nodes.forM fun (place, node) =>
    match node, pathOf? place with
    | .file content, some path =>
      if before.node? place = some node then pure () else IO.FS.writeBinFile path ⟨content.toArray⟩
    | _, _ => pure ()

/-- Handles a message. `fuel` bounds how often the files it leads to may lead further. -/
def handle (connection : Connection) (message : Incoming) : Nat → Snapshot → IO (List Outgoing × Connection)
  | 0, snapshot => return connection.receive snapshot.disk message
  | fuel + 1, snapshot => do
    let (said, next) := connection.receive snapshot.disk message
    let wider ← snapshot.lookAll (next.places message)
    if wider.seen.length = snapshot.seen.length then
      match next.disk? with
      | some disk => save snapshot.disk disk
      | none => pure ()
      return (said, next)
    else handle connection message fuel wider

def now : IO Clock := do
  let time ← Std.Time.PlainTime.now
  return ⟨time.hour.val.toNat, time.minute.val.toNat, time.second.val.toNat, time.nanosecond.val.toNat / 1000000⟩

def send (output : IO.FS.Stream) (message : Outgoing) : IO Unit := do
  let body := ("jsonrpc", Json.string "2.0") :: ((message.toJson (← now).text).asObject?).getD []
  output.putStr (frame (Json.object (Entries.ofList body)).render)
  output.flush

/-- Reads a header up to its empty line, and gives the length of the body; nothing at the end of the input. -/
partial def readHeader (input : IO.FS.Stream) (length : Option Nat) : IO (Option Nat) := do
  let line ← input.getLine
  if line.isEmpty then return none
  else if (Text.trim line.toList).isEmpty then return length
  else readHeader input ((lengthIn? line).or length)

partial def readBody (input : IO.FS.Stream) (length : Nat) (read : ByteArray) : IO ByteArray := do
  if length ≤ read.size then return read
  let piece ← input.read (length - read.size).toUSize
  if piece.isEmpty then return read else readBody input length (read ++ piece)

def messageOf? (body : ByteArray) : Option Incoming :=
  match Text.Utf8.decode? body.toList with
  | none => none
  | some text =>
    match Json.read (String.ofList text) with
    | .ok document => Incoming.ofJson? document
    | .error _ => none

partial def serve (input output : IO.FS.Stream) (connection : Connection) : IO UInt32 := do
  match ← readHeader input none with
  | none => return 0
  | some length =>
    match messageOf? (← readBody input length ByteArray.empty) with
    | none => serve input output connection
    | some message =>
      let snapshot ← (⟨Disk.empty, []⟩ : Snapshot).lookAll (connection.places message)
      let (said, next) ← handle connection message 32 snapshot
      said.forM (send output)
      match next with
      | .ended none => return 0
      | .ended (some error) =>
        IO.eprintln ("Language server stopped: " ++ error.message)
        return 1
      | _ => serve input output next

end SpecServer.Program

def main : IO UInt32 := do
  SpecServer.Program.serve (← IO.getStdin) (← IO.getStdout) .waiting
