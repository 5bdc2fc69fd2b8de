import SpecServer.Text.Split
import SpecServer.Text.Utf8
set_option autoImplicit false

/-!
The files of the computer: a table from places to files and folders. A path is walked name by name, so that it
reaches a place only through folders.
-/

namespace SpecServer

abbrev Place := List (List UInt8)

inductive DiskNode where
  | file (content : List UInt8)
  | folder
deriving DecidableEq, Repr

structure Disk where
  nodes : List (Place × DiskNode)
deriving DecidableEq, Repr

inductive DiskError where
  | absent
  | notFolder
  | isFolder
  | nameTooLong
  | nulByte
  | notText
deriving DecidableEq, Repr

def DiskError.message : DiskError → String
  | absent => "No such file or directory (os error 2)"
  | notFolder => "Not a directory (os error 20)"
  | isFolder => "Is a directory (os error 21)"
  | nameTooLong => "File name too long (os error 36)"
  | nulByte => "file name contained an unexpected NUL byte"
  | notText => "stream did not contain valid UTF-8"

namespace Disk

def empty : Disk := ⟨[]⟩

/-- What is at a place. The top folder is always there. -/
def node? (disk : Disk) (place : Place) : Option DiskNode :=
  if place.isEmpty then some .folder else (disk.nodes.find? fun entry => entry.1 == place).map Prod.snd

/-- The names of a path between its slashes. A slash at the end asks for a folder, as a dot does. -/
def names (path : List UInt8) : List (List UInt8) :=
  let slash := UInt8.ofNat 47
  let found := (Text.splitAt slash path).filter (!·.isEmpty)
  if path.getLast? == some slash then found ++ [[UInt8.ofNat 46]] else found

/-- The place that a name means in a folder: one dot stays there, two lead upwards. -/
def step (place : Place) (name : List UInt8) : Place :=
  let dot := UInt8.ofNat 46
  if name = [dot] then place else if name = [dot, dot] then place.dropLast else place ++ [name]

/-- Follows names from a place; what is at the last one does not matter. -/
def walk (disk : Disk) : Place → List (List UInt8) → Except DiskError Place
  | place, [] => .ok place
  | place, name :: rest =>
    match disk.node? place with
    | none => .error .absent
    | some (.file _) => .error .notFolder
    | some .folder => if name.length > 255 then .error .nameTooLong else walk disk (step place name) rest

def place (disk : Disk) (path : List UInt8) : Except DiskError Place :=
  if path.contains (UInt8.ofNat 0) then .error .nulByte
  else if path.length > 4095 then .error .nameTooLong
  else disk.walk [] (names path)

def read (disk : Disk) (path : List UInt8) : Except DiskError (List UInt8) :=
  match disk.place path with
  | .error error => .error error
  | .ok place =>
    match disk.node? place with
    | none => .error .absent
    | some .folder => .error .isFolder
    | some (.file content) => .ok content

def readText (disk : Disk) (path : List UInt8) : Except DiskError (List Char) :=
  match disk.read path with
  | .error error => .error error
  | .ok content =>
    match Text.Utf8.decode? content with
    | some text => .ok text
    | none => .error .notText

def exists? (disk : Disk) (path : List UInt8) : Bool :=
  match disk.place path with
  | .error _ => false
  | .ok place => (disk.node? place).isSome

def put (disk : Disk) (place : Place) (node : DiskNode) : Disk :=
  ⟨(place, node) :: disk.nodes.filter fun entry => entry.1 ≠ place⟩

def write (disk : Disk) (path : List UInt8) (content : List UInt8) : Except DiskError Disk :=
  match disk.place path with
  | .error error => .error error
  | .ok place =>
    match disk.node? place with
    | some .folder => .error .isFolder
    | _ => .ok (disk.put place (.file content))

end Disk

end SpecServer
