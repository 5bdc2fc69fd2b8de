import SpecServer.Decimal.Natural
import SpecServer.Json.Basic
import SpecServer.Text.Split
set_option autoImplicit false

/-!
Paths into documents: their order, their text, the fragments of references that name them, and the node at
a path.
-/

namespace SpecServer

inductive Segment where
  | key (name : String)
  | index (i : Nat)
deriving DecidableEq, Repr, Inhabited

/-- Keys come before indices; keys go by code points, indices by size. -/
def Segment.before : Segment → Segment → Bool
  | .key a, .key b => a < b
  | .key _, .index _ => true
  | .index _, .key _ => false
  | .index i, .index j => i < j

instance : LT Segment := ⟨fun left right => left.before right = true⟩

instance : DecidableLT Segment := fun left right => inferInstanceAs (Decidable (left.before right = true))

/-- A path from the root of a document down to a node. Paths are ordered segment by segment, a path before
those that continue it. -/
abbrev Path := List Segment

namespace Path

def root : Path := []

def ofKeys (keys : List String) : Path :=
  keys.map Segment.key

def key (path : Path) (name : String) : Path :=
  path ++ [.key name]

def index (path : Path) (i : Nat) : Path :=
  path ++ [.index i]

/-- The last segment, if it is a key. -/
def lastKey? (path : Path) : Option String :=
  match path.getLast? with
  | some (.key name) => some name
  | _ => none

/-- One key of a reference fragment without its escapes: `~1` stands for a slash and `~0` for a tilde. -/
def unescape (raw : List Char) : List Char :=
  Text.replacePair '~' '0' '~' (Text.replacePair '~' '1' '/' raw)

/-- The path that the fragment of a reference names, such as `#/definitions/Pet`. The number sign may be
missing; an empty fragment names the root, any other starts with a slash. -/
def ofPointer? (pointer : String) : Option Path :=
  let unmarked := (Text.after? ['#'] pointer.toList).getD pointer.toList
  match unmarked with
  | [] => some root
  | '/' :: rest => some ((Text.splitAt '/' rest).map fun raw => .key (String.ofList (unescape raw)))
  | _ => none

/-- The node one segment further down. A key also leads to an array element if it is written like its
index. -/
def child? (node : Json) (segment : Segment) : Option Json :=
  match segment, node with
  | .key name, .object fields => Entries.get? fields name
  | .key name, .array items =>
    match Decimal.index? name.toList with
    | some i => items[i]?
    | none => none
  | .index i, .array items => items[i]?
  | _, _ => none

def resolve : Path → Json → Option Json
  | [], node => some node
  | segment :: rest, node =>
    match child? node segment with
    | some child => resolve rest child
    | none => none

def startsIdentifier (c : Char) : Bool :=
  ('a' ≤ c && c ≤ 'z') || ('A' ≤ c && c ≤ 'Z') || c == '_'

def continuesIdentifier (c : Char) : Bool :=
  startsIdentifier c || ('0' ≤ c && c ≤ '9')

def isIdentifier (name : List Char) : Bool :=
  match name with
  | [] => false
  | c :: rest => startsIdentifier c && rest.all continuesIdentifier

/-- The text of a segment: `.name` for identifiers, `['name']` with escaped quotes for other keys, `[n]` for
indices. -/
def segmentText : Segment → List Char
  | .key name =>
    if isIdentifier name.toList then '.' :: name.toList
    else '[' :: '\x27' :: Text.replaceChar '\x27' ['\\', '\x27'] name.toList ++ ['\x27', ']']
  | .index i => '[' :: Nat.toDigits 10 i ++ [']']

/-- The text of a path: a dollar sign and its segments. -/
def display (path : Path) : String :=
  String.ofList ('$' :: path.flatMap segmentText)

end Path

end SpecServer
