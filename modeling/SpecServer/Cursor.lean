import SpecServer.Engine.Definition
import SpecServer.Json.Query
import SpecServer.Text.Blank
import SpecServer.Text.Position
import SpecServer.Yaml.Printer
set_option autoImplicit false

/-!
What stands under the cursor of the editor: a reference, whose target is a path, or a quoted path
expression. Both lead to nodes of the merged definition.
-/

namespace SpecServer.Cursor

open Text

/-- A part of a line: the columns of its first and behind its last character, and what it holds. -/
structure Found where
  start : Nat
  stop : Nat
  content : List Char
deriving DecidableEq, Repr

def Found.covers (found : Found) (column : Nat) : Bool :=
  found.start ≤ column && column ≤ found.stop

def isQuote (c : Char) : Bool :=
  c == '\x27' || c == '\x22'

def skipQuote (text : List Char) : List Char :=
  match text with
  | c :: rest => if isQuote c then rest else text
  | [] => []

def quotedRun? (text : List Char) : Option (List Char × List Char) :=
  match text.dropWhile (!isQuote ·) with
  | _ :: rest => some (text.takeWhile (!isQuote ·), rest)
  | [] => none

/-- Reads a reference at the start of a text: its key, with quotes or without, a colon, and its value in
quotes. Gives the value and what follows. -/
def reference? (text : List Char) : Option (List Char × List Char) :=
  match after? ['$', 'r', 'e', 'f'] (skipQuote text) with
  | none => none
  | some keyed =>
    match trimStart (skipQuote keyed) with
    | ':' :: rest =>
      match trimStart rest with
      | c :: value => if isQuote c then quotedRun? value else none
      | [] => none
    | _ => none

/-- Reads a quoted text at the start of a text: in double quotes without a backslash, or in single
quotes. -/
def quoted? (text : List Char) : Option (List Char × List Char) :=
  match text with
  | '\x22' :: rest =>
    match rest.dropWhile fun c => c ≠ '\x22' ∧ c ≠ '\\' with
    | '\x22' :: after => some (rest.takeWhile fun c => c ≠ '\x22' ∧ c ≠ '\\', after)
    | _ => none
  | '\x27' :: rest =>
    match rest.dropWhile (· ≠ '\x27') with
    | _ :: after => some (rest.takeWhile (· ≠ '\x27'), after)
    | [] => none
  | _ => none

/-- The parts of a line that a reader finds, from left to right and without overlap. `skip` characters
belong to the part found last. -/
def scan (read : List Char → Option (List Char × List Char)) (column skip : Nat) : List Char → List Found
  | [] => []
  | c :: text =>
    match skip with
    | skip + 1 => scan read (column + 1) skip text
    | 0 =>
      match read (c :: text) with
      | some (content, rest) =>
        let length := text.length + 1 - rest.length
        ⟨column, column + length, content⟩ :: scan read (column + 1) (length - 1) text
      | none => scan read (column + 1) 0 text

def lineAndColumn? (text : String) (position : Position) : Option (List Char × Nat) :=
  (lineAt? text.toList position.line).map fun line => (line, min position.character line.length)

def referenceAt? (text : String) (position : Position) : Option Path :=
  match lineAndColumn? text position with
  | none => none
  | some (line, column) =>
    match (scan reference? 0 0 line).find? (·.covers column) with
    | none => none
    | some found =>
      let fragment := ((splitOnce '#' found.content).map Prod.snd).getD []
      Path.ofPointer? (String.ofList fragment)

def queryAt? (text : String) (position : Position) : Option String :=
  match lineAndColumn? text position with
  | none => none
  | some (line, column) =>
    ((scan quoted? 0 0 line).find? fun found => found.covers column && found.content.head? == some '$').map fun found =>
      String.ofList found.content

def referenceMatches (text : String) (definition : Definition) (position : Position) : List (Path × Json) :=
  match referenceAt? text position with
  | none => []
  | some path => ((path.resolve definition.document).map fun node => (path, node)).toList

def queryMatches (text : String) (definition : Definition) (position : Position) : List (Path × Json) :=
  match queryAt? text position with
  | none => []
  | some expression => (Query.run? definition.document expression).getD []

/-- A part of what the editor shows at the cursor: a node as YAML, or a text. -/
inductive Content where
  | yaml (text : String)
  | text (text : String)
deriving DecidableEq, Repr

/-- The paths that an expression leads to, one a line under their number. -/
def listing (found : List (Path × Json)) : String :=
  toString found.length ++ " matches\n" ++ "\n".intercalate (found.map fun entry => entry.1.display)

def hover (text : String) (definition : Definition) (position : Position) : List Content :=
  let queried := queryMatches text definition position
  ((referenceMatches text definition position).map fun entry => .yaml (Yaml.print entry.2)) ++
    (if queried.isEmpty then [] else [.text (listing queried)])

def targets (text : String) (definition : Definition) (position : Position) : List (Uri × Path) :=
  (referenceMatches text definition position ++ queryMatches text definition position).filterMap fun entry =>
    (definition.sourceOf? entry.1).map fun uri => (uri, entry.1)

end SpecServer.Cursor
