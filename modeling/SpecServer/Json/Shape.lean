import SpecServer.Json.Writer
import SpecServer.Text.Quoted
import SpecServer.Uri.Parser
set_option autoImplicit false

/-!
Shapes of documents: which fields a document has and what they hold. Reading a document as a shape gives its
standard form, an object with the known fields, or says what does not fit. Fields are looked at in the order
of the document, which is that of their names; a field that is missing counts only after all that are there.
-/

namespace SpecServer

/-- Whether a field may be missing: never, only in an object, or also at the end of an array. -/
inductive Presence where
  | required
  | optional
  | defaulted
deriving DecidableEq, Repr

/-- What a document may be. A record is an object or the array of its fields. A flat record is an object in
which several groups of fields lie side by side; they are read group by group. A choice is the first of some
shapes that fits. `name` is what messages call a shape. -/
inductive Shape where
  | any
  | bool
  | text
  | uri
  | natural (name : String) (bound : Nat)
  | integer (name : String) (bound : Nat)
  | word (words : List String)
  | option (inner : Shape)
  | list (inner : Shape)
  | record (name : String) (fields : List (String × Presence × Shape))
  | flat (name : String) (groups : List (List (String × Presence × Shape)))
  | choice (name : String) (shapes : List Shape)

inductive ShapeError where
  | wrongType (found : Json) (expected : String)
  | wrongInteger (n : Int) (expected : String)
  | manyKeys
  | missingField (name : String)
  | wrongLength (length : Nat) (expected : String)
  | unknownWord (word : String) (words : List String)
  | badUri (error : UriError) (text : String)
  | noChoice (name : String)
deriving DecidableEq, Repr

namespace ShapeError

def ticked (word : String) : String :=
  "\x60" ++ word ++ "\x60"

def describe : Json → String
  | .null => "null"
  | .bool b => "boolean " ++ ticked (if b then "true" else "false")
  | .number (.integer n) => "integer " ++ ticked (String.ofList (Json.integerText n))
  | .number (.float x) => "floating point " ++ ticked (String.ofList (Json.floatLayout.write x))
  | .string s => "string " ++ Text.quoted s
  | .array _ => "sequence"
  | .object _ => "map"

def alternatives (words : List String) : String :=
  match words with
  | [a, b] => ticked a ++ " or " ++ ticked b
  | [a] => ticked a
  | _ => "one of " ++ ", ".intercalate (words.map ticked)

def message : ShapeError → String
  | wrongType found expected => "invalid type: " ++ describe found ++ ", expected " ++ expected
  | wrongInteger n expected =>
    "invalid value: integer " ++ ticked (String.ofList (Json.integerText n)) ++ ", expected " ++ expected
  | manyKeys => "invalid value: map, expected map with a single key"
  | missingField name => "missing field " ++ ticked name
  | wrongLength length expected => "invalid length " ++ toString length ++ ", expected " ++ expected
  | unknownWord word words => "unknown variant " ++ ticked word ++ ", expected " ++ alternatives words
  | badUri error text => error.message ++ ": " ++ Text.quoted text
  | noChoice name => "data did not match any variant of untagged enum " ++ name

end ShapeError

namespace Shape

def elements (count : Nat) : String :=
  toString count ++ (if count = 1 then " element" else " elements")

/-- Reads one of some words. An object with one key counts as that word if the value is `null`. -/
def readWord (words : List String) (document : Json) : Except ShapeError Json :=
  match document with
  | .string s => if words.contains s then .ok (.string s) else .error (.unknownWord s words)
  | .object [(key, value)] =>
    if !words.contains key then .error (.unknownWord key words)
    else if value.isNull then .ok (.string key)
    else .error (.wrongType value "unit")
  | .object _ => .error .manyKeys
  | other => .error (.wrongType other "string or map")

def readInteger (name : String) (low high : Int) (document : Json) : Except ShapeError Json :=
  match document with
  | .number (.integer n) => if low ≤ n ∧ n < high then .ok document else .error (.wrongInteger n name)
  | other => .error (.wrongType other name)

def readUri (document : Json) : Except ShapeError Json :=
  match document with
  | .string s =>
    match Uri.parse s with
    | .ok _ => .ok document
    | .error error => .error (.badUri error s)
  | other => .error (.wrongType other "a string representing an URL")

/-- Reads the entries of an object with a reader for fields, which knows some of them. -/
def readEntries (known : String → Json → Except ShapeError (Option Json)) :
    List (String × Json) → Except ShapeError (List (String × Json))
  | [] => .ok []
  | (key, value) :: rest =>
    match known key value with
    | .error error => .error error
    | .ok none => readEntries known rest
    | .ok (some read) => (readEntries known rest).map ((key, read) :: ·)

def missing? (fields : List (String × Presence × Shape)) (read : List (String × Json)) : Option String :=
  (fields.find? fun (name, presence, _) => presence = .required ∧ !(Entries.has read name)).map Prod.fst

def complete (fields : List (String × Presence × Shape)) (read : List (String × Json)) : Except ShapeError Json :=
  match missing? fields read with
  | some name => .error (.missingField name)
  | none => .ok (.object read)

mutual

/-- Reads a document as a shape. Inside a flat record documents are buffered, which shows only in the message
about arrays that are too long. -/
def readAs (buffered : Bool) : Shape → Json → Except ShapeError Json
  | .any, document => .ok document
  | .bool, document =>
    match document with
    | .bool b => .ok (.bool b)
    | other => .error (.wrongType other "a boolean")
  | .text, document =>
    match document with
    | .string s => .ok (.string s)
    | other => .error (.wrongType other "a string")
  | .uri, document => readUri document
  | .natural name bound, document => readInteger name 0 bound document
  | .integer name bound, document => readInteger name (-(bound : Int)) bound document
  | .word words, document => readWord words document
  | .option inner, document =>
    match document with
    | .null => .ok .null
    | other => readAs buffered inner other
  | .list inner, document =>
    match document with
    | .array items => (items.mapM (readAs buffered inner)).map .array
    | other => .error (.wrongType other "a sequence")
  | .record name fields, document =>
    match document with
    | .object entries =>
      match readEntries (readField buffered fields) entries with
      | .error error => .error error
      | .ok read => complete fields read
    | .array items =>
      match readItems buffered name fields.length 0 fields items with
      | .error error => .error error
      | .ok (read, []) => .ok (.object (Entries.ofList read))
      | .ok (_, _ :: _) =>
        .error (.wrongLength items.length
          (if buffered then elements fields.length ++ " in sequence" else "fewer elements in array"))
    | other => .error (.wrongType other name)
  | .flat name groups, document =>
    match document with
    | .object entries => (readGroups groups entries).map fun read => .object (Entries.ofList read)
    | other => .error (.wrongType other name)
  | .choice name shapes, document =>
    match readFirst shapes document with
    | some read => .ok read
    | none => .error (.noChoice name)

def readGroups : List (List (String × Presence × Shape)) → List (String × Json) →
    Except ShapeError (List (String × Json))
  | [], _ => .ok []
  | fields :: rest, entries =>
    match readEntries (readField true fields) entries with
    | .error error => .error error
    | .ok read =>
      match missing? fields read with
      | some name => .error (.missingField name)
      | none => (readGroups rest entries).map (read ++ ·)

def readFirst : List Shape → Json → Option Json
  | [], _ => none
  | shape :: rest, document =>
    match readAs true shape document with
    | .ok read => some read
    | .error _ => readFirst rest document

/-- Reads the value of a field, if the field is known. -/
def readField (buffered : Bool) : List (String × Presence × Shape) → String → Json → Except ShapeError (Option Json)
  | [], _, _ => .ok none
  | (name, _, shape) :: rest, key, value =>
    if name = key then (readAs buffered shape value).map some else readField buffered rest key value

/-- Reads the fields of a record in the order of its declaration from an array, and gives the items that are
left. -/
def readItems (buffered : Bool) (name : String) (count : Nat) (taken : Nat) :
    List (String × Presence × Shape) → List Json → Except ShapeError (List (String × Json) × List Json)
  | [], items => .ok ([], items)
  | (_, presence, _) :: rest, [] =>
    if presence = .defaulted then readItems buffered name count taken rest []
    else .error (.wrongLength taken (name ++ " with " ++ elements count))
  | (key, _, shape) :: rest, item :: items =>
    match readAs buffered shape item with
    | .error error => .error error
    | .ok value =>
      match readItems buffered name count (taken + 1) rest items with
      | .error error => .error error
      | .ok (read, left) => .ok ((key, value) :: read, left)

end

def read (shape : Shape) (document : Json) : Except ShapeError Json :=
  readAs false shape document

end Shape

namespace Json

def textAt (document : Json) (key : String) : String :=
  ((document.field? key).bind asString?).getD ""

def textAt? (document : Json) (key : String) : Option String :=
  (document.field? key).bind asString?

def naturalAt (document : Json) (key : String) : Nat :=
  match document.field? key with
  | some (.number (.integer n)) => n.toNat
  | _ => 0

def boolAt (document : Json) (key : String) : Bool :=
  match document.field? key with
  | some (.bool b) => b
  | _ => false

def itemsAt (document : Json) (key : String) : List Json :=
  match document.field? key with
  | some (.array items) => items
  | _ => []

def valueAt (document : Json) (key : String) : Json :=
  (document.field? key).getD null

end Json

end SpecServer
