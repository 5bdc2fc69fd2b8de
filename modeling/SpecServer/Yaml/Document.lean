import SpecServer.Json.Basic
import SpecServer.Text.Quoted
import SpecServer.Yaml.Event
import SpecServer.Yaml.Scalar
set_option autoImplicit false

/-!
Reading YAML text as a JSON document. The events of the first document are recorded before its value is
made, so a fault of the text counts only where the value needs what lies behind it. Keys are texts and the
last value of a repeated key stays; infinities and not-a-number become `null`.
-/

namespace SpecServer.Yaml

/-- One step on the way from the root of a document to a value; a key that is no scalar has no name. -/
inductive Turn where
  | key (name : List Char)
  | nameless
  | item (i : Nat)
deriving DecidableEq, Repr

abbrev Trail := List Turn

/-- The text of a way: keys behind dots and items in brackets; the root is a dot. -/
def Trail.text : Trail → String
  | [] => "."
  | .item i :: rest => Trail.text rest ++ "[" ++ toString i ++ "]"
  | .key name :: rest => (if rest.isEmpty then "" else Trail.text rest ++ ".") ++ String.ofList name
  | .nameless :: rest => (if rest.isEmpty then "" else Trail.text rest ++ ".") ++ "?"

inductive Misfit where
  | taggedValue
  | collectionKey (isMapping first : Bool)
  | notOfType (text : List Char) (expected : String)
  | numberRange
deriving DecidableEq, Repr

def Misfit.message : Misfit → String
  | taggedValue => "invalid type: enum, expected any valid JSON value"
  | collectionKey isMapping first =>
    "invalid type: " ++ (if isMapping then "map" else "sequence") ++ ", expected " ++
      (if first then "a string key" else "a string")
  | notOfType text expected =>
    "invalid value: string " ++ Text.quoted (String.ofList text) ++ ", expected " ++ expected
  | numberRange => "JSON number out of range"

inductive ReadError where
  | fault (fault : Fault)
  | unknownAnchor (mark : Mark)
  | tooDeep (mark : Mark)
  | tooManyAliases
  | endOfEvents
  | severalDocuments
  | misfit (reason : Misfit) (trail : Trail) (mark : Mark)
deriving DecidableEq, Repr

namespace ReadError

/-- A text with a place, which is left out at the very start. -/
def located (message : String) (mark : Mark) : String :=
  if mark.isOrigin then message else message ++ " at " ++ mark.text

def message : ReadError → String
  | fault found => found.message
  | unknownAnchor mark => located "unknown anchor" mark
  | tooDeep mark => located "recursion limit exceeded" mark
  | tooManyAliases => "repetition limit exceeded"
  | endOfEvents => "EOF while parsing a value"
  | severalDocuments => "deserializing from YAML containing more than one document is not supported"
  | misfit reason trail mark =>
    located (if trail.isEmpty then reason.message else trail.text ++ ": " ++ reason.message) mark

def mark : ReadError → Mark
  | fault found => found.place
  | unknownAnchor mark => mark
  | tooDeep mark => mark
  | tooManyAliases => .start
  | endOfEvents => .start
  | severalDocuments => .start
  | misfit _ _ mark => mark

end ReadError

/-! ## Recording a document -/

/-- A recorded event. An alias holds the number of its anchor. -/
inductive Entry where
  | alias (anchor : Nat)
  | scalar (tag : Option (List Char)) (text : List Char) (style : Style)
  | sequenceStart (tag : Option (List Char))
  | sequenceEnd
  | mappingStart (tag : Option (List Char))
  | mappingEnd
  | void
deriving DecidableEq, Repr

/-- The events of a document with their places, which entry each anchor number stands for, the numbers of
the anchor names, and the error that cut the recording short. -/
structure Recording where
  entries : Array (Entry × Mark)
  targets : Entries Nat Nat
  anchors : List (List Char × Nat)
  error : Option ReadError

namespace Recording

def empty : Recording := ⟨#[], [], [], none⟩

def push (r : Recording) (entry : Entry) (mark : Mark) : Recording :=
  { r with entries := r.entries.push (entry, mark) }

/-- The recording in which the next event carries an anchor. Its number is how many names are known; a name
that is used again takes a new number. -/
def name (r : Recording) (anchor : Option (List Char)) : Recording :=
  match anchor with
  | none => r
  | some name =>
    let number := r.anchors.length
    { r with
      targets := r.targets.put number r.entries.size
      anchors := (name, number) :: r.anchors.filter fun known => known.1 ≠ name }

/-- What follows a recorded document: the machine behind its end, or nothing if the stream ended with it or
a fault cut it short. -/
abbrev Remainder := Option EventMachine

def run : Nat → Recording → EventMachine → Recording × Remainder
  | 0, r, _ => (r, none)
  | fuel + 1, r, m =>
    match m.step with
    | .error fault => ({ r with error := some (.fault fault) }, none)
    | .ok ((event, mark), m) =>
      match event with
      | .documentStart => run fuel r m
      | .documentEnd => (r, some m)
      | .streamEnd => (if r.entries.isEmpty then r.push .void mark else r, none)
      | .alias name =>
        match r.anchors.find? fun known => known.1 == name with
        | some (_, number) => run fuel (r.push (.alias number) mark) m
        | none => ({ r with error := some (.unknownAnchor mark) }, none)
      | .scalar p text style => run fuel ((r.name p.anchor).push (.scalar p.tag text style) mark) m
      | .sequenceStart p => run fuel ((r.name p.anchor).push (.sequenceStart p.tag) mark) m
      | .sequenceEnd => run fuel (r.push .sequenceEnd mark) m
      | .mappingStart p => run fuel ((r.name p.anchor).push (.mappingStart p.tag) mark) m
      | .mappingEnd => run fuel (r.push .mappingEnd mark) m

def exhausted (r : Recording) : ReadError :=
  r.error.getD .endOfEvents

end Recording

/-! ## Making the value -/

/-- How far the reading of a recording is, and how many aliases it followed. -/
structure Walk where
  place : Nat
  jumps : Nat

namespace Recording

def entryAt (r : Recording) (place : Nat) : Except ReadError (Entry × Mark) :=
  match r.entries[place]? with
  | some found => .ok found
  | none => .error r.exhausted

/-- Follows an alias: the place of the event that its anchor stands for. At most a hundred aliases are
followed for each event. -/
def jump (r : Recording) (anchor : Nat) (walk : Walk) : Except ReadError (Nat × Walk) :=
  if r.entries.size * 100 < walk.jumps + 1 then .error .tooManyAliases
  else
    match r.targets.get? anchor with
    | some place => .ok (place, { walk with jumps := walk.jumps + 1 })
    | none => .error .endOfEvents

/-- The value of an integer, which must fit into 64 bits. -/
def integerValue (n : Int) (misfit : Misfit → ReadError) : Except ReadError Json :=
  if -(Nat.pow 2 63 : Int) ≤ n ∧ n < Nat.pow 2 64 then .ok (.number (.integer n)) else .error (misfit .numberRange)

/-- The value of a floating-point number; `null` if it is not finite. -/
def floatValue (x : Option Decimal.Binary64) : Json :=
  match x with
  | some x => .number (.float x)
  | none => .null

def coreTag (name : String) : List Char :=
  ("tag:yaml.org,2002:" ++ name).toList

/-- The value of a scalar. Core tags demand their type, other tags make it a text. -/
def scalarValue (tag : Option (List Char)) (text : List Char) (style : Style) (misfit : Misfit → ReadError) :
    Except ReadError Json :=
  let plain := Json.string (String.ofList text)
  match tag with
  | some tag =>
    if tag = coreTag "bool" then
      match Meaning.truth? (String.ofList text) with
      | some b => .ok (.bool b)
      | none => .error (misfit (.notOfType text "a boolean"))
    else if tag = coreTag "int" then
      match Meaning.integer? text with
      | some n => integerValue n misfit
      | none => .error (misfit (.notOfType text "an integer"))
    else if tag = coreTag "float" then
      match Meaning.float? text with
      | some x => .ok (floatValue x)
      | none => .error (misfit (.notOfType text "a float"))
    else if tag = coreTag "null" then
      if Meaning.isNothing (String.ofList text) then .ok .null else .error (misfit (.notOfType text "null"))
    else .ok plain
  | none =>
    if style = .plain then
      match Meaning.ofText text with
      | .nothing => .ok .null
      | .truth b => .ok (.bool b)
      | .integer n => integerValue n misfit
      | .float x => .ok (floatValue x)
      | .text => .ok plain
    else .ok plain

/-- Whether a tag is one of the document's own, which no JSON value has. -/
def isLocalTag (tag : Option (List Char)) : Bool :=
  match tag with
  | some ('!' :: _) => true
  | _ => false

abbrev Inner := Trail → Walk → Except ReadError (Json × Walk)

def items (r : Recording) (inner : Inner) (trail : Trail) : Nat → List Json → Walk → Except ReadError (Json × Walk)
  | 0, _, _ => .error r.exhausted
  | fuel + 1, read, walk => do
    let (entry, _) ← r.entryAt walk.place
    match entry with
    | .sequenceEnd => return (.array read.reverse, { walk with place := walk.place + 1 })
    | _ =>
      let (item, walk) ← inner (.item read.length :: trail) walk
      items r inner trail fuel (item :: read) walk

def keyOf (entry : Entry) (first : Bool) (misfit : Misfit → ReadError) : Except ReadError (List Char) :=
  match entry with
  | .scalar _ text _ => .ok text
  | .mappingStart _ => .error (misfit (.collectionKey true first))
  | .sequenceStart _ => .error (misfit (.collectionKey false first))
  | _ => .error .endOfEvents

/-- Reads a key, which must be a scalar or an alias of one. -/
def key (r : Recording) (first : Bool) (trail : Trail) (walk : Walk) : Except ReadError ((Turn × List Char) × Walk) := do
  let (entry, mark) ← r.entryAt walk.place
  let walk := { walk with place := walk.place + 1 }
  match entry with
  | .alias anchor =>
    let (place, walk) ← r.jump anchor walk
    let (target, there) ← r.entryAt place
    let text ← keyOf target first fun reason => .misfit reason trail there
    return ((.nameless, text), walk)
  | _ =>
    let text ← keyOf entry first fun reason => .misfit reason trail mark
    return ((.key text, text), walk)

def fields (r : Recording) (inner : Inner) (trail : Trail) :
    Nat → Bool → SpecServer.Entries String Json → Walk → Except ReadError (Json × Walk)
  | 0, _, _, _ => .error r.exhausted
  | fuel + 1, first, read, walk => do
    let (entry, _) ← r.entryAt walk.place
    match entry with
    | .mappingEnd => return (.object read, { walk with place := walk.place + 1 })
    | _ =>
      let ((turn, name), walk) ← r.key first trail walk
      let (value, walk) ← inner (turn :: trail) walk
      fields r inner trail fuel false (read.put (String.ofList name) value) walk

/-- Reads the node whose first event is given; the walk is behind that event. Without a reader for inner
nodes no collection may start any more. -/
def content (r : Recording) (inner : Option Inner) (trail : Trail) (entry : Entry) (mark : Mark) (walk : Walk) :
    Except ReadError (Json × Walk) :=
  match entry with
  | .scalar tag text style =>
    if isLocalTag tag then .error (.misfit .taggedValue trail mark)
    else (scalarValue tag text style fun reason => .misfit reason trail mark).map fun value => (value, walk)
  | .sequenceStart tag =>
    if isLocalTag tag then .error (.misfit .taggedValue trail mark)
    else
      match inner with
      | some inner => r.items inner trail (r.entries.size + 1) [] walk
      | none => .error (.tooDeep mark)
  | .mappingStart tag =>
    if isLocalTag tag then .error (.misfit .taggedValue trail mark)
    else
      match inner with
      | some inner => r.fields inner trail (r.entries.size + 1) true [] walk
      | none => .error (.tooDeep mark)
  | .void => .ok (.null, walk)
  | _ => .error .endOfEvents

def nodeWith (r : Recording) (inner : Option Inner) (trail : Trail) (walk : Walk) : Except ReadError (Json × Walk) := do
  let (entry, mark) ← r.entryAt walk.place
  let walk := { walk with place := walk.place + 1 }
  match entry with
  | .alias anchor =>
    let (place, walk) ← r.jump anchor walk
    let (target, there) ← r.entryAt place
    let (value, after) ← r.content inner trail target there { walk with place := place + 1 }
    return (value, { after with place := walk.place })
  | _ => r.content inner trail entry mark walk

/-- Reads a node with so many collections still allowed around and below it. -/
def node (r : Recording) : Nat → Inner
  | 0 => r.nodeWith none
  | depth + 1 => r.nodeWith (some (r.node depth))

end Recording

def depthLimit : Nat := 128

def atStreamEnd (m : EventMachine) : Bool :=
  match m.step with
  | .ok ((.streamEnd, _), _) => true
  | _ => false

/-- Reads a text as one document; a text without content is `null`. -/
def read (text : List Char) : Except ReadError Json := do
  let machine := EventMachine.ofText text
  let (recording, remainder) := Recording.run (5 * machine.tokens.length + 10) .empty machine
  let (value, _) ← recording.node depthLimit [] ⟨0, 0⟩
  match recording.error with
  | some error => throw error
  | none =>
    match remainder with
    | some rest => if atStreamEnd rest then return value else throw .severalDocuments
    | none => return value

end SpecServer.Yaml
