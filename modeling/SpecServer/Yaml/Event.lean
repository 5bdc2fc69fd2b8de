import SpecServer.Yaml.Scanner
set_option autoImplicit false

/-!
The events of YAML text: the nodes of its documents in order, with the start and end of every collection and
of every document. A machine with a stack of what comes next makes them from the tokens.
-/

namespace SpecServer.Yaml

structure Properties where
  anchor : Option (List Char)
  tag : Option (List Char)
deriving DecidableEq, Repr

def Properties.none : Properties := ⟨.none, .none⟩

inductive Event where
  | documentStart
  | documentEnd
  | streamEnd
  | alias (name : List Char)
  | scalar (properties : Properties) (text : List Char) (style : Style)
  | sequenceStart (properties : Properties)
  | sequenceEnd
  | mappingStart (properties : Properties)
  | mappingEnd
deriving DecidableEq, Repr

/-- What the machine expects next. A collection remembers where it started. -/
inductive Expect where
  | document (first : Bool)
  | documentContent
  | documentEnd
  | blockNode
  | blockSequenceFirst
  | blockSequenceEntry (since : Mark)
  | indentlessEntry
  | blockMappingFirst
  | blockMappingKey (since : Mark)
  | blockMappingValue (since : Mark)
  | flowSequenceFirst
  | flowSequenceEntry (since : Mark)
  | flowPairKey (since : Mark)
  | flowPairValue (since : Mark)
  | flowPairEnd (since : Mark)
  | flowMappingFirst
  | flowMappingKey (since : Mark)
  | flowMappingValue (since : Mark)
  | flowMappingEmptyValue (since : Mark)
  | nothing
deriving DecidableEq, Repr

/-- The machine between two events: the tokens ahead and the fault behind them, what it expects next, what
comes after that, and the tag handles of the document. -/
structure EventMachine where
  tokens : List Token
  fault : Option Fault
  expect : Expect
  next : List Expect
  handles : List (List Char × List Char)

abbrev Step := Except Fault ((Event × Mark) × EventMachine)

namespace EventMachine

def ahead (m : EventMachine) : Except Fault Token :=
  match m.tokens with
  | token :: _ => .ok token
  | [] => .error (m.fault.getD (.alone .nodeMissing .start))

def pass (m : EventMachine) : EventMachine :=
  { m with tokens := m.tokens.drop 1 }

def resume (m : EventMachine) : EventMachine :=
  match m.next with
  | [] => { m with expect := .nothing }
  | expect :: rest => { m with expect := expect, next := rest }

def await (m : EventMachine) (expect : Expect) : EventMachine :=
  { m with expect := expect }

def postpone (m : EventMachine) (expect : Expect) : EventMachine :=
  { m with next := expect :: m.next }

/-- A node that is left out: an empty plain scalar. -/
def emptyNode (m : EventMachine) (mark : Mark) : Step :=
  .ok ((.scalar .none [] .plain, mark), m)

/-! ## Nodes -/

/-- The anchor and the tag before a node, in either order, each with its place. -/
structure Lead where
  anchor : Option (List Char)
  tag : Option ((List Char × List Char) × Mark)
  start : Mark

def readAnchor (m : EventMachine) : Except Fault (Option (List Char) × EventMachine) := do
  let token ← m.ahead
  match token.kind with
  | .anchor name => return (some name, m.pass)
  | _ => return (none, m)

def readTag (m : EventMachine) : Except Fault (Option ((List Char × List Char) × Mark) × EventMachine) := do
  let token ← m.ahead
  match token.kind with
  | .tag handle rest => return (some ((handle, rest), token.start), m.pass)
  | _ => return (none, m)

def readLead (m : EventMachine) : Except Fault (Lead × EventMachine) := do
  let token ← m.ahead
  match token.kind with
  | .anchor _ =>
    let (anchor, m) ← m.readAnchor
    let (tag, m) ← m.readTag
    return (⟨anchor, tag, token.start⟩, m)
  | .tag _ _ =>
    let (tag, m) ← m.readTag
    let (anchor, m) ← m.readAnchor
    return (⟨anchor, tag, token.start⟩, m)
  | _ => return (⟨none, none, token.start⟩, m)

/-- The full text of a tag; its handle must be known. -/
def fullTag (m : EventMachine) (lead : Lead) : Except Fault (Option (List Char)) :=
  match lead.tag with
  | none => .ok none
  | some (([], uri), _) => .ok (some uri)
  | some ((handle, uri), mark) =>
    match m.handles.find? fun entry => entry.1 == handle with
    | some (_, start) => .ok (some (start ++ uri))
    | none => .error (.while .undefinedTagHandle mark .node lead.start)

/-- The tag of a scalar. A lone exclamation mark is none. -/
def scalarTag (tag : Option (List Char)) : Option (List Char) :=
  if tag = some ['!'] then none else tag

/-- Reads a node. `block` allows block collections, and `indentless` a sequence that is no deeper than the
mapping around it. -/
def node (m : EventMachine) (block indentless : Bool) : Step := do
  let first ← m.ahead
  match first.kind with
  | .alias name => return ((.alias name, first.start), m.pass.resume)
  | _ =>
    let (lead, m) ← m.readLead
    let tag ← m.fullTag lead
    let token ← m.ahead
    let properties : Properties := ⟨lead.anchor, tag⟩
    match token.kind with
    | .scalar text style =>
      return ((.scalar ⟨lead.anchor, scalarTag tag⟩ text style, lead.start), m.pass.resume)
    | .flowSequenceStart => return ((.sequenceStart properties, lead.start), m.await .flowSequenceFirst)
    | .flowMappingStart => return ((.mappingStart properties, lead.start), m.await .flowMappingFirst)
    | kind =>
      if indentless && kind == .blockEntry then
        return ((.sequenceStart properties, lead.start), m.await .indentlessEntry)
      else if block && kind == .blockSequenceStart then
        return ((.sequenceStart properties, lead.start), m.await .blockSequenceFirst)
      else if block && kind == .blockMappingStart then
        return ((.mappingStart properties, lead.start), m.await .blockMappingFirst)
      else if lead.anchor.isSome || tag.isSome then
        return ((.scalar properties [] .plain, lead.start), m.resume)
      else
        throw (.while .nodeMissing token.start (if block then .blockNode else .flowNode) lead.start)

/-! ## Documents -/

def commonHandles : List (List Char × List Char) :=
  [(['!'], ['!']), (['!', '!'], "tag:yaml.org,2002:".toList)]

/-- Reads the directives before a document: at most one version, and handles that differ. -/
def directives (versioned : Bool) (handles : List (List Char × List Char)) :
    Nat → EventMachine → Except Fault EventMachine
  | 0, m => .ok m
  | fuel + 1, m => do
    let token ← m.ahead
    match token.kind with
    | .version major minor =>
      if versioned then throw (.alone .duplicateVersion token.start)
      if major ≠ 1 ∨ (minor ≠ 1 ∧ minor ≠ 2) then throw (.alone .incompatibleVersion token.start)
      directives true handles fuel m.pass
    | .tagHandle handle start =>
      if handles.any fun entry => entry.1 == handle then throw (.alone .duplicateTagHandle token.start)
      directives versioned (handles ++ [(handle, start)]) fuel m.pass
    | _ => return { m with handles := handles ++ commonHandles }

def passDocumentEnds : Nat → EventMachine → Except Fault EventMachine
  | 0, m => .ok m
  | fuel + 1, m => do
    let token ← m.ahead
    match token.kind with
    | .documentEnd => passDocumentEnds fuel m.pass
    | _ => return m

def startsBare (kind : TokenKind) : Bool :=
  match kind with
  | .version _ _ | .tagHandle _ _ | .documentStart | .streamEnd => false
  | _ => true

/-- The start of a document or the end of the stream. Only the first document may go without a marker. -/
def document (m : EventMachine) (first : Bool) : Step := do
  let m ← if first then pure m else passDocumentEnds (m.tokens.length + 1) m
  let token ← m.ahead
  if first && startsBare token.kind then
    return ((.documentStart, token.start), { (m.postpone .documentEnd).await .blockNode with handles := commonHandles })
  else if token.kind = .streamEnd then return ((.streamEnd, token.start), m.await .nothing)
  else
    let m ← directives false [] (m.tokens.length + 1) m
    let marker ← m.ahead
    if marker.kind ≠ .documentStart then throw (.alone .documentStartMissing marker.start)
    return ((.documentStart, token.start), (m.pass.postpone .documentEnd).await .documentContent)

def documentContent (m : EventMachine) : Step := do
  let token ← m.ahead
  match token.kind with
  | .version _ _ | .tagHandle _ _ | .documentStart | .documentEnd | .streamEnd => m.resume.emptyNode token.start
  | _ => m.node true false

def endDocument (m : EventMachine) : Step := do
  let token ← m.ahead
  let m := if token.kind = .documentEnd then m.pass else m
  return ((.documentEnd, token.start), m.await (.document false))

/-! ## Block collections -/

/-- The node behind an indicator, or an empty one if a token of the given kinds follows. -/
def nodeOrEmpty (m : EventMachine) (block indentless : Bool) (then_ : Expect) (ends : List TokenKind) (mark : Mark) :
    Step := do
  let token ← m.ahead
  if ends.contains token.kind then (m.await then_).emptyNode mark
  else (m.postpone then_).node block indentless

def blockSequenceEntry (m : EventMachine) (since : Mark) : Step := do
  let token ← m.ahead
  match token.kind with
  | .blockEntry => m.pass.nodeOrEmpty true false (.blockSequenceEntry since) [.blockEntry, .blockEnd] token.stop
  | .blockEnd => return ((.sequenceEnd, token.start), m.pass.resume)
  | _ => throw (.while .sequenceEntryMissing token.start .blockCollection since)

/-- An entry of a sequence that is no deeper than its mapping, or its end. -/
def indentlessEntry (m : EventMachine) : Step := do
  let token ← m.ahead
  match token.kind with
  | .blockEntry =>
    m.pass.nodeOrEmpty true false .indentlessEntry [.blockEntry, .key, .value, .blockEnd] token.stop
  | _ => return ((.sequenceEnd, token.start), m.resume)

def blockMappingKey (m : EventMachine) (since : Mark) : Step := do
  let token ← m.ahead
  match token.kind with
  | .key => m.pass.nodeOrEmpty true true (.blockMappingValue since) [.key, .value, .blockEnd] token.stop
  | .blockEnd => return ((.mappingEnd, token.start), m.pass.resume)
  | _ => throw (.while .mappingKeyMissing token.start .blockMapping since)

/-- A value of a block mapping; it may be left out together with its colon. -/
def blockMappingValue (m : EventMachine) (since : Mark) : Step := do
  let token ← m.ahead
  match token.kind with
  | .value => m.pass.nodeOrEmpty true true (.blockMappingKey since) [.key, .value, .blockEnd] token.stop
  | _ => (m.await (.blockMappingKey since)).emptyNode token.start

/-! ## Flow collections -/

/-- An entry of a flow sequence or its end. A key starts a mapping with one entry. -/
def flowSequenceEntry (m : EventMachine) (first : Bool) (since : Mark) : Step := do
  let token ← m.ahead
  let m ←
    if first || token.kind == .flowSequenceEnd then pure m
    else if token.kind == .flowEntry then pure m.pass
    else throw (.while .flowSequenceEnd token.start .flowSequence since)
  let token ← m.ahead
  match token.kind with
  | .flowSequenceEnd => return ((.sequenceEnd, token.start), m.pass.resume)
  | .key => return ((.mappingStart .none, token.start), m.pass.await (.flowPairKey since))
  | _ => (m.postpone (.flowSequenceEntry since)).node false false

def flowPairKey (m : EventMachine) (since : Mark) : Step := do
  let token ← m.ahead
  if [TokenKind.value, .flowEntry, .flowSequenceEnd].contains token.kind then
    (m.pass.await (.flowPairValue since)).emptyNode token.stop
  else (m.postpone (.flowPairValue since)).node false false

def flowPairValue (m : EventMachine) (since : Mark) : Step := do
  let token ← m.ahead
  match token.kind with
  | .value =>
    let token ← m.pass.ahead
    m.pass.nodeOrEmpty false false (.flowPairEnd since) [.flowEntry, .flowSequenceEnd] token.start
  | _ => (m.await (.flowPairEnd since)).emptyNode token.start

def flowPairEnd (m : EventMachine) (since : Mark) : Step := do
  let token ← m.ahead
  return ((.mappingEnd, token.start), m.await (.flowSequenceEntry since))

def flowMappingKey (m : EventMachine) (first : Bool) (since : Mark) : Step := do
  let token ← m.ahead
  let m ←
    if first || token.kind == .flowMappingEnd then pure m
    else if token.kind == .flowEntry then pure m.pass
    else throw (.while .flowMappingEnd token.start .flowMapping since)
  let token ← m.ahead
  match token.kind with
  | .flowMappingEnd => return ((.mappingEnd, token.start), m.pass.resume)
  | .key =>
    let token ← m.pass.ahead
    m.pass.nodeOrEmpty false false (.flowMappingValue since) [.value, .flowEntry, .flowMappingEnd] token.start
  | _ => (m.postpone (.flowMappingEmptyValue since)).node false false

/-- A value of a flow mapping; it may be left out together with its colon. -/
def flowMappingValue (m : EventMachine) (since : Mark) : Step := do
  let token ← m.ahead
  match token.kind with
  | .value =>
    let token ← m.pass.ahead
    m.pass.nodeOrEmpty false false (.flowMappingKey since) [.flowEntry, .flowMappingEnd] token.start
  | _ => (m.await (.flowMappingKey since)).emptyNode token.start

/-- The start of a collection: its first token is passed and its place remembered. -/
def enter (m : EventMachine) (content : EventMachine → Mark → Step) : Step := do
  let token ← m.ahead
  content m.pass token.start

def step (m : EventMachine) : Step :=
  match m.expect with
  | .document first => m.document first
  | .documentContent => m.documentContent
  | .documentEnd => m.endDocument
  | .blockNode => m.node true false
  | .blockSequenceFirst => m.enter blockSequenceEntry
  | .blockSequenceEntry since => m.blockSequenceEntry since
  | .indentlessEntry => m.indentlessEntry
  | .blockMappingFirst => m.enter blockMappingKey
  | .blockMappingKey since => m.blockMappingKey since
  | .blockMappingValue since => m.blockMappingValue since
  | .flowSequenceFirst => m.enter fun m since => m.flowSequenceEntry true since
  | .flowSequenceEntry since => m.flowSequenceEntry false since
  | .flowPairKey since => m.flowPairKey since
  | .flowPairValue since => m.flowPairValue since
  | .flowPairEnd since => m.flowPairEnd since
  | .flowMappingFirst => m.enter fun m since => m.flowMappingKey true since
  | .flowMappingKey since => m.flowMappingKey false since
  | .flowMappingValue since => m.flowMappingValue since
  | .flowMappingEmptyValue since => do
    let token ← m.ahead
    (m.await (.flowMappingKey since)).emptyNode token.start
  | .nothing => .ok ((.streamEnd, .start), m)

def ofText (text : List Char) : EventMachine :=
  let (read, fault) := Yaml.tokens text
  { tokens := read, fault := fault, expect := .document true, next := [], handles := [] }

end EventMachine

end SpecServer.Yaml
