import SpecServer.Yaml.Token
set_option autoImplicit false

/-!
Cutting YAML text into tokens. Block structure follows from indentation, and a mapping key is known as such
only when its colon comes: tokens wait in a queue until no key can start before them any more.
-/

namespace SpecServer.Yaml

/-- A place where a key may have started: whether it must be one, and which token it would come before. -/
structure KeyStart where
  required : Bool
  number : Nat
  mark : Mark
deriving DecidableEq, Repr

/-- A scanner in the middle of its text. `indent` is the indentation of the innermost block collection (−1
outside of all), `outer` those around it. `keys` holds the key start of every open flow collection, the
innermost first, and of the block at its end. `passed` counts the tokens that left the queue. -/
structure Scanner where
  cursor : Cursor
  indent : Int
  outer : List Int
  keys : List (Option KeyStart)
  keyAllowed : Bool
  queue : List Token
  passed : Nat
  ended : Bool

namespace Scanner

def start (text : List Char) : Scanner :=
  { cursor := .start text, indent := -1, outer := [], keys := [none], keyAllowed := true, queue := [], passed := 0
    ended := false }

def inFlow (s : Scanner) : Bool :=
  1 < s.keys.length

def mark (s : Scanner) : Mark :=
  s.cursor.mark

def emit (s : Scanner) (token : Token) : Scanner :=
  { s with queue := s.queue ++ [token] }

/-- The scanner with a token put before the token of the given number. -/
def emitBefore (s : Scanner) (number : Nat) (token : Token) : Scanner :=
  let place := number - s.passed
  { s with queue := s.queue.take place ++ token :: s.queue.drop place }

/-! ## Keys -/

/-- Whether a key that started there can no longer be one: it may not be longer than 1024 characters nor run
over a line end. -/
def expired (s : Scanner) (key : KeyStart) : Bool :=
  key.mark.line < s.mark.line || key.mark.index + 1024 < s.mark.index

/-- Forgets a key start. One that must be a key is an error. -/
def forget (s : Scanner) (key : Option KeyStart) : Except Fault (Option KeyStart) :=
  match key with
  | some key =>
    if key.required then .error (.while .colonMissing s.mark .simpleKey key.mark) else .ok none
  | none => .ok none

/-- Forgets the expired ones of some key starts, given from the outside in. -/
def forgetExpired (s : Scanner) : List (Option KeyStart) → Except Fault (List (Option KeyStart))
  | [] => .ok []
  | key :: rest => do
    let kept ←
      match key with
      | some start => if s.expired start then s.forget key else pure key
      | none => pure none
    let others ← s.forgetExpired rest
    return kept :: others

def dropExpired (s : Scanner) : Except Fault Scanner := do
  let keys ← s.forgetExpired s.keys.reverse
  return { s with keys := keys.reverse }

def dropKey (s : Scanner) : Except Fault Scanner :=
  match s.keys with
  | [] => .ok s
  | key :: rest => do
    let forgotten ← s.forget key
    return { s with keys := forgotten :: rest }

/-- Notes that a key may start here. In a block, what stands at the indentation must be one. -/
def noteKey (s : Scanner) : Except Fault Scanner :=
  if s.keyAllowed then do
    let cleared ← s.dropKey
    let required := !s.inFlow && s.indent == (s.mark.column : Int)
    return { cleared with keys := some ⟨required, s.passed + s.queue.length, s.mark⟩ :: cleared.keys.drop 1 }
  else .ok s

/-! ## Indentation -/

/-- Opens a block collection if the column is deeper than the innermost one. Its token goes before the token
of the given number, or to the end. -/
def openBlock (s : Scanner) (column : Nat) (before : Option Nat) (kind : TokenKind) (mark : Mark) : Scanner :=
  if !s.inFlow ∧ s.indent < (column : Int) then
    let opened := { s with indent := column, outer := s.indent :: s.outer }
    match before with
    | some number => opened.emitBefore number ⟨kind, mark, mark⟩
    | none => opened.emit ⟨kind, mark, mark⟩
  else s

/-- Closes the given block collections for as long as they are deeper than the column; the list holds the
indentations around the innermost one. -/
def closeBlocks (column : Int) (s : Scanner) : List Int → Scanner
  | [] => s
  | next :: rest =>
    if column < s.indent then
      closeBlocks column { s.emit ⟨.blockEnd, s.mark, s.mark⟩ with indent := next, outer := rest } rest
    else s

/-- The scanner after a change of the column, which closes deeper block collections. -/
def closeTo (s : Scanner) (column : Int) : Scanner :=
  if s.inFlow then s else closeBlocks column s s.outer

/-! ## Fetching tokens -/

def emitChars (s : Scanner) (kind : TokenKind) (count : Nat) : Scanner :=
  let after := s.cursor.skip count
  { s.emit ⟨kind, s.mark, after.mark⟩ with cursor := after }

def emitRead (s : Scanner) (found : Token × Cursor) : Scanner :=
  { s.emit found.1 with cursor := found.2 }

/-- Behind blanks, comments and line ends. A line end in a block lets a key start, and where a key may
start a tab is no blank. -/
def skipGaps : Nat → Scanner → Scanner
  | 0, s => s
  | fuel + 1, s =>
    let tabs := s.inFlow || !s.keyAllowed
    let cursor := (s.cursor.skipWhile fun c => c == ' ' || (tabs && c == '\t')).skipComment
    if startsWhere isBreak cursor.rest then
      skipGaps fuel { s with cursor := cursor.skipLine, keyAllowed := s.keyAllowed || !s.inFlow }
    else { s with cursor := cursor }

/-- The end of the text. It counts as the start of a new line. -/
def fetchEnd (s : Scanner) : Except Fault Scanner := do
  let mark := if s.mark.column = 0 then s.mark else ⟨s.mark.index, s.mark.line + 1, 0⟩
  let closed := ({ s with cursor := { s.cursor with mark := mark } } : Scanner).closeTo (-1)
  let cleared ← closed.dropKey
  return { cleared.emit ⟨.streamEnd, mark, mark⟩ with keyAllowed := false, ended := true }

def fetchDirective (s : Scanner) : Except Fault Scanner := do
  let cleared ← (s.closeTo (-1)).dropKey
  let found ← Token.directive s.cursor
  return { cleared.emitRead found with keyAllowed := false }

def fetchDocumentMarker (s : Scanner) : Except Fault Scanner := do
  let cleared ← (s.closeTo (-1)).dropKey
  let kind := if startsWhere (· == '-') s.cursor.rest then .documentStart else .documentEnd
  return { cleared.emitChars kind 3 with keyAllowed := false }

def fetchFlowStart (s : Scanner) (kind : TokenKind) : Except Fault Scanner := do
  let noted ← s.noteKey
  return { noted.emitChars kind 1 with keys := none :: noted.keys, keyAllowed := true }

def fetchFlowEnd (s : Scanner) (kind : TokenKind) : Except Fault Scanner := do
  let cleared ← s.dropKey
  let keys := if s.inFlow then cleared.keys.drop 1 else cleared.keys
  return { cleared.emitChars kind 1 with keys := keys, keyAllowed := false }

def fetchFlowEntry (s : Scanner) : Except Fault Scanner := do
  let cleared ← s.dropKey
  return { cleared.emitChars .flowEntry 1 with keyAllowed := true }

def fetchBlockEntry (s : Scanner) : Except Fault Scanner := do
  if !s.inFlow && !s.keyAllowed then throw (.alone .blockEntryNotAllowed s.mark)
  let cleared ← (s.openBlock s.mark.column none .blockSequenceStart s.mark).dropKey
  return { cleared.emitChars .blockEntry 1 with keyAllowed := true }

def fetchKey (s : Scanner) : Except Fault Scanner := do
  if !s.inFlow && !s.keyAllowed then throw (.alone .keyNotAllowed s.mark)
  let cleared ← (s.openBlock s.mark.column none .blockMappingStart s.mark).dropKey
  return { cleared.emitChars .key 1 with keyAllowed := !s.inFlow }

/-- A colon before a value. If a key may have started, its token and perhaps the one of its mapping go
before what was read since. -/
def fetchValue (s : Scanner) : Except Fault Scanner :=
  match s.keys with
  | some start :: rest =>
    let keyed := s.emitBefore start.number ⟨.key, start.mark, start.mark⟩
    let opened := keyed.openBlock start.mark.column (some start.number) .blockMappingStart start.mark
    .ok { opened.emitChars .value 1 with keys := none :: rest, keyAllowed := false }
  | _ => do
    if !s.inFlow && !s.keyAllowed then throw (.alone .valueNotAllowed s.mark)
    let opened := s.openBlock s.mark.column none .blockMappingStart s.mark
    return { opened.emitChars .value 1 with keyAllowed := !s.inFlow }

/-- A token that may start a key: an anchor, alias, tag or quoted scalar. -/
def fetchContent (s : Scanner) (read : Cursor → Token.Reading) : Except Fault Scanner := do
  let noted ← s.noteKey
  let found ← read s.cursor
  return { noted.emitRead found with keyAllowed := false }

def fetchBlockScalar (s : Scanner) (isLiteral : Bool) : Except Fault Scanner := do
  let cleared ← s.dropKey
  let found ← Token.blockScalar isLiteral s.indent s.cursor
  return { cleared.emitRead found with keyAllowed := true }

/-- A plain scalar. One that ran over a line end lets a key start behind it. -/
def fetchPlainScalar (s : Scanner) : Except Fault Scanner := do
  let noted ← s.noteKey
  let (token, overLines, after) ← Token.plainScalar s.inFlow s.indent s.cursor
  return { noted.emitRead (token, after) with keyAllowed := overLines }

def isIndicator (c : Char) : Bool :=
  ['-', '?', ':', ',', '[', ']', '\x7b', '\x7d', '#', '&', '*', '!', '|', '>', '\x27', '\x22', '%', '@', '\x60'].contains c

def startsPlain (flow : Bool) (c : Char) (rest : List Char) : Bool :=
  !(isGap c || isIndicator c) || (c == '-' && !startsWhere isBlank rest) ||
    (!flow && (c == '?' || c == ':') && !atGap rest)

def fetchHere (s : Scanner) : Except Fault Scanner :=
  match s.cursor.rest with
  | [] => s.fetchEnd
  | c :: rest =>
    let flow := s.inFlow
    if s.mark.column = 0 ∧ c = '%' then s.fetchDirective
    else if s.cursor.atDocumentMarker then s.fetchDocumentMarker
    else if c = '[' then s.fetchFlowStart .flowSequenceStart
    else if c = '\x7b' then s.fetchFlowStart .flowMappingStart
    else if c = ']' then s.fetchFlowEnd .flowSequenceEnd
    else if c = '\x7d' then s.fetchFlowEnd .flowMappingEnd
    else if c = ',' then s.fetchFlowEntry
    else if c = '-' ∧ atGap rest then s.fetchBlockEntry
    else if c = '?' ∧ (flow ∨ atGap rest) then s.fetchKey
    else if c = ':' ∧ (flow ∨ atGap rest) then s.fetchValue
    else if c = '*' then s.fetchContent (Token.anchor true)
    else if c = '&' then s.fetchContent (Token.anchor false)
    else if c = '!' then s.fetchContent (Token.tag flow)
    else if c = '|' ∧ !flow then s.fetchBlockScalar true
    else if c = '>' ∧ !flow then s.fetchBlockScalar false
    else if c = '\x27' then s.fetchContent (Token.quotedScalar true)
    else if c = '\x22' then s.fetchContent (Token.quotedScalar false)
    else if startsPlain flow c rest then s.fetchPlainScalar
    else .error (.while .tokenStart s.mark .nextToken s.mark)

def fetch (s : Scanner) : Except Fault Scanner := do
  let here := skipGaps (s.cursor.size + 1) s
  let fresh ← here.dropExpired
  (fresh.closeTo here.mark.column).fetchHere

/-- Whether a key may start right before the first token of the queue. -/
def keyPending (s : Scanner) : Bool :=
  s.keys.any fun key => key.any fun start => start.number == s.passed

/-- Fetches tokens until the first one of the queue is settled. `fuel` is at least the number of fetches,
each of which takes a character or ends the text. -/
def settle : Nat → Scanner → Except Fault Scanner
  | 0, s => .ok s
  | fuel + 1, s =>
    if s.queue.isEmpty then
      match s.fetch with
      | .error fault => .error fault
      | .ok fetched => settle fuel fetched
    else
      match s.dropExpired with
      | .error fault => .error fault
      | .ok fresh =>
        if fresh.keyPending then
          match fresh.fetch with
          | .error fault => .error fault
          | .ok fetched => settle fuel fetched
        else .ok fresh

/-- Takes tokens until the end of the stream or a fault; `read` holds those so far, the last one first. -/
def run : Nat → List Token → Scanner → List Token × Option Fault
  | 0, read, _ => (read.reverse, none)
  | fuel + 1, read, s =>
    match settle (s.cursor.size + 3) s with
    | .error fault => (read.reverse, some fault)
    | .ok settled =>
      match settled.queue with
      | [] => (read.reverse, none)
      | token :: rest =>
        if token.kind = .streamEnd then ((token :: read).reverse, none)
        else run fuel (token :: read) { settled with queue := rest, passed := settled.passed + 1 }

end Scanner

def isAllowed (c : Char) : Bool :=
  let n := c.toNat
  n == 9 || n == 10 || n == 13 || (0x20 ≤ n && n ≤ 0x7E) || n == 0x85 ||
    (0xA0 ≤ n && n ≤ 0xFFFD && n != 0xFEFF) || 0x10000 ≤ n

/-- The number of bytes before the first character that may not occur. -/
def forbiddenAt? (text : List Char) : Option Nat :=
  match text.dropWhile isAllowed with
  | [] => none
  | _ :: _ => some ((text.takeWhile isAllowed).foldl (fun bytes c => bytes + c.utf8Size) 0)

/-- The tokens of a text, up to the first fault if there is one. A byte order mark at the start is no part of
the text. -/
def tokens (text : List Char) : List Token × Option Fault :=
  let (content, marked) :=
    match text with
    | '\uFEFF' :: rest => (rest, 3)
    | _ => (text, 0)
  match forbiddenAt? content with
  | some bytes => ([], some ⟨.controlCharacter, .start, none, marked + bytes⟩)
  | none => Scanner.run (5 * content.length + 10) [] (Scanner.start content)

end SpecServer.Yaml
