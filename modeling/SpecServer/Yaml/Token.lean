import SpecServer.Decimal.Natural
import SpecServer.Text.Utf8
import SpecServer.Yaml.Fault
import SpecServer.Yaml.Style
set_option autoImplicit false

/-!
The tokens of YAML text, and how the ones with content are read: directives, anchors, tags and scalars. Each
reader gets a cursor at the first character of its token and gives the token and the cursor behind it.
-/

namespace SpecServer.Yaml

/-- What a token is. A block collection starts and ends by its indentation, which has tokens of its own. -/
inductive TokenKind where
  | streamEnd
  | version (major minor : Nat)
  | tagHandle (handle start : List Char)
  | documentStart
  | documentEnd
  | blockSequenceStart
  | blockMappingStart
  | blockEnd
  | flowSequenceStart
  | flowSequenceEnd
  | flowMappingStart
  | flowMappingEnd
  | blockEntry
  | flowEntry
  | key
  | value
  | alias (name : List Char)
  | anchor (name : List Char)
  | tag (handle rest : List Char)
  | scalar (text : List Char) (style : Style)
deriving DecidableEq, Repr

structure Token where
  kind : TokenKind
  start : Mark
  stop : Mark
deriving DecidableEq, Repr

namespace Token

abbrev Reading := Except Fault (Token × Cursor)

/-! ## Tags -/

/-- Characters that a tag may hold as they are; commas and brackets only between angle brackets. -/
def isTagChar (verbatim : Bool) (c : Char) : Bool :=
  isNameChar c || [';', '/', '?', ':', '@', '&', '=', '+', '$', '.', '%', '!', '~', '*', '\x27', '(', ')'].contains c ||
    (verbatim && [',', '[', ']'].contains c)

def escapedByte? (text : List Char) : Option Nat :=
  match text with
  | '%' :: high :: low :: _ =>
    match Decimal.digit? 16 high, Decimal.digit? 16 low with
    | some high, some low => some (high * 16 + low)
    | _, _ => none
  | _ => none

/-- The number of bytes of the character that a byte begins; zero if it begins none. -/
def byteCount (byte : Nat) : Nat :=
  if byte < 0x80 then 1
  else if 0xC0 ≤ byte ∧ byte < 0xE0 then 2
  else if 0xE0 ≤ byte ∧ byte < 0xF0 then 3
  else if 0xF0 ≤ byte ∧ byte < 0xF8 then 4
  else 0

def continuationBytes (activity : Activity) (since : Mark) : Nat → List UInt8 → Cursor → Except Fault (List UInt8 × Cursor)
  | 0, bytes, cursor => .ok (bytes, cursor)
  | count + 1, bytes, cursor =>
    match escapedByte? cursor.rest with
    | none => .error (.while .uriOctet cursor.mark activity since)
    | some byte =>
      if byte / 64 = 2 then
        continuationBytes activity since count (bytes ++ [UInt8.ofNat byte]) (cursor.skip 3)
      else .error (.while .uriTrailingOctet cursor.mark activity since)

def escapedChar (activity : Activity) (since : Mark) (cursor : Cursor) : Except Fault (List UInt8 × Cursor) :=
  match escapedByte? cursor.rest with
  | none => .error (.while .uriOctet cursor.mark activity since)
  | some byte =>
    match byteCount byte with
    | 0 => .error (.while .uriLeadingOctet cursor.mark activity since)
    | more + 1 => continuationBytes activity since more [UInt8.ofNat byte] (cursor.skip 3)

/-- Reads the characters of a tag for as long as there are any. `fuel` is at least the length of the text. -/
def tagChars (verbatim : Bool) (activity : Activity) (since : Mark) :
    Nat → List UInt8 → Cursor → Except Fault (List UInt8 × Cursor)
  | 0, read, cursor => .ok (read, cursor)
  | fuel + 1, read, cursor =>
    match cursor.rest with
    | [] => .ok (read, cursor)
    | c :: _ =>
      if c = '%' then
        match escapedChar activity since cursor with
        | .error fault => .error fault
        | .ok (bytes, after) => tagChars verbatim activity since fuel (read ++ bytes) after
      else if isTagChar verbatim c then
        tagChars verbatim activity since fuel (read ++ String.utf8EncodeChar c) (cursor.skip 1)
      else .ok (read, cursor)

def tagUri (verbatim : Bool) (activity : Activity) (since : Mark) (before : List Char) (cursor : Cursor) :
    Except Fault (List Char × Cursor) :=
  match tagChars verbatim activity since (cursor.size + 1) [] cursor with
  | .error fault => .error fault
  | .ok (bytes, after) =>
    if before.isEmpty ∧ bytes.isEmpty then .error (.while .tagUriMissing after.mark activity since)
    else .ok (before.drop 1 ++ Text.Utf8.decodeLossy bytes, after)

/-- Reads a tag handle: an exclamation mark, and a name with a closing exclamation mark or without it. -/
def tagHandleText (activity : Activity) (since : Mark) (cursor : Cursor) : Except Fault (List Char × Cursor) :=
  match cursor.rest with
  | '!' :: _ =>
    let opened := cursor.skip 1
    let name := '!' :: opened.taken isNameChar
    let after := opened.skipWhile isNameChar
    match after.rest with
    | '!' :: _ => .ok (name ++ ['!'], after.skip 1)
    | _ => .ok (name, after)
  | _ => .error (.while .tagExclamation cursor.mark activity since)

/-- Whether a handle is a name between two exclamation marks, or two of them. -/
def isNamedHandle (handle : List Char) : Bool :=
  2 ≤ handle.length && handle.getLast? == some '!'

/-- Reads a tag. The single exclamation mark is a tag without a handle. -/
def tag (flow : Bool) (cursor : Cursor) : Reading :=
  let since := cursor.mark
  let content : Except Fault ((List Char × List Char) × Cursor) :=
    match cursor.rest with
    | _ :: '<' :: _ =>
      match tagUri true .tagUri since [] (cursor.skip 2) with
      | .error fault => .error fault
      | .ok (uri, after) =>
        match after.rest with
        | '>' :: _ => .ok (([], uri), after.skip 1)
        | _ => .error (.while .tagClosing after.mark .tag since)
    | _ =>
      match tagHandleText .tag since cursor with
      | .error fault => .error fault
      | .ok (handle, after) =>
        if isNamedHandle handle then (tagUri false .tagUri since [] after).map fun (uri, after) => ((handle, uri), after)
        else
          (tagUri false .tagUri since handle after).map fun (uri, after) =>
            (if uri.isEmpty then ([], ['!']) else (['!'], uri), after)
  match content with
  | .error fault => .error fault
  | .ok ((handle, uri), after) =>
    if atGap after.rest || (flow && startsWhere (· == ',') after.rest) then
      .ok (⟨.tag handle uri, since, after.mark⟩, after)
    else .error (.while .spaceOrBreakMissing after.mark .tag since)

/-! ## Directives, anchors and aliases -/

def versionNumber (since : Mark) (cursor : Cursor) : Except Fault (Nat × Cursor) :=
  let digits := cursor.taken fun c => '0' ≤ c && c ≤ '9'
  if 9 < digits.length then .error (.while .versionNumberLong (cursor.skip 9).mark .versionDirective since)
  else
    match Decimal.digits? 10 digits with
    | none => .error (.while .versionNumberMissing cursor.mark .versionDirective since)
    | some n => .ok (n, cursor.skip digits.length)

def versionValue (since : Mark) (cursor : Cursor) : Except Fault (TokenKind × Cursor) :=
  match versionNumber since (cursor.skipWhile isBlank) with
  | .error fault => .error fault
  | .ok (major, after) =>
    match after.rest with
    | '.' :: _ => (versionNumber since (after.skip 1)).map fun (minor, after) => (.version major minor, after)
    | _ => .error (.while .versionPointMissing after.mark .versionDirective since)

def tagValue (since : Mark) (cursor : Cursor) : Except Fault (TokenKind × Cursor) :=
  match tagHandleText .tagDirectiveHandle since (cursor.skipWhile isBlank) with
  | .error fault => .error fault
  | .ok (handle, after) =>
    if !(isNamedHandle handle || handle == ['!']) then
      .error (.while .tagExclamation after.mark .tagDirectiveValue since)
    else if !startsWhere isBlank after.rest then .error (.while .spaceMissing after.mark .tagDirective since)
    else
      match tagUri true .tagDirectiveUri since [] (after.skipWhile isBlank) with
      | .error fault => .error fault
      | .ok (uri, beyond) =>
        if atGap beyond.rest then .ok (.tagHandle handle uri, beyond)
        else .error (.while .spaceOrBreakMissing beyond.mark .tagDirective since)

def directive (cursor : Cursor) : Reading :=
  let since := cursor.mark
  let named := cursor.skip 1
  let name := named.taken isNameChar
  let after := named.skipWhile isNameChar
  if name.isEmpty then .error (.while .directiveName after.mark .directive since)
  else if !atGap after.rest then .error (.while .directiveNameEnd after.mark .directive since)
  else
    let content :=
      if name = "YAML".toList then versionValue since after
      else if name = "TAG".toList then tagValue since after
      else .error (.while .unknownDirective after.mark .directive since)
    match content with
    | .error fault => .error fault
    | .ok (kind, beyond) =>
      let ended := (beyond.skipWhile isBlank).skipComment
      if atLineEnd ended.rest then .ok (⟨kind, since, beyond.mark⟩, ended.skipLine)
      else .error (.while .lineNotEnded ended.mark .directive since)

/-- Characters that may stand right behind the name of an anchor or alias. -/
def endsAnchor (c : Char) : Bool :=
  isGap c || ['?', ':', ',', ']', '\x7d', '%', '@', '\x60'].contains c

def anchor (isAlias : Bool) (cursor : Cursor) : Reading :=
  let since := cursor.mark
  let named := cursor.skip 1
  let name := named.taken isNameChar
  let after := named.skipWhile isNameChar
  if name.isEmpty || !(after.rest.isEmpty || startsWhere endsAnchor after.rest) then
    .error (.while .anchorName after.mark (if isAlias then .alias else .anchor) since)
  else .ok (⟨if isAlias then .alias name else .anchor name, since, after.mark⟩, after)

/-! ## Block scalars -/

inductive Chomping where
  | clip
  | strip
  | keep
deriving DecidableEq, Repr

def chomping? (text : List Char) : Option Chomping :=
  match text with
  | '+' :: _ => some .keep
  | '-' :: _ => some .strip
  | _ => none

/-- Reads an indentation indicator if there is one; zero stands for none. -/
def increment (since : Mark) (cursor : Cursor) : Except Fault (Nat × Cursor) :=
  match cursor.rest with
  | c :: _ =>
    if c = '0' then .error (.while .indentationZero cursor.mark .blockScalar since)
    else if '1' ≤ c ∧ c ≤ '9' then .ok (c.toNat - 48, cursor.skip 1)
    else .ok (0, cursor)
  | [] => .ok (0, cursor)

def blockHeader (since : Mark) (cursor : Cursor) : Except Fault ((Chomping × Nat) × Cursor) :=
  match chomping? cursor.rest with
  | some chomping => (increment since (cursor.skip 1)).map fun (n, after) => ((chomping, n), after)
  | none =>
    (increment since cursor).map fun (n, after) =>
      match (if n = 0 then none else chomping? after.rest) with
      | some chomping => ((chomping, n), after.skip 1)
      | none => ((.clip, n), after)

/-- Empty lines before the next line of a block scalar: their line ends, the place behind the last of them,
the indentation found so far, and the cursor at the first character of content. An indentation of zero is
not known yet. -/
structure EmptyLines where
  breaks : List Char
  stop : Mark
  deepest : Nat
  cursor : Cursor

def emptyLines (indent : Nat) (since : Mark) : Nat → EmptyLines → Except Fault EmptyLines
  | 0, found => .ok found
  | fuel + 1, found =>
    let spaces := found.cursor.taken (· == ' ')
    let allowed := if indent = 0 then spaces.length else min spaces.length (indent - found.cursor.mark.column)
    let cursor := found.cursor.skip allowed
    let deepest := max found.deepest cursor.mark.column
    if (indent = 0 ∨ cursor.mark.column < indent) ∧ startsWhere (· == '\t') cursor.rest then
      .error (.while .tabInIndentation cursor.mark .blockScalar since)
    else if startsWhere isBreak cursor.rest then
      let below := cursor.skipLine
      emptyLines indent since fuel ⟨found.breaks ++ cursor.lineEnd, below.mark, deepest, below⟩
    else .ok ⟨found.breaks, found.stop, deepest, cursor⟩

/-- The indentation of a block scalar whose first line is that deep, in a collection of that indentation. -/
def settledIndent (indent deepest : Nat) (parent : Int) : Nat :=
  if indent = 0 then max 1 (max deepest (parent + 1).toNat) else indent

def assemble (pieces : List (List Char)) : List Char :=
  pieces.reverse.flatten

/-- Reads the lines of a block scalar onto the pieces read so far. `broken` is the line end before the line
at hand and `afterBlank` tells whether the line before it starts with a blank; gives the pieces, the last
line end, and the empty lines behind it. -/
def blockLines (isLiteral : Bool) (indent : Nat) (since : Mark) :
    Nat → List (List Char) → List Char → Bool → EmptyLines →
      Except Fault (List (List Char) × List Char × EmptyLines)
  | 0, pieces, broken, _, empty => .ok (pieces, broken, empty)
  | fuel + 1, pieces, broken, afterBlank, empty =>
    let cursor := empty.cursor
    if cursor.mark.column ≠ indent ∨ cursor.rest.isEmpty then .ok (pieces, broken, empty)
    else
      let blank := startsWhere isBlank cursor.rest
      let joint :=
        if !isLiteral && broken == ['\n'] && !afterBlank && !blank then
          if empty.breaks.isEmpty then [' '] else []
        else broken
      let line := cursor.taken (!isBreak ·)
      let ended := cursor.skip line.length
      let below := ended.skipLine
      match emptyLines indent since (below.size + 1) ⟨[], below.mark, 0, below⟩ with
      | .error fault => .error fault
      | .ok next => blockLines isLiteral indent since fuel (line :: empty.breaks :: joint :: pieces) ended.lineEnd blank next

/-- Reads a block scalar inside a collection of the given indentation. -/
def blockScalar (isLiteral : Bool) (parent : Int) (cursor : Cursor) : Reading :=
  let since := cursor.mark
  match blockHeader since (cursor.skip 1) with
  | .error fault => .error fault
  | .ok ((chomping, explicit), after) =>
    let ended := (after.skipWhile isBlank).skipComment
    if !atLineEnd ended.rest then .error (.while .lineNotEnded ended.mark .blockScalar since)
    else
      let below := ended.skipLine
      let given := if explicit = 0 then 0 else if 0 ≤ parent then (parent + explicit).toNat else explicit
      match emptyLines given since (below.size + 1) ⟨[], below.mark, 0, below⟩ with
      | .error fault => .error fault
      | .ok empty =>
        let indent := settledIndent given empty.deepest parent
        match blockLines isLiteral indent since (below.size + 1) [] [] false empty with
        | .error fault => .error fault
        | .ok (pieces, broken, rest) =>
          let kept :=
            match chomping with
            | .strip => []
            | .clip => broken
            | .keep => broken ++ rest.breaks
          let style := if isLiteral then .literal else .folded
          .ok (⟨.scalar (assemble (kept :: pieces)) style, since, rest.stop⟩, rest.cursor)

/-! ## Quoted scalars -/

structure Gap where
  blanks : List Char
  firstBreak : List Char
  moreBreaks : List Char
  broken : Bool

/-- No gap so far; `broken` if an escaped line end already came. -/
def Gap.none (broken : Bool) : Gap := ⟨[], [], [], broken⟩

/-- What a gap stands for in the value: a single line end is a space, of several ones the first is dropped,
and blanks count only without a line end. -/
def Gap.text (gap : Gap) : List Char :=
  if gap.broken then
    if gap.firstBreak == ['\n'] then
      if gap.moreBreaks.isEmpty then [' '] else gap.moreBreaks
    else gap.firstBreak ++ gap.moreBreaks
  else gap.blanks

def Gap.addBreak (gap : Gap) (lineEnd : List Char) : Gap :=
  if gap.broken then { gap with moreBreaks := gap.moreBreaks ++ lineEnd } else ⟨[], lineEnd, gap.moreBreaks, true⟩

def quotedGap : Nat → Gap → Cursor → Gap × Cursor
  | 0, gap, cursor => (gap, cursor)
  | fuel + 1, gap, cursor =>
    match cursor.rest with
    | [] => (gap, cursor)
    | c :: _ =>
      if isBlank c then
        quotedGap fuel (if gap.broken then gap else { gap with blanks := gap.blanks ++ [c] }) (cursor.skip 1)
      else if isBreak c then quotedGap fuel (gap.addBreak cursor.lineEnd) cursor.skipLine
      else (gap, cursor)

def escapedLetter? (c : Char) : Option Char :=
  match c with
  | '0' => some '\x00'
  | 'a' => some '\x07'
  | 'b' => some '\x08'
  | 't' => some '\t'
  | '\t' => some '\t'
  | 'n' => some '\n'
  | 'v' => some '\x0b'
  | 'f' => some '\x0c'
  | 'r' => some '\r'
  | 'e' => some '\x1b'
  | ' ' => some ' '
  | '\x22' => some '\x22'
  | '/' => some '/'
  | '\\' => some '\\'
  | 'N' => some '\x85'
  | '_' => some '\xa0'
  | 'L' => some '\u2028'
  | 'P' => some '\u2029'
  | _ => none

/-- The number of hexadecimal digits behind a letter after a backslash. -/
def escapeWidth? (c : Char) : Option Nat :=
  match c with
  | 'x' => some 2
  | 'u' => some 4
  | 'U' => some 8
  | _ => none

def escape (since : Mark) (cursor : Cursor) : Except Fault (Char × Cursor) :=
  match cursor.rest with
  | _ :: letter :: digits =>
    match escapedLetter? letter, escapeWidth? letter with
    | some c, _ => .ok (c, cursor.skip 2)
    | none, none => .error (.while .unknownEscape cursor.mark .quotedEscape since)
    | none, some width =>
      let after := cursor.skip 2
      match (if digits.length < width then none else Decimal.digits? 16 (digits.take width)) with
      | none => .error (.while .hexDigit after.mark .quotedEscape since)
      | some code =>
        if (0xD800 ≤ code ∧ code ≤ 0xDFFF) ∨ 0x10FFFF < code then
          .error (.while .escapeCode after.mark .quotedEscape since)
        else .ok (Char.ofNat code, after.skip width)
  | _ => .error (.while .unknownEscape cursor.mark .quotedEscape since)

/-- Reads characters of a quoted scalar up to a gap, an escaped line end (`true`) or the closing quote. -/
def quotedWord (quote : Char) (since : Mark) :
    Nat → List Char → Cursor → Except Fault (List Char × Bool × Cursor)
  | 0, read, cursor => .ok (read.reverse, false, cursor)
  | fuel + 1, read, cursor =>
    match cursor.rest with
    | [] => .ok (read.reverse, false, cursor)
    | c :: rest =>
      if isGap c then .ok (read.reverse, false, cursor)
      else if c = quote then
        if quote = '\x27' ∧ rest.head? = some '\x27' then quotedWord quote since fuel ('\x27' :: read) (cursor.skip 2)
        else .ok (read.reverse, false, cursor)
      else if quote = '\x22' ∧ c = '\\' then
        if startsWhere isBreak rest then .ok (read.reverse, true, (cursor.skip 1).skipLine)
        else
          match escape since cursor with
          | .error fault => .error fault
          | .ok (escaped, after) => quotedWord quote since fuel (escaped :: read) after
      else quotedWord quote since fuel (c :: read) (cursor.skip 1)

/-- Reads a quoted scalar word by word behind its opening quote, onto the pieces read so far. -/
def quotedFrom (quote : Char) (since : Mark) :
    Nat → List (List Char) → Cursor → Except Fault (List Char × Cursor)
  | 0, pieces, cursor => .ok (assemble pieces, cursor)
  | fuel + 1, pieces, cursor =>
    if cursor.atDocumentMarker then .error (.while .documentMarkerInQuotes cursor.mark .quotedScalar since)
    else if cursor.rest.isEmpty then .error (.while .quoteNotClosed cursor.mark .quotedScalar since)
    else
      match quotedWord quote since (cursor.size + 1) [] cursor with
      | .error fault => .error fault
      | .ok (word, broken, after) =>
        if startsWhere (· == quote) after.rest then .ok (assemble (word :: pieces), after.skip 1)
        else
          let (gap, beyond) := quotedGap (after.size + 1) (.none broken) after
          quotedFrom quote since fuel (gap.text :: word :: pieces) beyond

def quotedScalar (single : Bool) (cursor : Cursor) : Reading :=
  let since := cursor.mark
  let quote := if single then '\x27' else '\x22'
  match quotedFrom quote since (cursor.size + 1) [] (cursor.skip 1) with
  | .error fault => .error fault
  | .ok (text, after) =>
    .ok (⟨.scalar text (if single then .singleQuoted else .doubleQuoted), since, after.mark⟩, after)

/-! ## Plain scalars -/

def isFlowIndicator (c : Char) : Bool :=
  [',', '[', ']', '\x7b', '\x7d'].contains c

def endsPlain (flow : Bool) (text : List Char) : Bool :=
  match text with
  | [] => true
  | c :: rest => isGap c || (c == ':' && atGap rest) || (flow && isFlowIndicator c)

/-- Whether a colon stands here that is neither content nor a key's end in a flow collection. -/
def strayColon (flow : Bool) (text : List Char) : Bool :=
  match text with
  | ':' :: c :: _ => flow && (isFlowIndicator c || c == '?')
  | _ => false

def plainWord (flow : Bool) (since : Mark) : Nat → List Char → Cursor → Except Fault (List Char × Cursor)
  | 0, read, cursor => .ok (read.reverse, cursor)
  | fuel + 1, read, cursor =>
    if !atGap cursor.rest && strayColon flow cursor.rest then
      .error (.while .colonInFlow cursor.mark .plainScalar since)
    else if endsPlain flow cursor.rest then .ok (read.reverse, cursor)
    else
      match cursor.rest with
      | [] => .ok (read.reverse, cursor)
      | c :: _ => plainWord flow since fuel (c :: read) (cursor.skip 1)

/-- Reads blanks and line ends; below the indentation a line may not start with a tab. -/
def plainGap (indent : Nat) (since : Mark) : Nat → Gap → Cursor → Except Fault (Gap × Cursor)
  | 0, gap, cursor => .ok (gap, cursor)
  | fuel + 1, gap, cursor =>
    match cursor.rest with
    | [] => .ok (gap, cursor)
    | c :: _ =>
      if isBlank c then
        if gap.broken ∧ cursor.mark.column < indent ∧ c = '\t' then
          .error (.while .tabBelowIndentation cursor.mark .plainScalar since)
        else
          plainGap indent since fuel (if gap.broken then gap else { gap with blanks := gap.blanks ++ [c] }) (cursor.skip 1)
      else if isBreak c then plainGap indent since fuel (gap.addBreak cursor.lineEnd) cursor.skipLine
      else .ok (gap, cursor)

/-- A plain scalar as far as it was read: the pieces of its text with the last one first, the gap behind
it, and the place where the text ends. -/
structure Plain where
  pieces : List (List Char)
  gap : Gap
  stop : Mark

def plainFrom (flow : Bool) (indent : Nat) (since : Mark) : Nat → Plain → Cursor → Except Fault (Plain × Cursor)
  | 0, plain, cursor => .ok (plain, cursor)
  | fuel + 1, plain, cursor =>
    if cursor.atDocumentMarker || startsWhere (· == '#') cursor.rest then .ok (plain, cursor)
    else
      match plainWord flow since (cursor.size + 1) [] cursor with
      | .error fault => .error fault
      | .ok (word, after) =>
        let longer := if word.isEmpty then plain else ⟨word :: plain.gap.text :: plain.pieces, .none false, after.mark⟩
        if !startsWhere isGap after.rest then .ok (longer, after)
        else
          match plainGap indent since (after.size + 1) longer.gap after with
          | .error fault => .error fault
          | .ok (gap, beyond) =>
            let spaced := { longer with gap := gap }
            if !flow ∧ beyond.mark.column < indent then .ok (spaced, beyond)
            else plainFrom flow indent since fuel spaced beyond

/-- Reads a plain scalar inside a collection of the given indentation, and tells whether it ran over a line
end. -/
def plainScalar (flow : Bool) (parent : Int) (cursor : Cursor) : Except Fault (Token × Bool × Cursor) :=
  let since := cursor.mark
  match plainFrom flow (parent + 1).toNat since (cursor.size + 1) ⟨[], .none false, since⟩ cursor with
  | .error fault => .error fault
  | .ok (plain, after) => .ok (⟨.scalar (assemble plain.pieces) .plain, since, plain.stop⟩, plain.gap.broken, after)

end Token

end SpecServer.Yaml
