import SpecServer.Uri.Basic
set_option autoImplicit false

/-!
Walking along a path: segments are put behind each other, a single dot stands for where one is and two dots
lead one segment up. The first segment of a `file` path may be a drive letter with a colon, which cannot be
left again.
-/

namespace SpecServer.Uri

def isLetter (c : Char) : Bool :=
  ('a' ≤ c && c ≤ 'z') || ('A' ≤ c && c ≤ 'Z')

def isDrive (segment : List Char) : Bool :=
  match segment with
  | [c, mark] => isLetter c && (mark == ':' || mark == '|')
  | _ => false

def isPlainDrive (segment : List Char) : Bool :=
  match segment with
  | [c, ':'] => isLetter c
  | _ => false

/-- Whether a text starts with a drive letter that is followed by the end of the segment. -/
def startsWithDrive (text : List Char) : Bool :=
  match text with
  | [c, mark] => isDrive [c, mark]
  | c :: mark :: next :: _ => isDrive [c, mark] && ['/', '\\', '?', '#'].contains next
  | _ => false

/-- The part of a path up to its last slash and with it, and what follows. -/
def splitName (path : List Char) : List Char × List Char :=
  let name := (path.reverse.takeWhile (· ≠ '/')).reverse
  (path.take (path.length - name.length), name)

/-- The path without its last segment; the slash before it stays. The drive of a `file` path is not left. -/
def popSegment (kind : Kind) (path : List Char) : List Char :=
  let (lead, name) := splitName path
  if kind = .file && isPlainDrive name then path else lead

/-- Whether a path that ends in a slash has a segment before it that is no drive. -/
def canDropSlash (path : List Char) : Bool :=
  let (lead, name) := splitName path.dropLast
  !lead.isEmpty && !startsWithDrive (name ++ ['/'])

def isSingleDot (segment : List Char) : Bool :=
  [".", "%2e", "%2E"].contains (String.ofList segment)

def isDoubleDot (segment : List Char) : Bool :=
  ["..", "%2e%2e", "%2e%2E", "%2E%2e", "%2E%2E", "%2e.", "%2E.", ".%2e", ".%2E"].contains (String.ofList segment)

/-- The path of a URI as far as it is read. `bare` tells whether the text before an empty path ends in a
slash, and `hosted` whether the URI still has its host. -/
structure PathBuilder where
  path : List Char
  bare : Bool
  hosted : Bool

namespace PathBuilder

def endsInSlash (b : PathBuilder) : Bool :=
  match b.path.getLast? with
  | some c => c == '/'
  | none => b.bare

/-- The builder with a slash at the end, if it has none there. -/
def withSlash (b : PathBuilder) : PathBuilder :=
  if b.endsInSlash then b else { b with path := b.path ++ ['/'] }

/-- Goes one segment up; `slash` tells whether a slash followed the dots. -/
def up (b : PathBuilder) (kind : Kind) (slash : Bool) : PathBuilder :=
  let path := if b.endsInSlash && canDropSlash b.path then b.path.dropLast else b.path
  let shorter := { b with path := if path.isEmpty then path else popSegment kind path }
  if slash then shorter.withSlash else shorter

/-- Adds a segment; `slash` tells whether a slash followed it. A drive as the first segment of a `file` path
is written with a colon and takes the place of the host. -/
def add (b : PathBuilder) (kind : Kind) (segment : List Char) (slash : Bool) : PathBuilder :=
  let tail := if slash then ['/'] else []
  if isDoubleDot segment then b.up kind slash
  else if isSingleDot segment then b.withSlash
  else if kind = .file && b.path.length == 1 && isDrive segment then
    { path := b.path ++ segment.take 1 ++ ':' :: tail, bare := b.bare, hosted := false }
  else { b with path := b.path ++ segment ++ tail }

end PathBuilder

/-- A tab or a line end, which URIs may be broken at. -/
def isFold (c : Char) : Bool :=
  c == '\t' || c == '\n' || c == '\r'

def isSlash (kind : Kind) (c : Char) : Bool :=
  c == '/' || (c == '\\' && kind != .other)

def endsPath (c : Char) : Bool :=
  c == '?' || c == '#'

/-- The text of one segment and whether a drive was closed before it. Where a `file` path so far ends with
its drive, a slash comes before what follows. -/
structure SegmentText where
  text : List Char
  slashed : Bool

/-- Reads the pieces of a segment, which tabs and line ends separate. -/
def segmentPieces (kind : Kind) (path : List Char) : SegmentText → List (List Char) → SegmentText
  | found, [] => found
  | found, piece :: rest =>
    let sofar := path ++ (if found.slashed then ['/'] else []) ++ found.text
    let encoded := percentEncode .path piece
    if kind = .file && !piece.isEmpty && isPlainDrive (sofar.drop 1) then
      -- what stands before the slash no longer belongs to the segment if it was empty so far
      segmentPieces kind path ⟨found.text ++ (if found.text.isEmpty then [] else ['/']) ++ encoded, found.text.isEmpty⟩ rest
    else segmentPieces kind path ⟨found.text ++ encoded, found.slashed⟩ rest

def pieces (segment : List Char) : List (List Char) :=
  Text.splitAt '\t' (segment.map fun c => if isFold c then '\t' else c)

/-- Reads a path up to its query or fragment, whose text is left. `fuel` is at least the length of the
text. -/
def readPath (kind : Kind) : Nat → PathBuilder → List Char → PathBuilder × List Char
  | 0, b, input => (b, input)
  | fuel + 1, b, input =>
    let ends := fun c => isSlash kind c || endsPath c
    let segment := input.takeWhile (!ends ·)
    let after := input.dropWhile (!ends ·)
    have slash :=
      match after with
      | c :: _ => isSlash kind c
      | [] => false
    let found := segmentPieces kind b.path ⟨[], false⟩ (pieces segment)
    let start := if found.slashed then { b with path := b.path ++ ['/'] } else b
    let next := start.add kind found.text slash
    if slash then readPath kind fuel next (after.drop 1) else (next, after)

/-- Reads a path; the path of a `file` URI starts with exactly one slash. -/
def walkPath (kind : Kind) (b : PathBuilder) (input : List Char) : PathBuilder × List Char :=
  let (built, rest) := readPath kind (input.length + 1) b input
  if kind = .file then ({ built with path := '/' :: built.path.dropWhile (· == '/') }, rest) else (built, rest)

end SpecServer.Uri
