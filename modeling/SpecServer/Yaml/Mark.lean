set_option autoImplicit false

/-!
Places in YAML text, and a cursor that walks over the text and keeps its place. A line ends at a line feed,
a carriage return, both in this order, or one of the characters NEL, LS and PS.
-/

namespace SpecServer.Yaml

/-- A place: how many characters come before it, and its line and column, all from zero. -/
structure Mark where
  index : Nat
  line : Nat
  column : Nat
deriving DecidableEq, Repr, Inhabited

namespace Mark

def start : Mark := ⟨0, 0, 0⟩

def right (mark : Mark) (count : Nat) : Mark :=
  ⟨mark.index + count, mark.line, mark.column + count⟩

/-- The start of the next line, behind a line end of so many characters. -/
def down (mark : Mark) (count : Nat) : Mark :=
  ⟨mark.index + count, mark.line + 1, 0⟩

def isOrigin (mark : Mark) : Bool :=
  mark.line == 0 && mark.column == 0

def text (mark : Mark) : String :=
  "line " ++ toString (mark.line + 1) ++ " column " ++ toString (mark.column + 1)

end Mark

def isBlank (c : Char) : Bool :=
  c == ' ' || c == '\t'

def isBreak (c : Char) : Bool :=
  c == '\n' || c == '\r' || c == '\x85' || c == '\u2028' || c == '\u2029'

def isGap (c : Char) : Bool :=
  isBlank c || isBreak c

def isNameChar (c : Char) : Bool :=
  ('a' ≤ c && c ≤ 'z') || ('A' ≤ c && c ≤ 'Z') || ('0' ≤ c && c ≤ '9') || c == '-' || c == '_'

def startsWhere (test : Char → Bool) (text : List Char) : Bool :=
  match text with
  | [] => false
  | c :: _ => test c

def atGap (text : List Char) : Bool :=
  match text with
  | [] => true
  | c :: _ => isGap c

def atLineEnd (text : List Char) : Bool :=
  match text with
  | [] => true
  | c :: _ => isBreak c

/-- What is left of a text, and the place where that starts. `size` is the length of the whole text, so that it
bounds every loop over the rest. -/
structure Cursor where
  rest : List Char
  mark : Mark
  size : Nat

namespace Cursor

def start (text : List Char) : Cursor :=
  ⟨text, .start, text.length⟩

def skip (cursor : Cursor) (count : Nat) : Cursor :=
  { cursor with rest := cursor.rest.drop count, mark := cursor.mark.right count }

def skipWhile (cursor : Cursor) (test : Char → Bool) : Cursor :=
  cursor.skip (cursor.rest.takeWhile test).length

def taken (cursor : Cursor) (test : Char → Bool) : List Char :=
  cursor.rest.takeWhile test

/-- Behind a comment, if one starts here. -/
def skipComment (cursor : Cursor) : Cursor :=
  match cursor.rest with
  | '#' :: _ => cursor.skipWhile (!isBreak ·)
  | _ => cursor

/-- Behind the line end that stands here, if one does. -/
def skipLine (cursor : Cursor) : Cursor :=
  match cursor.rest with
  | '\r' :: '\n' :: rest => { cursor with rest := rest, mark := cursor.mark.down 2 }
  | c :: rest => if isBreak c then { cursor with rest := rest, mark := cursor.mark.down 1 } else cursor
  | [] => cursor

/-- What the line end that stands here counts as in a value: LS and PS stay, all others are a line feed. -/
def lineEnd (cursor : Cursor) : List Char :=
  match cursor.rest with
  | c :: _ =>
    if c == '\u2028' || c == '\u2029' then [c] else if isBreak c then ['\n'] else []
  | [] => []

/-- Whether a line starts here with one of the document markers, alone or before a gap. -/
def atDocumentMarker (cursor : Cursor) : Bool :=
  cursor.mark.column == 0 &&
    match cursor.rest with
    | '-' :: '-' :: '-' :: after => atGap after
    | '.' :: '.' :: '.' :: after => atGap after
    | _ => false

end Cursor

end SpecServer.Yaml
