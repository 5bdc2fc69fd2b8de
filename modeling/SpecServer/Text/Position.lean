import SpecServer.Text.Split
set_option autoImplicit false

/-!
Places in a text: UTF-8 lengths, zero-based lines and columns counted in characters, and the lines of a
text. A line ends at a line feed; a carriage return right before it belongs to the line end.
-/

namespace SpecServer.Text

def byteLength (text : List Char) : Nat :=
  text.foldr (fun c bytes => c.utf8Size + bytes) 0

@[simp] theorem byteLength_nil : byteLength [] = 0 := rfl

@[simp] theorem byteLength_cons (c : Char) (text : List Char) :
    byteLength (c :: text) = c.utf8Size + byteLength text := rfl

@[simp] theorem byteLength_append (front back : List Char) :
    byteLength (front ++ back) = byteLength front + byteLength back := by
  induction front with
  | nil => simp
  | cons c front ih => simp [ih, Nat.add_assoc]

/-- A place in a text: line and column, both from zero, the column in characters. -/
structure Position where
  line : Nat
  character : Nat
deriving DecidableEq, Repr, Inhabited

def Position.start : Position := ⟨0, 0⟩

def Position.advance (place : Position) (c : Char) : Position :=
  if c = '\n' then ⟨place.line + 1, 0⟩ else ⟨place.line, place.character + 1⟩

def Position.after (passed : List Char) : Position :=
  passed.foldl Position.advance Position.start

def takeBytes : Nat → List Char → List Char
  | 0, _ => []
  | _ + 1, [] => []
  | offset + 1, c :: text => c :: takeBytes (offset + 1 - c.utf8Size) text

/-- The place of a byte offset. An offset inside a character counts as the one after it, and an offset past
the end as the end. -/
def positionOf (text : List Char) (offset : Nat) : Position :=
  Position.after (takeBytes offset text)

def stripReturn (line : List Char) : List Char :=
  match line.getLast? with
  | some '\r' => line.dropLast
  | _ => line

/-- The lines of a text. What follows the last line feed is a line only if it is not empty, and keeps a
carriage return at its end. -/
def lines (text : List Char) : List (List Char) :=
  let pieces := splitAt '\n' text
  let ended := pieces.dropLast.map stripReturn
  match pieces.getLast? with
  | some [] => ended
  | some rest => ended ++ [rest]
  | none => ended

def lineAt? (text : List Char) (line : Nat) : Option (List Char) :=
  (lines text)[line]?

/-- The byte offset of a column in its line; a column past the end counts as the end. -/
def charToByte (line : List Char) (column : Nat) : Nat :=
  byteLength (line.take column)

end SpecServer.Text
