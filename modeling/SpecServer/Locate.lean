import SpecServer.Json.Path
import SpecServer.Text.Position
set_option autoImplicit false

/-!
Finding the place of a node in the text of its document. The keys of the path are searched one after
another, each behind the one before, without parsing the text: a key counts where it stands in double quotes
before a colon, or where it starts its line and a colon follows directly. A search goes on behind each occurrence that
does not count. For an empty key that is where it stood before: such a search finds the key at once or does not end.
-/

namespace SpecServer.Locate

open Text

def colonFollows (text : List Char) : Bool :=
  (text.dropWhile fun c => c = ' ' || c = '\t').head? == some ':'

/-- The number of characters before the first quoted key that a colon follows. Occurrences do not overlap:
`skip` characters belong to one that was refused. -/
def quotedKey? (quoted : List Char) (skip : Nat) : List Char → Option Nat
  | [] => none
  | c :: text =>
    match skip with
    | skip + 1 => (quotedKey? quoted skip text).map (· + 1)
    | 0 =>
      match after? quoted (c :: text) with
      | some rest =>
        if colonFollows rest then some 0 else (quotedKey? quoted (quoted.length - 1) text).map (· + 1)
      | none => (quotedKey? quoted 0 text).map (· + 1)

/-- Whether the line consists of spaces and hyphens up to here, one character further on. -/
def indentedAfter (indented : Bool) (c : Char) : Bool :=
  c = '\n' || (indented && (c = ' ' || c = '-'))

/-- The number of characters before the first bare key that starts its line and has a colon after it; nothing is known
if the search does not end. `indented` tells whether only spaces and hyphens stand before it on the line; `skip`
characters belong to an occurrence that was refused. -/
def bareKey? (key : List Char) (indented : Bool) (skip : Nat) : List Char → Option (Option Nat)
  | [] => if key.isEmpty then none else some none
  | c :: text =>
    match skip with
    | skip + 1 => (bareKey? key (indentedAfter indented c) skip text).map (Option.map (· + 1))
    | 0 =>
      match after? key (c :: text) with
      | some rest =>
        if indented && rest.head? == some ':' then some (some 0)
        else if key.isEmpty then none
        else (bareKey? key (indentedAfter indented c) (key.length - 1) text).map (Option.map (· + 1))
      | none => (bareKey? key (indentedAfter indented c) 0 text).map (Option.map (· + 1))

def least? : Option Nat → Option Nat → Option Nat
  | some a, some b => some (min a b)
  | some a, none => some a
  | none, found => found

/-- The number of characters before the first occurrence of a key in the text, which follows what was
passed. A quoted key stands behind its quote. -/
def key? (passed key text : List Char) : Option (Option Nat) :=
  let quoted := (quotedKey? ('\x22' :: key ++ ['\x22']) 0 text).map (· + 1)
  (bareKey? key (passed.foldl indentedAfter true) 0 text).map (least? quoted)

/-- Searches the keys of a path one after another, as long as each search ends. `cursor` characters were passed; gives
where the last key that could be found starts. -/
def keys? (text : List Char) (cursor : Nat) (found : Option Nat) : List (List Char) → Option (Option Nat)
  | [] => some found
  | key :: rest =>
    match key? (text.take cursor) key (text.drop cursor) with
    | none => none
    | some none => some found
    | some (some offset) => keys? text (cursor + offset + key.length) (some (cursor + offset)) rest

/-- The key of a segment, if it has one. -/
def keyOf? : Segment → Option (List Char)
  | .key name => some name.toList
  | .index _ => none

/-- The best known place of the node at a path: where its deepest key that occurs in order stands, the start
of the text for a path without keys, and no place if not even the first key occurs. Nothing is known if the search for
one of the keys does not end. -/
def place? (text : String) (path : Path) : Option (Option Position) :=
  let keys := path.filterMap keyOf?
  if keys.isEmpty then some (some .start)
  else (keys? text.toList 0 none keys).map (Option.map fun found => Position.after (text.toList.take found))

end SpecServer.Locate
