import SpecServer.Json.Writer
import SpecServer.Text.Case
import SpecServer.Yaml.Mark
import SpecServer.Yaml.Scalar
import SpecServer.Yaml.Style
set_option autoImplicit false

/-!
Writing a document as YAML in block style, two columns for each level. Texts are plain where nothing could
take them for something else, and lines of their own where they have several. The printer extends an output
that is kept with its last character first.
-/

namespace SpecServer.Yaml

namespace Printer

abbrev Output := List Char

def put (text : List Char) (out : Output) : Output :=
  text.reverse ++ out

def pad (count : Nat) (out : Output) : Output :=
  List.replicate count ' ' ++ out

def atLineStart (out : Output) : Bool :=
  match out with
  | [] => true
  | c :: _ => isBreak c

def newLine (indent : Nat) (out : Output) : Output :=
  pad indent (if atLineStart out then out else '\n' :: out)

def space (out : Output) : Output :=
  if atLineStart out || out.head? == some ' ' then out else ' ' :: out

/-! ## Which style a text needs -/

def isPrintable (c : Char) : Bool :=
  let n := c.toNat
  n == 0x0A || (0x20 ≤ n && n ≤ 0x7E) || (0xA0 ≤ n && n ≤ 0xFFFD && n != 0xFEFF) || 0x10000 ≤ n

def isLeadingIndicator (c : Char) : Bool :=
  ['#', ',', '[', ']', '\x7b', '\x7d', '&', '*', '!', '|', '>', '\x27', '\x22', '%', '@', '\x60'].contains c

/-- Whether the first character of a text could be taken for an indicator. -/
def startsAmbiguously (text : List Char) : Bool :=
  match text with
  | [] => false
  | c :: rest =>
    isLeadingIndicator c || ((c == '?' || c == ':' || c == '-') && atGap rest) ||
      Text.startsWith ['-', '-', '-'] text || Text.startsWith ['.', '.', '.'] text

/-- Whether a colon before a gap or a number sign behind one stands inside a text. -/
def hasIndicator : List Char → Bool
  | [] => false
  | c :: rest =>
    (match rest with
      | ':' :: after => atGap after
      | '#' :: _ => isGap c
      | _ => false) || hasIndicator rest

/-- Whether a character that satisfies the first test is followed by one that satisfies the second. -/
def hasPair (first second : Char → Bool) : List Char → Bool
  | [] => false
  | c :: rest =>
    (match rest with
      | d :: _ => first c && second d
      | [] => false) || hasPair first second rest

def isSpace (c : Char) : Bool := c == ' '

def needsEscapes (text : List Char) : Bool :=
  text.any (!isPrintable ·) || hasPair isSpace isBreak text

def plainAllowed (text : List Char) : Bool :=
  !(needsEscapes text || text.any isBreak || text.head? == some ' ' || text.getLast? == some ' ' ||
    startsAmbiguously text || hasIndicator text)

def singleAllowed (text : List Char) : Bool :=
  !(needsEscapes text || hasPair isBreak isSpace text)

def literalAllowed (text : List Char) : Bool :=
  !(needsEscapes text || text.getLast? == some ' ')

def oldTruthWords : List String :=
  ["y", "Y", "yes", "Yes", "YES", "n", "N", "no", "No", "NO", "on", "On", "ON", "off", "Off", "OFF"]

/-- Whether a reader might take a text for a number, a truth value or nothing. -/
def isAmbiguous (text : List Char) : Bool :=
  let lowered := String.ofList (Text.lower text)
  let leads :=
    match text with
    | [] => true
    | c :: _ => ('0' ≤ c && c ≤ '9') || c == '-' || c == '.' || c == '+'
  leads || Meaning.isNothing lowered || (Meaning.truth? lowered).isSome || Meaning.ofText text != .text

/-- The style of a text. A key on one line has no lines of its own. -/
def styleOf (isKey : Bool) (text : List Char) : Style :=
  let wanted :=
    if oldTruthWords.contains (String.ofList text) then Style.singleQuoted
    else if text.contains '\n' then .literal
    else if isAmbiguous text then .singleQuoted
    else .plain
  match wanted with
  | .literal => if literalAllowed text && !isKey then .literal else .doubleQuoted
  | .singleQuoted => if singleAllowed text then .singleQuoted else .doubleQuoted
  | _ => if plainAllowed text then .plain else if singleAllowed text then .singleQuoted else .doubleQuoted

/-! ## Scalars -/

/-- Upper-case hexadecimal digits of a number, so many of them. -/
def hexDigits (count n : Nat) : List Char :=
  let digits := (Nat.toDigits 16 n).map Char.toUpper
  List.replicate (count - digits.length) '0' ++ digits

def escaped (c : Char) : List Char :=
  let n := c.toNat
  if n = 0 then ['\\', '0']
  else if n = 7 then ['\\', 'a']
  else if n = 8 then ['\\', 'b']
  else if n = 9 then ['\\', 't']
  else if n = 10 then ['\\', 'n']
  else if n = 11 then ['\\', 'v']
  else if n = 12 then ['\\', 'f']
  else if n = 13 then ['\\', 'r']
  else if n = 27 then ['\\', 'e']
  else if n = 0x22 then ['\\', '\x22']
  else if n = 0x5C then ['\\', '\\']
  else if n = 0x85 then ['\\', 'N']
  else if n = 0xA0 then ['\\', '_']
  else if n = 0x2028 then ['\\', 'L']
  else if n = 0x2029 then ['\\', 'P']
  else if n ≤ 0xFF then '\\' :: 'x' :: hexDigits 2 n
  else if n ≤ 0xFFFF then '\\' :: 'u' :: hexDigits 4 n
  else '\\' :: 'U' :: hexDigits 8 n

def doubleQuoted (text : List Char) : List Char :=
  let one := fun c : Char =>
    if !isPrintable c || isBreak c || c == '\x22' || c == '\\' then escaped c else [c]
  '\x22' :: text.flatMap one ++ ['\x22']

/-- A text in single quotes behind what was written of it. A line end in it starts a new indented line. -/
def singleQuotedFrom (indent : Nat) (broken : Bool) : List Char → List Char
  | [] => (if broken then List.replicate indent ' ' else []) ++ ['\x27']
  | c :: rest =>
    if isBreak c then c :: singleQuotedFrom indent true rest
    else
      (if broken then List.replicate indent ' ' else []) ++ (if c = '\x27' then ['\x27'] else []) ++
        c :: singleQuotedFrom indent false rest

def literalFrom (indent : Nat) (broken : Bool) : List Char → List Char
  | [] => []
  | c :: rest =>
    if isBreak c then c :: literalFrom indent true rest
    else (if broken then List.replicate indent ' ' else []) ++ c :: literalFrom indent false rest

/-- The hints behind the bar of a literal text: the indentation if the text starts with a space or a line
end, and what happens to the line ends behind it. -/
def literalHints (text : List Char) : List Char :=
  let lead :=
    match text with
    | c :: _ => if isSpace c || isBreak c then ['2'] else []
    | [] => []
  let chomp :=
    match text.reverse with
    | [] => ['-']
    | [c] => if isBreak c then ['+'] else ['-']
    | c :: d :: _ => if !isBreak c then ['-'] else if isBreak d then ['+'] else []
  lead ++ chomp

/-- Writes a text. `indent` is the indentation of its lines if it has several. -/
def putText (isKey : Bool) (indent : Nat) (text : List Char) (out : Output) : Output :=
  match styleOf isKey text with
  | .plain => put text (space out)
  | .singleQuoted => put ('\x27' :: singleQuotedFrom indent false text) (space out)
  | .literal => put ('|' :: literalHints text ++ '\n' :: literalFrom indent true text) (space out)
  | _ => put (doubleQuoted text) (space out)

/-! ## Nodes -/

def floatLayout : Decimal.FloatLayout := ⟨-5, 15, false⟩

def numberText : Number → List Char
  | .integer n => Json.integerText n
  | .float x => floatLayout.write x

/-- Where a node stands: alone, behind the colon of a key, or on the line of a hyphen, a question mark or
a colon that starts the line. -/
inductive Place where
  | root
  | value
  | inline
deriving DecidableEq, Repr

def isSimpleKey (key : String) : Bool :=
  !key.toList.any isBreak && key.utf8ByteSize ≤ 128

/-- The start of an entry: on the line of the indicator before it, or on a line of its own. -/
def startEntry (onLine : Bool) (indent : Nat) (out : Output) : Output :=
  if onLine then ' ' :: out else newLine indent out

mutual

def putNode (place : Place) (outer : Nat) (node : Json) (out : Output) : Output :=
  let inner := if place = .root then 0 else outer + 2
  let deeper := if place = .root then 2 else outer + 2
  match node with
  | .null => put "null".toList (space out)
  | .bool b => put (if b then "true".toList else "false".toList) (space out)
  | .number n => put (numberText n) (space out)
  | .string s => putText false deeper s.toList out
  | .array [] => put ['[', ']'] (space out)
  | .array (item :: rest) =>
    let indent := if place = .value then outer else inner
    putItems indent rest (putNode .inline indent item ('-' :: startEntry (place == .inline) indent out))
  | .object [] => put ['\x7b', '\x7d'] (space out)
  | .object ((key, value) :: rest) =>
    let keyed := putKey inner key (startEntry (place == .inline) inner out)
    putFields inner rest (putNode keyed.1 inner value keyed.2)

def putItems (indent : Nat) : List Json → Output → Output
  | [], out => out
  | item :: rest, out => putItems indent rest (putNode .inline indent item ('-' :: newLine indent out))

def putFields (indent : Nat) : List (String × Json) → Output → Output
  | [], out => out
  | (key, value) :: rest, out =>
    let keyed := putKey indent key (newLine indent out)
    putFields indent rest (putNode keyed.1 indent value keyed.2)

/-- Writes a key and its colon, and says where the value then stands. A key that does not fit before its
colon goes behind a question mark. -/
def putKey (indent : Nat) (key : String) (out : Output) : Place × Output :=
  if isSimpleKey key then (.value, ':' :: putText true (indent + 2) key.toList out)
  else (.inline, ':' :: newLine indent (putText false (indent + 2) key.toList ('?' :: out)))

end

end Printer

def print (document : Json) : String :=
  let out := Printer.putNode .root 0 document []
  String.ofList (Printer.newLine 0 out).reverse

end SpecServer.Yaml
