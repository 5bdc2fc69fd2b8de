import SpecServer.Text.Case
import SpecServer.Text.Quoted
import SpecServer.Text.Split
import SpecServer.Text.Utf8
set_option autoImplicit false

/-!
Domain names in ASCII form: letters in lower case, and labels with other characters in the bootstring
encoding that writes each of them as a distance from the one before.
-/

namespace SpecServer.Uri.Domain

/-! ## The bootstring encoding -/

def firstEncoded : Nat := 0x80

def firstBias : Nat := 72

/-- A digit of base 36: letters first. -/
def digitChar (d : Nat) : Char :=
  if d < 26 then Char.ofNat (97 + d) else Char.ofNat (22 + d)

def digitValue? (c : Char) : Option Nat :=
  if 'a' ≤ c ∧ c ≤ 'z' then some (c.toNat - 97)
  else if 'A' ≤ c ∧ c ≤ 'Z' then some (c.toNat - 65)
  else if '0' ≤ c ∧ c ≤ '9' then some (c.toNat - 22)
  else none

/-- The bound between the values a digit may have at a position, and those that mean another digit follows. -/
def threshold (position bias : Nat) : Nat :=
  if position ≤ bias then 1 else if bias + 26 ≤ position then 26 else position - bias

def adaptFrom : Nat → Nat → Nat → Nat
  | 0, delta, k => k + 36 * delta / (delta + 38)
  | fuel + 1, delta, k => if 455 < delta then adaptFrom fuel (delta / 35) (k + 36) else k + 36 * delta / (delta + 38)

def adapt (delta count : Nat) (first : Bool) : Nat :=
  let damped := if first then delta / 700 else delta / 2
  adaptFrom 16 (damped + damped / count) 0

def distanceDigits (bias : Nat) : Nat → Nat → Nat → List Char
  | 0, _, _ => []
  | fuel + 1, position, distance =>
    let t := threshold position bias
    if distance < t then [digitChar distance]
    else digitChar (t + (distance - t) % (36 - t)) :: distanceDigits bias fuel (position + 36) ((distance - t) / (36 - t))

/-- The state of writing a label: the next code point to place, the distance so far, the bias, how many
characters are placed, and the digits so far. -/
structure Writing where
  next : Nat
  delta : Nat
  bias : Nat
  placed : Nat
  digits : List Char

def writeOccurrences (basic : Nat) (state : Writing) : List Nat → Writing
  | [] => state
  | code :: rest =>
    if code < state.next then writeOccurrences basic { state with delta := state.delta + 1 } rest
    else if code = state.next then
      let digits := state.digits ++ distanceDigits state.bias 40 36 state.delta
      let bias := adapt state.delta (state.placed + 1) (state.placed == basic)
      writeOccurrences basic { state with delta := 0, bias := bias, placed := state.placed + 1, digits := digits } rest
    else writeOccurrences basic state rest

def writeFrom (codes : List Nat) (basic : Nat) : Nat → Writing → List Char
  | 0, state => state.digits
  | fuel + 1, state =>
    match (codes.filter (state.next ≤ ·)).min? with
    | none => state.digits
    | some least =>
      let delta := state.delta + (least - state.next) * (state.placed + 1)
      let written := writeOccurrences basic { state with next := least, delta := delta } codes
      writeFrom codes basic fuel { written with next := least + 1, delta := written.delta + 1 }

def encodeLabel (label : List Char) : List Char :=
  let basic := label.filter fun c => c.toNat < firstEncoded
  let lead := if basic.isEmpty then [] else basic ++ ['-']
  lead ++ writeFrom (label.map Char.toNat) basic.length (label.length + 1) ⟨firstEncoded, 0, firstBias, basic.length, []⟩

/-- Reads the digits of a distance: the distance and the rest. -/
def readDistance? (bias : Nat) : Nat → Nat → Nat → List Char → Option (Nat × List Char)
  | _, _, _, [] => none
  | position, weight, sum, c :: rest =>
    match digitValue? c with
    | none => none
    | some d =>
      let t := threshold position bias
      let total := sum + d * weight
      if d < t then some (total, rest) else readDistance? bias (position + 36) (weight * (36 - t)) total rest

def readFrom? : Nat → Nat → Nat → Nat → List Nat → List Char → Option (List Nat)
  | 0, _, _, _, codes, _ => some codes
  | _ + 1, _, _, _, codes, [] => some codes
  | fuel + 1, code, index, bias, codes, text =>
    match readDistance? bias 36 1 0 text with
    | none => none
    | some (distance, rest) =>
      let count := codes.length + 1
      let total := index + distance
      let next := code + total / count
      if 0x10FFFF < next ∨ (0xD800 ≤ next ∧ next ≤ 0xDFFF) then none
      else
        let place := total % count
        let longer := codes.take place ++ next :: codes.drop place
        readFrom? fuel next (place + 1) (adapt distance count (index == 0 && code == firstEncoded)) longer rest

def decodeLabel? (label : List Char) : Option (List Char) :=
  let (basic, digits) := (Text.splitLast '-' label).getD ([], label)
  (readFrom? (digits.length + 1) firstEncoded 0 firstBias (basic.map Char.toNat) digits).map fun codes =>
    codes.map Char.ofNat

/-! ## Domain names -/

def isForbidden (c : Char) : Bool :=
  c.toNat ≤ 0x20 || c.toNat == 0x7F ||
    ['%', '#', '/', ':', '<', '>', '?', '@', '[', '\\', ']', '^', '|'].contains c

def isDropped (c : Char) : Bool :=
  let n := c.toNat
  n == 0xAD || n == 0x200B || n == 0x2060 || n == 0xFEFF || (0xFE00 ≤ n && n ≤ 0xFE0F)

/-- What a character of a domain becomes: lower case, full stops and full-width letters in ASCII. -/
def mapped (c : Char) : List Char :=
  let n := c.toNat
  if isDropped c then []
  else if n = 0x3002 ∨ n = 0xFF0E ∨ n = 0xFF61 then ['.']
  else if 0xFF01 ≤ n ∧ n ≤ 0xFF5E then Text.lowerChar (Char.ofNat (n - 0xFEE0))
  else Text.lowerChar c

/-- Whether a character has no place in a domain: it shows nothing or is a replacement character. -/
def isInvisible (c : Char) : Bool :=
  0x80 ≤ c.toNat && (Text.unshown.has c || c.toNat == 0xFFFD)

def encodedMark : List Char := ['x', 'n', '-', '-']

/-- Whether an encoded label stands for characters that need the encoding. -/
def isGoodEncoding (encoded : List Char) : Bool :=
  match decodeLabel? encoded with
  | none => false
  | some label =>
    label.any (fun c => 0x80 ≤ c.toNat) && label.flatMap mapped == label && !label.any isInvisible

def labelToAscii? (label : List Char) : Option (List Char) :=
  if label.all fun c => c.toNat < 0x80 then
    match Text.after? encodedMark label with
    | some encoded => if isGoodEncoding encoded then some label else none
    | none => some label
  else if label.any isInvisible then none
  else some (encodedMark ++ encodeLabel label)

/-- A domain in ASCII, or nothing if it holds what no domain may hold. -/
def toAscii? (bytes : List UInt8) : Option (List Char) :=
  match Text.Utf8.decode? bytes with
  | none => none
  | some text =>
    let name := text.flatMap mapped
    if name.any isForbidden then none
    else ((Text.splitAt '.' name).mapM labelToAscii?).map (Text.joinWith ['.'])

end SpecServer.Uri.Domain
