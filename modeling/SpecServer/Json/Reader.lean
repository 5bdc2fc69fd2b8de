import SpecServer.Decimal.Natural
import SpecServer.Json.Basic
import SpecServer.Text.Position
set_option autoImplicit false

/-!
Reading JSON text. The reader goes from left to right, allows 127 containers around a value, and reports a
fault with the place at which it noticed it. A field that occurs twice keeps its last value.
-/

namespace SpecServer.Json

inductive Cause where
  | listOpen
  | objectOpen
  | stringOpen
  | valueMissing
  | expectedColon
  | expectedListEnd
  | expectedObjectEnd
  | expectedWord
  | expectedValue
  | invalidEscape
  | invalidNumber
  | numberTooLarge
  | controlCharacter
  | keyNotString
  | loneSurrogate
  | trailingComma
  | trailingText
  | pairBroken
  | tooDeep
deriving DecidableEq, Repr

def Cause.message : Cause → String
  | listOpen => "EOF while parsing a list"
  | objectOpen => "EOF while parsing an object"
  | stringOpen => "EOF while parsing a string"
  | valueMissing => "EOF while parsing a value"
  | expectedColon => "expected \x60:\x60"
  | expectedListEnd => "expected \x60,\x60 or \x60]\x60"
  | expectedObjectEnd => "expected \x60,\x60 or \x60\x7d\x60"
  | expectedWord => "expected ident"
  | expectedValue => "expected value"
  | invalidEscape => "invalid escape"
  | invalidNumber => "invalid number"
  | numberTooLarge => "number out of range"
  | controlCharacter => "control character (\\u0000-\\u001F) found while parsing a string"
  | keyNotString => "key must be a string"
  | loneSurrogate => "lone leading surrogate in hex escape"
  | trailingComma => "trailing comma"
  | trailingText => "trailing characters"
  | pairBroken => "unexpected end of hex escape"
  | tooDeep => "recursion limit exceeded"

/-- A cause and the number of bytes that were left after the place of the fault. -/
structure Fault where
  cause : Cause
  left : Nat
deriving DecidableEq, Repr

def Fault.before (cause : Cause) (rest : List Char) : Fault :=
  ⟨cause, Text.byteLength rest⟩

def Fault.at (cause : Cause) (rest : List Char) : Fault :=
  ⟨cause, Text.byteLength rest - 1⟩

abbrev Reading (α : Type) := Except Fault (α × List Char)

def isSpace (c : Char) : Bool :=
  c == ' ' || c == '\n' || c == '\t' || c == '\r'

def skipSpaces (text : List Char) : List Char :=
  text.dropWhile isSpace

def word (rest : List Char) (text : List Char) : Except Fault (List Char) :=
  match rest, text with
  | [], text => .ok text
  | _ :: _, [] => .error (.before .valueMissing [])
  | expected :: rest, c :: text => if c = expected then word rest text else .error (.at .expectedWord (c :: text))

/-! ## Numbers -/

/-- The power of ten as a number; the exponent is at most 308. -/
def powerOfTen (exponent : Nat) : Decimal.Binary64 :=
  (Decimal.Binary64.ofDecimal? false 1 exponent).getD (.zero false)

/-- Divides by `10 ^ exponent` in steps that a power of ten can express. -/
def scaleDown : Nat → Nat → Decimal.Binary64 → Decimal.Binary64
  | 0, _, x => x
  | fuel + 1, exponent, x =>
    if exponent ≤ 308 then (x.div? (powerOfTen exponent)).getD x
    else if x.mantissa = 0 then x
    else scaleDown fuel (exponent - 308) ((x.div? (powerOfTen 308)).getD x)

/-- The number `significand · 10 ^ exponent`, rounded once for the significand and once for each division
or multiplication by a power of ten; nothing if it is too large. -/
def float? (negative : Bool) (significand : Nat) (exponent : Int) : Option Decimal.Binary64 :=
  let start := (Decimal.Binary64.ofDecimal? false significand 0).getD (.zero false)
  let scaled :=
    if 0 ≤ exponent then
      if exponent ≤ 308 then start.mul? (powerOfTen exponent.toNat)
      else if significand = 0 then some start
      else none
    -- four steps bring every number to zero
    else some (scaleDown 4 (-exponent).toNat start)
  scaled.map fun x => { x with negative := negative }

def floatOr (negative : Bool) (significand : Nat) (exponent : Int) (rest : List Char) : Reading Number :=
  match float? negative significand exponent with
  | some x => .ok (.float x, rest)
  | none => .error (.before .numberTooLarge rest)

def isDigit (c : Char) : Bool :=
  '0' ≤ c && c ≤ '9'

def digitValue (c : Char) : Nat :=
  c.toNat - 48

def significandBound : Nat := Nat.pow 2 64

def exponentBound : Nat := Nat.pow 2 31

/-- Reads digits onto a number for as long as the result stays below the bound. Gives the number, how many
digits it took, and the rest. -/
def boundedDigits (bound : Nat) : Nat → Nat → List Char → Nat × Nat × List Char
  | value, count, [] => (value, count, [])
  | value, count, c :: text =>
    if isDigit c ∧ value * 10 + digitValue c < bound then
      boundedDigits bound (value * 10 + digitValue c) (count + 1) text
    else (value, count, c :: text)

def exponentPart (negative : Bool) (significand : Nat) (exponent : Int) (text : List Char) : Reading Number :=
  let (down, digits) :=
    match text with
    | '+' :: rest => (false, rest)
    | '-' :: rest => (true, rest)
    | _ => (false, text)
  match digits with
  | [] => .error (.before .valueMissing [])
  | c :: after =>
    if !isDigit c then .error (.at .invalidNumber (c :: after))
    else
      let (written, _, rest) := boundedDigits exponentBound (digitValue c) 1 after
      match rest with
      | d :: beyond =>
        if isDigit d then
          if significand ≠ 0 ∧ !down then .error (.before .numberTooLarge beyond)
          else .ok (.float (.zero negative), beyond.dropWhile isDigit)
        else floatOr negative significand (if down then exponent - written else exponent + written) rest
      | [] => floatOr negative significand (if down then exponent - written else exponent + written) rest

def exponentOrEnd (negative : Bool) (significand : Nat) (exponent : Int) (text : List Char) : Reading Number :=
  match text with
  | 'e' :: rest | 'E' :: rest => exponentPart negative significand exponent rest
  | _ => floatOr negative significand exponent text

/-- Reads what follows the point of a number. Digits beyond the bound of the significand are dropped. -/
def fractionPart (negative : Bool) (significand : Nat) (exponent : Int) (text : List Char) : Reading Number :=
  let (value, count, rest) := boundedDigits significandBound significand 0 text
  match rest with
  | c :: _ =>
    if isDigit c then exponentOrEnd negative value (exponent - count) (rest.dropWhile isDigit)
    else if count = 0 then .error (.at .invalidNumber rest)
    else exponentOrEnd negative value (exponent - count) rest
  | [] => if count = 0 then .error (.before .valueMissing []) else exponentOrEnd negative value (exponent - count) rest

/-- An integer with its sign. Minus zero and numbers below `-2 ^ 63` are no integers of 64 bits. -/
def signedNumber (negative : Bool) (n : Nat) : Number :=
  if !negative then .integer n
  else if 0 < n ∧ n ≤ Nat.pow 2 63 then .integer (-(n : Int))
  else .float ((float? true n 0).getD (.zero true))

def afterInteger (negative : Bool) (n : Nat) (text : List Char) : Reading Number :=
  match text with
  | '.' :: rest => fractionPart negative n 0 rest
  | 'e' :: rest | 'E' :: rest => exponentPart negative n 0 rest
  | _ => .ok (signedNumber negative n, text)

def readNumber (negative : Bool) (text : List Char) : Reading Number :=
  match text with
  | [] => .error (.before .valueMissing [])
  | '0' :: rest =>
    match rest with
    | d :: _ => if isDigit d then .error (.at .invalidNumber rest) else afterInteger negative 0 rest
    | [] => afterInteger negative 0 rest
  | c :: rest =>
    if !isDigit c then .error (.at .invalidNumber (c :: rest))
    else
      let (value, _, after) := boundedDigits significandBound (digitValue c) 1 rest
      match after with
      | d :: _ =>
        if isDigit d then
          let skipped := after.takeWhile isDigit
          match after.dropWhile isDigit with
          | '.' :: beyond => fractionPart negative value skipped.length beyond
          | beyond => exponentOrEnd negative value skipped.length beyond
        else afterInteger negative value after
      | [] => afterInteger negative value after

/-! ## Strings -/

def hexEscape (text : List Char) : Reading Nat :=
  if Text.byteLength text < 4 then .error ⟨.stringOpen, 0⟩
  else
    match (Decimal.digits? 16 (text.take 4)) with
    | some unit => .ok (unit, text.drop 4)
    | none => .error ⟨.invalidEscape, Text.byteLength text - 4⟩

def lowSurrogate (high : Nat) (text : List Char) : Reading Char :=
  match text with
  | [] => .error (.before .stringOpen [])
  | '\\' :: [] => .error (.before .stringOpen [])
  | '\\' :: 'u' :: rest =>
    match hexEscape rest with
    | .error fault => .error fault
    | .ok (low, after) =>
      if low < 0xDC00 ∨ 0xDFFF < low then .error (.before .loneSurrogate after)
      else .ok (Char.ofNat (0x10000 + (high - 0xD800) * 0x400 + (low - 0xDC00)), after)
  | '\\' :: c :: rest => .error (.at .pairBroken (c :: rest))
  | c :: rest => .error (.at .pairBroken (c :: rest))

def escape (text : List Char) : Reading Char :=
  match text with
  | [] => .error (.before .stringOpen [])
  | c :: rest =>
    match c with
    | '\x22' => .ok ('\x22', rest)
    | '\\' => .ok ('\\', rest)
    | '/' => .ok ('/', rest)
    | 'b' => .ok ('\x08', rest)
    | 'f' => .ok ('\x0c', rest)
    | 'n' => .ok ('\n', rest)
    | 'r' => .ok ('\r', rest)
    | 't' => .ok ('\t', rest)
    | 'u' =>
      match hexEscape rest with
      | .error fault => .error fault
      | .ok (unit, after) =>
        if 0xDC00 ≤ unit ∧ unit ≤ 0xDFFF then .error (.before .loneSurrogate after)
        else if unit < 0xD800 ∨ 0xDBFF < unit then .ok (Char.ofNat unit, after)
        else lowSurrogate unit after
    | _ => .error (.at .invalidEscape (c :: rest))

/-- Reads a string after its opening quote; `read` holds the characters so far, the last one first. `fuel`
is at least the length of the text. -/
def stringFrom : Nat → List Char → List Char → Reading String
  | 0, _, _ => .error (.before .stringOpen [])
  | fuel + 1, read, text =>
    match text with
    | [] => .error (.before .stringOpen [])
    | '\x22' :: rest => .ok (String.ofList read.reverse, rest)
    | '\\' :: rest =>
      match escape rest with
      | .error fault => .error fault
      | .ok (c, after) => stringFrom fuel (c :: read) after
    | c :: rest =>
      if c.toNat < 0x20 then .error (.before .controlCharacter rest) else stringFrom fuel (c :: read) rest

/-! ## Containers -/

def itemsFrom (item : List Char → Reading Json) : Nat → List Json → List Char → Reading Json
  | 0, _, _ => .error (.before .listOpen [])
  | fuel + 1, read, text =>
    match skipSpaces text with
    | [] => .error (.before .listOpen [])
    | ']' :: rest => .ok (.array read.reverse, rest)
    | ',' :: rest =>
      match skipSpaces rest with
      | [] => .error (.before .valueMissing [])
      | ']' :: after => .error (.at .trailingComma (']' :: after))
      | start =>
        match item start with
        | .error fault => .error fault
        | .ok (value, after) => itemsFrom item fuel (value :: read) after
    | found => .error (.at .expectedListEnd found)

def items (item : List Char → Reading Json) (fuel : Nat) (text : List Char) : Reading Json :=
  match skipSpaces text with
  | [] => .error (.before .listOpen [])
  | ']' :: rest => .ok (.array [], rest)
  | start =>
    match item start with
    | .error fault => .error fault
    | .ok (value, after) => itemsFrom item fuel [value] after

def field (item : List Char → Reading Json) (fuel : Nat) (text : List Char) : Reading (String × Json) :=
  match stringFrom fuel [] text with
  | .error fault => .error fault
  | .ok (key, after) =>
    match skipSpaces after with
    | [] => .error (.before .objectOpen [])
    | ':' :: rest =>
      match item rest with
      | .error fault => .error fault
      | .ok (value, beyond) => .ok ((key, value), beyond)
    | found => .error (.at .expectedColon found)

/-- Reads the fields that follow the first one and the end of an object. -/
def fieldsFrom (item : List Char → Reading Json) (limit : Nat) :
    Nat → Entries String Json → List Char → Reading Json
  | 0, _, _ => .error (.before .objectOpen [])
  | fuel + 1, read, text =>
    match skipSpaces text with
    | [] => .error (.before .objectOpen [])
    | '\x7d' :: rest => .ok (.object read, rest)
    | ',' :: rest =>
      match skipSpaces rest with
      | [] => .error (.before .valueMissing [])
      | '\x7d' :: after => .error (.at .trailingComma ('\x7d' :: after))
      | '\x22' :: start =>
        match field item limit start with
        | .error fault => .error fault
        | .ok ((key, value), after) => fieldsFrom item limit fuel (read.put key value) after
      | found => .error (.at .keyNotString found)
    | found => .error (.at .expectedObjectEnd found)

def fields (item : List Char → Reading Json) (fuel : Nat) (text : List Char) : Reading Json :=
  match skipSpaces text with
  | [] => .error (.before .objectOpen [])
  | '\x7d' :: rest => .ok (.object [], rest)
  | '\x22' :: start =>
    match field item fuel start with
    | .error fault => .error fault
    | .ok ((key, value), after) => fieldsFrom item fuel fuel (Entries.put [] key value) after
  | found => .error (.at .keyNotString found)

def constant (value : Json) (rest text : List Char) : Reading Json :=
  (word rest text).map fun after => (value, after)

/-- Reads a value with so many containers still allowed around and below it. `fuel` bounds the loops over
items and characters. -/
def value (fuel : Nat) : Nat → List Char → Reading Json
  | depth, text =>
    match skipSpaces text with
    | [] => .error (.before .valueMissing [])
    | 'n' :: rest => constant .null ['u', 'l', 'l'] rest
    | 't' :: rest => constant (.bool true) ['r', 'u', 'e'] rest
    | 'f' :: rest => constant (.bool false) ['a', 'l', 's', 'e'] rest
    | '\x22' :: rest => (stringFrom fuel [] rest).map fun (s, after) => (.string s, after)
    | '[' :: rest =>
      match depth with
      | 0 => .error (.at .tooDeep ('[' :: rest))
      | depth + 1 => items (value fuel depth) fuel rest
    | '\x7b' :: rest =>
      match depth with
      | 0 => .error (.at .tooDeep ('\x7b' :: rest))
      | depth + 1 => fields (value fuel depth) fuel rest
    | '-' :: rest => (readNumber true rest).map fun (n, after) => (.number n, after)
    | found@(c :: _) =>
      if isDigit c then (readNumber false found).map fun (n, after) => (.number n, after)
      else .error (.at .expectedValue found)

def depthLimit : Nat := 127

def document (text : List Char) : Except Fault Json :=
  match value (text.length + 1) depthLimit text with
  | .error fault => .error fault
  | .ok (read, rest) =>
    match skipSpaces rest with
    | [] => .ok read
    | found => .error (.at .trailingText found)

/-- An error with its place: the line counts from one, the column is the number of bytes of the line that
were passed. -/
structure ReadError where
  cause : Cause
  line : Nat
  column : Nat
deriving DecidableEq, Repr

def ReadError.message (error : ReadError) : String :=
  error.cause.message ++ " at line " ++ toString error.line ++ " column " ++ toString error.column

def placeOf (text : List Char) (bytes : Nat) : Nat × Nat :=
  let passed := Text.takeBytes bytes text
  let line := passed.reverse.takeWhile (· ≠ '\n')
  (1 + passed.count '\n', bytes - Text.byteLength (passed.take (passed.length - line.length)))

def read (text : String) : Except ReadError Json :=
  match document text.toList with
  | .ok found => .ok found
  | .error fault =>
    let bytes := Text.byteLength text.toList - fault.left
    let (line, column) := placeOf text.toList bytes
    .error ⟨fault.cause, line, column⟩

end SpecServer.Json
