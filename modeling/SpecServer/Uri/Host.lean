import SpecServer.Uri.Domain
import SpecServer.Uri.Error
import SpecServer.Uri.Percent
set_option autoImplicit false

/-!
Hosts: domain names, addresses of four bytes in any notation, and addresses of eight groups in brackets. A
host is kept as the text that all its notations share.
-/

namespace SpecServer.Uri

/-! ## Addresses of four bytes -/

/-- What a part of an address says: nothing known, a number, or a number of more than 32 bits. -/
inductive AddressPart where
  | invalid
  | number (n : Nat)
  | tooLarge
deriving DecidableEq, Repr

/-- Reads a part in base ten, or in base eight behind a zero, or in base sixteen behind `0x`. -/
def addressPart (part : List Char) : AddressPart :=
  let (base, digits) :=
    match part with
    | '0' :: 'x' :: rest => (16, rest)
    | '0' :: 'X' :: rest => (16, rest)
    | '0' :: d :: rest => (8, d :: rest)
    | _ => (10, part)
  if part.isEmpty then .invalid
  else if digits.isEmpty then .number 0
  else
    match Decimal.digits? base digits with
    | none => .invalid
    | some n => if n < Nat.pow 2 32 then .number n else .tooLarge

def addressParts (name : List Char) : List (List Char) :=
  let parts := Text.splitAt '.' name
  if parts.getLast? = some [] then parts.dropLast else parts

/-- Whether the last part of a name is a number, so that the name must be an address. -/
def endsInNumber (name : List Char) : Bool :=
  match (addressParts name).getLast? with
  | none => false
  | some last => (!last.isEmpty && last.all fun c => '0' ≤ c && c ≤ '9') || addressPart last != .invalid

def AddressPart.number? : AddressPart → Option Nat
  | .number n => some n
  | _ => none

/-- The value of an address: all parts but the last one are bytes, and the last one fills what is left. -/
def addressValue? (numbers : List Nat) : Option Nat :=
  match numbers.getLast? with
  | none => none
  | some last =>
    let leading := numbers.dropLast
    if 4 < numbers.length ∨ Nat.pow 256 (4 - leading.length) ≤ last ∨ leading.any (255 < ·) then none
    else some (leading.zipIdx.foldl (fun sum (n, i) => sum + n * Nat.pow 256 (3 - i)) last)

def addressText (value : Nat) : List Char :=
  let bytes := [value / Nat.pow 2 24 % 256, value / Nat.pow 2 16 % 256, value / Nat.pow 2 8 % 256, value % 256]
  Text.joinWith ['.'] (bytes.map (Nat.toDigits 10))

def ipv4? (name : List Char) : Option (List Char) :=
  match ((addressParts name).map fun part => (addressPart part).number?).mapM id with
  | none => none
  | some numbers => (addressValue? numbers).map addressText

/-! ## Addresses of eight groups -/

/-- A group of an address: one to four hexadecimal digits. -/
def group? (text : List Char) : Option Nat :=
  if 4 < text.length then none else Decimal.digits? 16 text

def byte? (text : List Char) : Option Nat :=
  match text with
  | '0' :: _ :: _ => none
  | _ => (Decimal.digits? 10 text).filter (· < 256)

def groupsOfBytes? (text : List Char) : Option (List Nat) :=
  match (Text.splitAt '.' text).mapM byte? with
  | some [a, b, c, d] => some [a * 256 + b, c * 256 + d]
  | _ => none

/-- The groups between colons. The last one may be written as four bytes if it ends the address. -/
def groups? (ends : Bool) : List (List Char) → Option (List Nat)
  | [] => some []
  | [last] =>
    if ends && last.contains '.' then groupsOfBytes? last else (group? last).map fun n => [n]
  | first :: rest =>
    match group? first, groups? ends rest with
    | some n, some more => some (n :: more)
    | _, _ => none

/-- The groups of one side of an address; an empty side has none. -/
def side? (ends : Bool) (text : List Char) : Option (List Nat) :=
  if text.isEmpty then some [] else groups? ends (Text.splitAt ':' text)

def splitDouble? : List Char → Option (List Char × List Char)
  | [] => none
  | ':' :: ':' :: rest => some ([], rest)
  | c :: rest => (splitDouble? rest).map fun (front, back) => (c :: front, back)

/-- The eight groups of an address; a double colon stands for groups of zero. -/
def ipv6Groups? (text : List Char) : Option (List Nat) :=
  match splitDouble? text with
  | none => (side? true text).filter (·.length == 8)
  | some (front, back) =>
    match side? false front, side? true back with
    | some before, some after =>
      if before.length + after.length ≤ 7 then
        some (before ++ List.replicate (8 - before.length - after.length) 0 ++ after)
      else none
    | _, _ => none

def zeros (groups : List Nat) : Nat :=
  (groups.takeWhile (· == 0)).length

/-- The first of the longest runs of zeros: where it starts and how long it is. -/
def longestZeros (groups : List Nat) : Nat × Nat :=
  (List.range groups.length).foldl
    (fun best i => if best.2 < zeros (groups.drop i) then (i, zeros (groups.drop i)) else best) (0, 0)

/-- The text of eight groups. The first of the longest runs of two or more zeros becomes a double colon. -/
def groupsText (groups : List Nat) : List Char :=
  let write := fun part : List Nat => Text.joinWith [':'] (part.map (Nat.toDigits 16))
  let (start, length) := longestZeros groups
  if length < 2 then write groups
  else write (groups.take start) ++ ':' :: ':' :: write (groups.drop (start + length))

/-! ## Hosts -/

def bracketed (inner : List Char) : Except UriError (List Char) :=
  match Text.before? [']'] inner with
  | none => .error .invalidIpv6
  | some text =>
    match ipv6Groups? text with
    | some groups => .ok ('[' :: groupsText groups ++ [']'])
    | none => .error .invalidIpv6

def specialHost (text : List Char) : Except UriError (List Char) :=
  match text with
  | '[' :: inner => bracketed inner
  | _ =>
    match Domain.toAscii? (percentDecode text) with
    | none => .error .invalidDomain
    | some name =>
      if name.isEmpty then .error .emptyHost
      else if endsInNumber name then
        match ipv4? name with
        | some address => .ok address
        | none => .error .invalidIpv4
      else .ok name

def isForbiddenHostChar (c : Char) : Bool :=
  ['\x00', '\t', '\n', '\r', ' ', '#', '/', ':', '<', '>', '?', '@', '[', '\\', ']', '^', '|'].contains c

/-- Reads the host of any other scheme. It may be empty. -/
def opaqueHost (text : List Char) : Except UriError (List Char) :=
  match text with
  | '[' :: inner => bracketed inner
  | _ =>
    if text.any isForbiddenHostChar then .error .invalidHostChar
    else .ok (percentEncode .controls text)

end SpecServer.Uri
