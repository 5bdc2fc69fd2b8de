import SpecServer.Decimal.Natural
import SpecServer.Text.Utf8
set_option autoImplicit false

/-!
Percent encoding: bytes written as a percent sign and two hexadecimal digits. Which characters are written
so depends on the part of the URI; characters outside ASCII always are.
-/

namespace SpecServer.Uri

abbrev EncodeSet := Char → Bool

namespace EncodeSet

def plus (set : EncodeSet) (more : List Char) : EncodeSet :=
  fun c => set c || more.contains c

/-- Control characters: all that opaque paths and hosts encode. -/
def controls : EncodeSet := fun c => c.toNat < 0x20 || c.toNat == 0x7F

def fragment : EncodeSet := controls.plus [' ', '\x22', '<', '>', '\x60']

def path : EncodeSet := fragment.plus ['#', '?', '\x7b', '\x7d']

def userinfo : EncodeSet := path.plus ['/', ':', ';', '=', '@', '[', '\\', ']', '^', '|']

def query : EncodeSet := controls.plus [' ', '\x22', '#', '<', '>']

def specialQuery : EncodeSet := query.plus ['\x27']

def fileName : EncodeSet := path.plus ['/', '%', '\\']

end EncodeSet

def hexDigit (n : Nat) : Char :=
  if n < 10 then Char.ofNat (48 + n) else Char.ofNat (55 + n)

def encodeByte (byte : UInt8) : List Char :=
  ['%', hexDigit (byte.toNat / 16), hexDigit (byte.toNat % 16)]

def encodeChar (set : EncodeSet) (c : Char) : List Char :=
  if set c || 0x80 ≤ c.toNat then (String.utf8EncodeChar c).flatMap encodeByte else [c]

def percentEncode (set : EncodeSet) (text : List Char) : List Char :=
  text.flatMap (encodeChar set)

/-- The bytes of a text with every encoded byte decoded. A percent sign without two digits stands for
itself. -/
def percentDecode : List Char → List UInt8
  | [] => []
  | '%' :: high :: low :: rest =>
    match Decimal.digit? 16 high, Decimal.digit? 16 low with
    | some h, some l => UInt8.ofNat (h * 16 + l) :: percentDecode rest
    | _, _ => UInt8.ofNat 37 :: percentDecode (high :: low :: rest)
  | c :: rest => String.utf8EncodeChar c ++ percentDecode rest

end SpecServer.Uri
