set_option autoImplicit false

/-!
UTF-8: the bytes of a text, and the text of bytes. Reading bytes is strict (`decode?`) or puts a replacement
character for each longest piece that no character begins with (`decodeLossy`).
-/

namespace SpecServer.Text.Utf8

def encode (text : List Char) : List UInt8 :=
  text.flatMap String.utf8EncodeChar

def within (low high : Nat) (byte : UInt8) : Bool :=
  low ≤ byte.toNat && byte.toNat ≤ high

/-- What stands at the head of some bytes: a character and the number of bytes it takes, or a piece of that
many bytes that begins no character. -/
inductive Head where
  | character (c : Char) (size : Nat)
  | broken (size : Nat)

def payload (byte : UInt8) : Nat := byte.toNat % 64

/-- The range of the second byte that a first byte of three or four asks for. -/
def secondRange (lead : Nat) : Nat × Nat :=
  if lead = 0xE0 then (0xA0, 0xBF)
  else if lead = 0xED then (0x80, 0x9F)
  else if lead = 0xF0 then (0x90, 0xBF)
  else if lead = 0xF4 then (0x80, 0x8F)
  else (0x80, 0xBF)

/-- Reads the character at the head of `byte :: rest`. -/
def head (byte : UInt8) (rest : List UInt8) : Head :=
  let lead := byte.toNat
  let (low, high) := secondRange lead
  if lead < 0x80 then .character (Char.ofNat lead) 1
  else if within 0xC2 0xDF byte then
    match rest with
    | second :: _ =>
      if within 0x80 0xBF second then .character (Char.ofNat (lead % 32 * 64 + payload second)) 2 else .broken 1
    | [] => .broken 1
  else if within 0xE0 0xEF byte then
    match rest with
    | second :: third :: _ =>
      if !within low high second then .broken 1
      else if !within 0x80 0xBF third then .broken 2
      else .character (Char.ofNat ((lead % 16 * 64 + payload second) * 64 + payload third)) 3
    | [second] => if within low high second then .broken 2 else .broken 1
    | [] => .broken 1
  else if within 0xF0 0xF4 byte then
    match rest with
    | second :: third :: fourth :: _ =>
      if !within low high second then .broken 1
      else if !within 0x80 0xBF third then .broken 2
      else if !within 0x80 0xBF fourth then .broken 3
      else
        .character (Char.ofNat (((lead % 8 * 64 + payload second) * 64 + payload third) * 64 + payload fourth)) 4
    | [second, third] =>
      if !within low high second then .broken 1
      else if !within 0x80 0xBF third then .broken 2
      else .broken 3
    | [second] => if within low high second then .broken 2 else .broken 1
    | [] => .broken 1
  else .broken 1

def decode? : List UInt8 → Option (List Char)
  | [] => some []
  | byte :: rest =>
    match head byte rest with
    | .character c size => (decode? (rest.drop (size - 1))).map (c :: ·)
    | .broken _ => none
termination_by bytes => bytes.length
decreasing_by simp only [List.length_cons, List.length_drop]; omega

def decodeLossy : List UInt8 → List Char
  | [] => []
  | byte :: rest =>
    match head byte rest with
    | .character c size => c :: decodeLossy (rest.drop (size - 1))
    | .broken size => Char.ofNat 0xFFFD :: decodeLossy (rest.drop (size - 1))
termination_by bytes => bytes.length
decreasing_by all_goals simp only [List.length_cons, List.length_drop]; omega

end SpecServer.Text.Utf8
