import SpecServer.Decimal.Shortest
import SpecServer.Json.Basic
set_option autoImplicit false

/-!
Writing JSON text, on one line or with one entry a line and two spaces for each level.
-/

namespace SpecServer.Json

/-- Floating-point numbers in JSON text: plain from a hundred thousandth up to below ten to the sixteenth,
otherwise with a signed exponent. -/
def floatLayout : Decimal.FloatLayout := ⟨-5, 15, true⟩

def integerText (n : Int) : List Char :=
  if n < 0 then '-' :: Nat.toDigits 10 n.natAbs else Nat.toDigits 10 n.natAbs

def numberText : Number → List Char
  | .integer n => integerText n
  | .float x => floatLayout.write x

def stringChar (c : Char) : List Char :=
  match c with
  | '\x22' => ['\\', '\x22']
  | '\\' => ['\\', '\\']
  | '\x08' => ['\\', 'b']
  | '\x0c' => ['\\', 'f']
  | '\n' => ['\\', 'n']
  | '\r' => ['\\', 'r']
  | '\t' => ['\\', 't']
  | _ =>
    if c.toNat < 0x20 then
      ['\\', 'u', '0', '0', Nat.digitChar (c.toNat / 16), Nat.digitChar (c.toNat % 16)]
    else [c]

def stringText (s : String) : List Char :=
  '\x22' :: s.toList.flatMap stringChar ++ ['\x22']

mutual

def compact : Json → List Char
  | null => "null".toList
  | bool true => "true".toList
  | bool false => "false".toList
  | number n => numberText n
  | string s => stringText s
  | array [] => ['[', ']']
  | array (item :: rest) => '[' :: compact item ++ compactItems rest ++ [']']
  | object [] => ['\x7b', '\x7d']
  | object ((key, value) :: rest) =>
    '\x7b' :: stringText key ++ ':' :: compact value ++ compactFields rest ++ ['\x7d']

def compactItems : List Json → List Char
  | [] => []
  | item :: rest => ',' :: compact item ++ compactItems rest

def compactFields : List (String × Json) → List Char
  | [] => []
  | (key, value) :: rest => ',' :: stringText key ++ ':' :: compact value ++ compactFields rest

end

def newLine (level : Nat) : List Char :=
  '\n' :: List.replicate (2 * level) ' '

mutual

def pretty (level : Nat) : Json → List Char
  | null => "null".toList
  | bool true => "true".toList
  | bool false => "false".toList
  | number n => numberText n
  | string s => stringText s
  | array [] => ['[', ']']
  | array (item :: rest) =>
    '[' :: newLine (level + 1) ++ pretty (level + 1) item ++ prettyItems (level + 1) rest ++ newLine level ++ [']']
  | object [] => ['\x7b', '\x7d']
  | object ((key, value) :: rest) =>
    '\x7b' :: newLine (level + 1) ++ stringText key ++ ':' :: ' ' :: pretty (level + 1) value ++
      prettyFields (level + 1) rest ++ newLine level ++ ['\x7d']

def prettyItems (level : Nat) : List Json → List Char
  | [] => []
  | item :: rest => ',' :: newLine level ++ pretty level item ++ prettyItems level rest

def prettyFields (level : Nat) : List (String × Json) → List Char
  | [] => []
  | (key, value) :: rest =>
    ',' :: newLine level ++ stringText key ++ ':' :: ' ' :: pretty level value ++ prettyFields level rest

end

def render (document : Json) : String :=
  String.ofList (compact document)

def renderPretty (document : Json) : String :=
  String.ofList (pretty 0 document)

end SpecServer.Json
