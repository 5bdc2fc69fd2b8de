set_option autoImplicit false

/-!
Reading numbers written in digits. A sign is part of the reading only where a caller allows it; there is no
room for blanks, separators or empty digit runs.
-/

namespace SpecServer.Decimal

/-- The value of one digit in a base of at most sixteen; letters count in both cases. -/
def digit? (base : Nat) (c : Char) : Option Nat :=
  let value :=
    if '0' ≤ c ∧ c ≤ '9' then some (c.toNat - 48)
    else if 'a' ≤ c ∧ c ≤ 'f' then some (c.toNat - 87)
    else if 'A' ≤ c ∧ c ≤ 'F' then some (c.toNat - 55)
    else none
  value.filter (· < base)

def digitsFrom? (base : Nat) : Nat → List Char → Option Nat
  | value, [] => some value
  | value, c :: text =>
    match digit? base c with
    | some d => digitsFrom? base (value * base + d) text
    | none => none

def digits? (base : Nat) (text : List Char) : Option Nat :=
  if text.isEmpty then none else digitsFrom? base 0 text

def natural? (base bound : Nat) (text : List Char) : Option Nat :=
  let unsigned :=
    match text with
    | '+' :: rest => rest
    | _ => text
  (digits? base unsigned).filter (· < bound)

/-- A number at least `-bound` and below `bound`, with an optional sign. -/
def integer? (base bound : Nat) (text : List Char) : Option Int :=
  match text with
  | '-' :: rest => ((digits? base rest).filter (· ≤ bound)).map fun n => -(n : Int)
  | _ => (natural? base bound text).map fun n => (n : Int)

def bound64 : Nat := Nat.pow 2 64

/-- An index or count as it is written in texts: a plain decimal number of 64 bits. -/
def index? (text : List Char) : Option Nat :=
  natural? 10 bound64 text

end SpecServer.Decimal
