import SpecServer.Decimal.Binary64
import SpecServer.Decimal.Natural
import SpecServer.Text.Split
set_option autoImplicit false

/-!
What a plain scalar means: nothing, a truth value, a number or just its text.
-/

namespace SpecServer.Yaml

/-- The meaning of a plain scalar. An integer may be too large for 64 bits; a floating-point number is
missing where it is infinite or not a number. -/
inductive Meaning where
  | nothing
  | truth (b : Bool)
  | integer (n : Int)
  | float (x : Option Decimal.Binary64)
  | text
deriving DecidableEq, Repr

namespace Meaning

def isNothing (text : String) : Bool :=
  ["null", "Null", "NULL", "~"].contains text

def truth? (text : String) : Option Bool :=
  if ["true", "True", "TRUE"].contains text then some true
  else if ["false", "False", "FALSE"].contains text then some false
  else none

/-- Whether the text has the digits of a number with a leading zero, which is no number. -/
def hasLeadingZero (text : List Char) : Bool :=
  let unsigned :=
    match text with
    | '-' :: rest => rest
    | '+' :: rest => rest
    | _ => text
  match unsigned with
  | '0' :: d :: rest => (d :: rest).all fun c => '0' ≤ c && c ≤ '9'
  | _ => false

/-- The text without a sign, unless a second sign follows. -/
def unsigned? (text : List Char) : Option (List Char) :=
  match text with
  | '+' :: '+' :: _ => none
  | '+' :: '-' :: _ => none
  | '+' :: rest => some rest
  | _ => some text

def isSigned (text : List Char) : Bool :=
  match text with
  | '+' :: _ => true
  | '-' :: _ => true
  | _ => false

def bases : List (List Char × Nat) :=
  [(['0', 'x'], 16), (['0', 'o'], 8), (['0', 'b'], 2)]

def based? (bound : Nat) (text : List Char) : Option Nat :=
  bases.findSome? fun (mark, base) =>
    match Text.after? mark text with
    | some digits => if isSigned digits then none else Decimal.natural? base bound digits
    | none => none

def isSignedBased (text : List Char) : Bool :=
  bases.any fun (mark, _) =>
    match Text.after? mark text with
    | some digits => isSigned digits
    | none => false

/-- A natural number below the bound, in any base and with a plus sign or without. -/
def natural? (bound : Nat) (text : List Char) : Option Nat :=
  let unsigned :=
    match text with
    | '+' :: rest => rest
    | _ => text
  if isSignedBased unsigned then none
  else
    match based? bound unsigned with
    | some n => some n
    | none =>
      if isSigned unsigned || hasLeadingZero text then none else Decimal.natural? 10 bound unsigned

def negative? (bound : Nat) (text : List Char) : Option Int :=
  let inBase :=
    match text with
    | '-' :: rest =>
      bases.findSome? fun (mark, base) =>
        match Text.after? mark rest with
        | some digits => Decimal.integer? base bound ('-' :: digits)
        | none => none
    | _ => none
  match inBase with
  | some n => some n
  | none => if hasLeadingZero text then none else Decimal.integer? 10 bound text

def integer? (text : List Char) : Option Int :=
  match natural? (Nat.pow 2 64) text with
  | some n => some n
  | none =>
    match negative? (Nat.pow 2 63) text with
    | some n => some n
    | none =>
      match natural? (Nat.pow 2 128) text with
      | some n => some n
      | none => negative? (Nat.pow 2 127) text

def digitRun (text : List Char) : List Char × List Char :=
  let isDigit := fun c : Char => '0' ≤ c && c ≤ '9'
  (text.takeWhile isDigit, text.dropWhile isDigit)

/-- The exponent behind a number: nothing, or an `e` with an optional sign and digits. -/
def exponent? (text : List Char) : Option Int :=
  match text with
  | [] => some 0
  | c :: rest =>
    if c = 'e' ∨ c = 'E' then
      match rest with
      | '-' :: digits => (Decimal.digits? 10 digits).map fun n => -(n : Int)
      | '+' :: digits => (Decimal.digits? 10 digits).map fun n => (n : Int)
      | digits => (Decimal.digits? 10 digits).map fun n => (n : Int)
    else none

/-- A finite number in decimal notation; digits may be missing on one side of the point. -/
def decimal? (text : List Char) : Option Decimal.Binary64 :=
  let (negative, unsigned) :=
    match text with
    | '-' :: rest => (true, rest)
    | '+' :: rest => (false, rest)
    | _ => (false, text)
  let (whole, afterWhole) := digitRun unsigned
  let (fraction, rest) :=
    match afterWhole with
    | '.' :: more => digitRun more
    | _ => ([], afterWhole)
  match Decimal.digits? 10 (whole ++ fraction), exponent? rest with
  | some digits, some exponent => Decimal.Binary64.ofDecimal? negative digits (exponent - fraction.length)
  | _, _ => none

/-- The floating-point number that the text says; `none` inside stands for infinities and not-a-number. -/
def float? (text : List Char) : Option (Option Decimal.Binary64) :=
  match unsigned? text with
  | none => none
  | some unsigned =>
    if [".inf", ".Inf", ".INF"].contains (String.ofList unsigned) then some none
    else if ["-.inf", "-.Inf", "-.INF", ".nan", ".NaN", ".NAN"].contains (String.ofList text) then some none
    else (decimal? unsigned).map some

def ofText (text : List Char) : Meaning :=
  let word := String.ofList text
  if text.isEmpty || isNothing word then .nothing
  else
    match truth? word with
    | some b => .truth b
    | none =>
      match integer? text with
      | some n => .integer n
      | none =>
        if hasLeadingZero text then .text
        else
          match float? text with
          | some x => .float x
          | none => .text

end Meaning

end SpecServer.Yaml
