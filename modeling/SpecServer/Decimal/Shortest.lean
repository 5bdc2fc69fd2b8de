import SpecServer.Decimal.Binary64
set_option autoImplicit false

/-!
The shortest decimal digits that read back as a given binary number, and their layout as text. The digits
come from exact arithmetic: a grid of decimal numbers is tried for each digit count from one up, and the
first grid with a point that rounds to the number gives the digits, the nearest of its points first.
-/

namespace SpecServer.Decimal

/-- Decimal digits without a trailing zero (unless the value is zero) and the power of ten they count in. -/
structure Digits where
  value : Nat
  power : Int
deriving DecidableEq, Repr

namespace Binary64

/-- The position of the leading digit: the absolute value lies in `[10 ^ p, 10 ^ (p + 1))`. `fuel` bounds
the search downwards from a first estimate that is never too low. -/
def leadingPower (top bottom : Nat) : Nat → Int → Int
  | 0, guess => guess
  | fuel + 1, guess =>
    let reaches :=
      if 0 ≤ guess then bottom * Nat.pow 10 guess.toNat ≤ top else bottom ≤ top * Nat.pow 10 (-guess).toNat
    if reaches then guess else leadingPower top bottom fuel (guess - 1)

def readsBack (number : Binary64) (digits : Digits) : Bool :=
  ofDecimal? number.negative digits.value digits.power == some number

/-- The distance between a decimal number and a quotient, in units of `10 ^ power / (bottom · 10 ^ power')`
for fixed `bottom` and `power`. -/
def distance (top bottom : Nat) (power : Int) (value : Nat) : Nat :=
  let (left, right) :=
    if 0 ≤ power then (top, value * Nat.pow 10 power.toNat * bottom)
    else (top * Nat.pow 10 (-power).toNat, value * bottom)
  if left ≤ right then right - left else left - right

/-- The nearest point of the grid `10 ^ power` that reads back as the number; of two equally near ones the
even one. -/
def onGrid? (number : Binary64) (power : Int) : Option Digits :=
  let (top, bottom) := number.fraction
  let low := if 0 ≤ power then top / (bottom * Nat.pow 10 power.toNat) else top * Nat.pow 10 (-power).toNat / bottom
  let lowHit := readsBack number ⟨low, power⟩
  let highHit := readsBack number ⟨low + 1, power⟩
  let toLow := distance top bottom power low
  let toHigh := distance top bottom power (low + 1)
  let lowFirst := toLow < toHigh || (toLow == toHigh && low % 2 == 0)
  if lowHit && (lowFirst || !highHit) then some ⟨low, power⟩
  else if highHit then some ⟨low + 1, power⟩
  else none

def trimZeros : Nat → Digits → Digits
  | 0, digits => digits
  | fuel + 1, digits =>
    if digits.value ≠ 0 ∧ digits.value % 10 = 0 then trimZeros fuel ⟨digits.value / 10, digits.power + 1⟩ else digits

def searchGrids (number : Binary64) (leading : Int) : Nat → Nat → Digits
  | 0, _ => ⟨0, 0⟩
  | fuel + 1, count =>
    match onGrid? number (leading - count + 1) with
    | some digits => trimZeros 20 digits
    | none => searchGrids number leading fuel (count + 1)

/-- The shortest digits that read back; seventeen are always enough. -/
def shortest (number : Binary64) : Digits :=
  if number.mantissa = 0 then ⟨0, 0⟩
  else
    let (top, bottom) := number.fraction
    let guess : Int := ((top.log2 : Int) - (bottom.log2 : Int) + 1) * 30103 / 100000 + 1
    searchGrids number (leadingPower top bottom 8 guess) 17 1

end Binary64

/-- How a floating-point number is laid out: the least and greatest position of the leading digit that is
written without an exponent, and the sign of a positive exponent. -/
structure FloatLayout where
  leastPlain : Int
  greatestPlain : Int
  exponentPlus : Bool

def pointed (digits : List Char) (places : Nat) : List Char :=
  let padded := List.replicate (places + 1 - digits.length) '0' ++ digits
  padded.take (padded.length - places) ++ '.' :: padded.drop (padded.length - places)

/-- The text of a number in a layout. A number without an exponent always has a point. -/
def FloatLayout.write (layout : FloatLayout) (number : Binary64) : List Char :=
  let sign := if number.negative then ['-'] else []
  let shortest := number.shortest
  let digits := (Nat.toDigits 10 shortest.value)
  let leading : Int := shortest.power + digits.length - 1
  if number.mantissa = 0 then sign ++ ['0', '.', '0']
  else if layout.leastPlain ≤ leading ∧ leading ≤ layout.greatestPlain then
    if 0 ≤ shortest.power then sign ++ digits ++ List.replicate shortest.power.toNat '0' ++ ['.', '0']
    else sign ++ pointed digits (-shortest.power).toNat
  else
    let significand :=
      match digits with
      | [] => []
      | [d] => [d]
      | d :: rest => d :: '.' :: rest
    let exponent :=
      if leading < 0 then '-' :: (Nat.toDigits 10 leading.natAbs)
      else (if layout.exponentPlus then ['+'] else []) ++ (Nat.toDigits 10 leading.natAbs)
    sign ++ significand ++ 'e' :: exponent

end SpecServer.Decimal
