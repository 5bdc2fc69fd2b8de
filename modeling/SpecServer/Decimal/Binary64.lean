set_option autoImplicit false

/-!
Finite binary floating-point numbers with 53 significant bits, in exact integer arithmetic: rounding a
quotient to the nearest one with ties to even, and multiplication and division on top of it.
-/

namespace SpecServer.Decimal

/-- A finite number `± mantissa · 2 ^ exponent`. Values are kept in the normal form that `Binary64.round?`
gives: the mantissa has 53 bits, or the exponent is the least one. -/
structure Binary64 where
  negative : Bool
  mantissa : Nat
  exponent : Int
deriving DecidableEq, Repr, Inhabited

namespace Binary64

def leastExponent : Int := -1074

def greatestExponent : Int := 971

def zero (negative : Bool) : Binary64 := ⟨negative, 0, leastExponent⟩

/-- The quotient rounded to the nearest natural number, a half to the even one. -/
def roundDiv (numerator denominator : Nat) : Nat :=
  let quotient := numerator / denominator
  let twice := 2 * (numerator % denominator)
  if twice < denominator then quotient
  else if twice > denominator then quotient + 1
  else quotient + quotient % 2

/-- `numerator / (denominator · 2 ^ exponent)` rounded to a natural number. -/
def scaled (numerator denominator : Nat) (exponent : Int) : Nat :=
  if 0 ≤ exponent then roundDiv numerator (denominator * Nat.pow 2 exponent.toNat)
  else roundDiv (numerator * Nat.pow 2 (-exponent).toNat) denominator

/-- The exponent at which the quotient has 53 bits before rounding, or the least exponent. -/
def exponentFor (numerator denominator : Nat) : Int :=
  let guess : Int := (numerator.log2 : Int) - (denominator.log2 : Int) - 52
  -- the quotient lies between 2 ^ (guess + 51) and 2 ^ (guess + 53)
  let floor :=
    if 0 ≤ guess then numerator / (denominator * Nat.pow 2 guess.toNat)
    else numerator * Nat.pow 2 (-guess).toNat / denominator
  let exact := if floor < Nat.pow 2 52 then guess - 1 else guess
  max exact leastExponent

/-- The number nearest to a quotient, or nothing if it is too large. The denominator is not zero. -/
def round? (negative : Bool) (numerator denominator : Nat) : Option Binary64 :=
  if numerator = 0 then some (zero negative)
  else
    let exponent := exponentFor numerator denominator
    let mantissa := scaled numerator denominator exponent
    let number : Binary64 :=
      if mantissa = Nat.pow 2 53 then ⟨negative, Nat.pow 2 52, exponent + 1⟩ else ⟨negative, mantissa, exponent⟩
    if number.exponent ≤ greatestExponent then some number else none

/-- The number nearest to `digits · 10 ^ power`, or nothing if it is too large. -/
def ofDecimal? (negative : Bool) (digits : Nat) (power : Int) : Option Binary64 :=
  if digits = 0 then some (zero negative)
  else if 400 < power then none
  else if power < -400 - (digits.log2 : Int) then some (zero negative)
  else if 0 ≤ power then round? negative (digits * Nat.pow 10 power.toNat) 1
  else round? negative digits (Nat.pow 10 (-power).toNat)

def fraction (number : Binary64) : Nat × Nat :=
  if 0 ≤ number.exponent then (number.mantissa * Nat.pow 2 number.exponent.toNat, 1)
  else (number.mantissa, Nat.pow 2 (-number.exponent).toNat)

/-- The rounded product of two numbers, or nothing if it is too large. -/
def mul? (left right : Binary64) : Option Binary64 :=
  let (leftOver, leftUnder) := left.fraction
  let (rightOver, rightUnder) := right.fraction
  round? (left.negative != right.negative) (leftOver * rightOver) (leftUnder * rightUnder)

/-- The rounded quotient of two numbers, or nothing if it is too large or the divisor is zero. -/
def div? (left right : Binary64) : Option Binary64 :=
  let (leftOver, leftUnder) := left.fraction
  let (rightOver, rightUnder) := right.fraction
  if rightOver = 0 then none
  else round? (left.negative != right.negative) (leftOver * rightUnder) (leftUnder * rightOver)

end Binary64

end SpecServer.Decimal
