set_option autoImplicit false

/-!
Sets of characters given as ascending ranges of code points, and membership by bisection.
-/

namespace SpecServer.Text

/-- Inclusive ranges of code points, in ascending order and without overlap. -/
abbrev Ranges := Array (Nat × Nat)

/-- Bisection between the indices `low` and `high`; `fuel` bounds the number of halvings. -/
def Ranges.search (ranges : Ranges) (code : Nat) : Nat → Nat → Nat → Bool
  | 0, _, _ => false
  | fuel + 1, low, high =>
    if low < high then
      let middle := (low + high) / 2
      match ranges[middle]? with
      | none => false
      | some (first, last) =>
        if code < first then search ranges code fuel low middle
        else if last < code then search ranges code fuel (middle + 1) high
        else true
    else false

/-- Whether one of the ranges holds the character. An interval of `n` indices is empty after as many
halvings as `n` has binary digits. -/
def Ranges.has (ranges : Ranges) (c : Char) : Bool :=
  ranges.search c.toNat (ranges.size.log2 + 2) 0 ranges.size

end SpecServer.Text
