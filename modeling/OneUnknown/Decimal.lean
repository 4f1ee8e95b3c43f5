/-!
# Decimals

A fraction is written with a fixed number of places after the point. Its digits come from long
division, and the last one is rounded by what is left: from one half on, the magnitude goes up, so a
tie goes away from zero.
-/

namespace OneUnknown

/-- A number in base ten, with its places after the point in order. -/
structure Decimal where
  negative : Bool
  whole : Nat
  places : List Nat
  deriving DecidableEq

namespace Decimal

/-- The first `count` digits after the point of `remainder / divisor`, and the remainder that is
left after them. -/
def expand (divisor : Nat) : Nat → Nat → List Nat × Nat
  | 0, remainder => ([], remainder)
  | count + 1, remainder =>
    let rest := expand divisor count (10 * remainder % divisor)
    (10 * remainder / divisor :: rest.1, rest.2)

/-- Adds one to the last place. The second part tells whether a one is carried over the first. -/
def increment : List Nat → List Nat × Bool
  | [] => ([], true)
  | digit :: digits =>
    let (digits, carry) := increment digits
    if !carry then (digit :: digits, false)
    else if digit = 9 then (0 :: digits, true)
    else ((digit + 1) :: digits, false)

/-- The quotient of two magnitudes to `count` places, without a sign. -/
def ofQuotient (count dividend divisor : Nat) : Decimal :=
  let whole := dividend / divisor
  let (places, remainder) := expand divisor count (dividend % divisor)
  if 2 * remainder < divisor then ⟨false, whole, places⟩
  else
    let (places, carry) := increment places
    ⟨false, if carry then whole + 1 else whole, places⟩

/-- The fraction `numerator / denominator` to `count` places. A numerator below zero makes it
negative, even where all its digits are zero; a sign of the denominator is not counted. -/
def ofFraction (count : Nat) (numerator denominator : Int) : Decimal :=
  { ofQuotient count numerator.natAbs denominator.natAbs with negative := decide (numerator < 0) }

/-- The text of a decimal; the point is written only before a digit. -/
def toString (d : Decimal) : String :=
  let sign := if d.negative then "-" else ""
  let point := if d.places = [] then "" else "."
  sign ++ d.whole.repr ++ point ++ .ofList (d.places.map Nat.digitChar)

instance : ToString Decimal := ⟨toString⟩

end Decimal

end OneUnknown
