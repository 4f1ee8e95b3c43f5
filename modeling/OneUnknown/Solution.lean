import OneUnknown.Decimal
import OneUnknown.Error
import OneUnknown.Options
import OneUnknown.Word

/-!
# Solutions

The equation `a·x = b` has one solution if `a` is not zero, and otherwise all numbers or none. The
one solution is the rational number `b / a`; it is known in lowest terms over a positive
denominator.
-/

namespace OneUnknown

inductive Solution where
  /-- The only solution is a whole number. -/
  | exact (x : Word)
  /-- The only solution is a fraction. -/
  | fraction (numerator denominator : Word)
  /-- Every number is a solution. -/
  | infinite
  | noSolution
  deriving DecidableEq

namespace Solution

/-- The rational number `q` as the only solution, if its terms are words. -/
def ofRat? (q : Rat) : Option Solution := do
  let numerator ← Word.ofInt? q.num
  let denominator ← Word.ofInt? q.den
  return if q.den = 1 then exact numerator else fraction numerator denominator

/-- The solutions of `a·x = b`. -/
def ofEquation (a b : Word) : Except EvalError Solution :=
  if a = 0 then .ok (if b = 0 then infinite else noSolution)
  else (ofRat? (Rat.divInt b.toInt a.toInt)).elim (.error .overflow) .ok

/-- The only solution as a floating-point number. Both terms of a fraction are rounded before they
are divided. -/
def value? : Solution → Option Float
  | exact x => some (.ofInt x.toInt)
  | fraction numerator denominator => some (.ofInt numerator.toInt / .ofInt denominator.toInt)
  | infinite | noSolution => none

/-- The text of a solution, with `precision` places after the point of a fraction. -/
def toText (precision : Nat) : Solution → String
  | exact x => "x = " ++ x.numeral
  | fraction numerator denominator =>
    "x = " ++ (Decimal.ofFraction precision numerator.toInt denominator.toInt).toString
  | infinite => "Infinite solutions"
  | noSolution => "No solution"

/-- The text of a solution, with as many places as asked for, or by default as many as the options
have. -/
def format (precision? : Option Nat) : Solution → String :=
  toText (precision?.getD ({} : Options).precision)

end Solution

end OneUnknown
