import OneUnknown.Reduction
import OneUnknown.Solution

/-!
# Equations

A line with exactly one equals sign is an equation between the sides to its left and right. Both
sides are evaluated, the left one first; then the unknown is brought to the left and the constants
to the right, which gives an equation `a·x = b`.
-/

namespace OneUnknown

@[ext]
structure Equation where
  left : Linear
  right : Linear
  deriving DecidableEq

namespace Equation

/-- The number of equals signs of a line. -/
def equalsSigns (line : String) : Nat := line.toList.count '='

/-- The text before the first equals sign, and the text after it. -/
def sides (line : String) : String × String :=
  let chars := line.toList
  (.ofList (chars.takeWhile (· ≠ '=')), .ofList ((chars.dropWhile (· ≠ '=')).drop 1))

/-- The equation that a line writes. -/
def parse (policy : DivisionPolicy) (line : String) : Logged SolveError Equation :=
  if equalsSigns line = 1 then
    Logged.mapError .evaluation do
      let left ← evaluate policy (sides line).1
      let right ← evaluate policy (sides line).2
      return ⟨left, right⟩
  else
    Logged.ofExcept (.error (.notAnEquation (equalsSigns line)))

/-- The factor of the unknown when it is on the left alone. -/
def coefficient (e : Equation) : Except EvalError Word :=
  Linear.checked (e.left.coefficient.sub? e.right.coefficient)

/-- The constant when it is on the right alone. -/
def constant (e : Equation) : Except EvalError Word :=
  Linear.checked (e.right.constant.sub? e.left.constant)

/-- The solutions of an equation. -/
def solve (e : Equation) : Logged SolveError Solution :=
  Logged.mapError .evaluation do
    let a ← Logged.ofExcept e.coefficient
    let b ← Logged.ofExcept e.constant
    Logged.note (.solving a b)
    Logged.ofExcept (Solution.ofEquation a b)

end Equation

/-- The solutions of the equation that a line writes. -/
def solve (policy : DivisionPolicy) (line : String) : Logged SolveError Solution := do
  (← Equation.parse policy line).solve

/-- The answer to a line in words: its solution, or why there is none. -/
def answer (options : Options) (line : String) : String :=
  match (solve options.policy line).outcome with
  | .ok solution => solution.toText options.precision
  | .error error => error.message

end OneUnknown
