import OneUnknown.Equation
import OneUnknown.Machine.Evaluation

/-!
# Answering a line on a machine

The solution of `a·x = b` is found in words: a whole solution is a quotient of words, and a fraction
is brought to lowest terms by Euclid's algorithm. The decimal of a fraction is computed in numbers
of 128 bits and its places are bytes.
-/

namespace OneUnknown.Machine

open Run

variable {ε : Type}

/-! ### Equations -/

/-- The offset of the first equals sign. -/
def findEquals? (line : List Char) : Option Nat :=
  if '=' ∈ line then some (utf8Length (line.takeWhile (· ≠ '='))) else none

/-- The equation that a line writes. The line is cut before its equals sign and behind it. -/
def parse (policy : DivisionPolicy) (line : String) : Run SolveError Equation :=
  match findEquals? line.toList, Equation.equalsSigns line with
  | some index, 1 => mapError .evaluation do
    let (left, right) ← splitAt line.toList index
    let right ← rest right 1
    let left ← evaluate policy (.ofList left)
    let right ← evaluate policy (.ofList right)
    return ⟨left, right⟩
  | _, equalsSigns => .error (.error (.notAnEquation equalsSigns))

/-! ### Solutions -/

/-- The greatest common divisor. -/
def gcd (a b : Nat) : Run ε Nat :=
  if b = 0 then return a
  else do
    let r ← remainder a b
    gcd b r
termination_by b
decreasing_by exact r.isLt

/-- The solution that is a fraction, in lowest terms over a positive denominator. -/
def fraction (numerator denominator : Word) : Run EvalError Solution := do
  let divisor ← Word.ofNat (← gcd numerator.toInt.natAbs denominator.toInt.natAbs)
  let numerator ← Word.div numerator divisor
  let denominator ← Word.div denominator divisor
  if denominator.toInt < 0 then
    let numerator ← sound (Linear.checked numerator.neg?)
    let denominator ← sound (Linear.checked denominator.neg?)
    return .fraction numerator denominator
  else
    return .fraction numerator denominator

/-- The solutions of `a·x = b`. -/
def classify (a b : Word) : Run EvalError Solution :=
  if a = 0 then return if b = 0 then .infinite else .noSolution
  else
    match Word.rem? b a with
    | none => .error (.error .overflow)
    | some r => if r = 0 then .exact <$> Word.div b a else fraction b a

/-- The solutions of the equation that a line writes. -/
def solve (policy : DivisionPolicy) (line : String) : Run SolveError Solution := do
  let e ← parse policy line
  mapError .evaluation do
    let a ← sound e.coefficient
    let b ← sound e.constant
    classify a b

/-! ### Decimals -/

/-- The number `n` in 128 bits, which is less than `2^128`. -/
def wide (n : Nat) : Run ε Nat := bounded 340282366920938463463374607431768211456 n

/-- The number `n` in a byte. -/
def byte (n : Nat) : Run ε Nat := bounded 256 n

/-- The first `count` digits after the point of `r / divisor`, and the remainder that is left after
them. -/
def expand (divisor : Nat) : Nat → Nat → Run ε (List Nat × Nat)
  | 0, r => return ([], r)
  | count + 1, r => do
    let scaled ← wide (10 * r)
    let digit ← byte (← quotient scaled divisor)
    let (digits, last) ← expand divisor count (← remainder scaled divisor)
    return (digit :: digits, last)

/-- Adds one to the last place. The second part tells whether a one is carried over the first. -/
def increment : List Nat → Run ε (List Nat × Bool)
  | [] => return ([], true)
  | digit :: digits => do
    let (digits, carry) ← increment digits
    if !carry then return (digit :: digits, false)
    else if digit = 9 then return (0 :: digits, true)
    else return ((← byte (digit + 1)) :: digits, false)

/-- The quotient of two magnitudes to `count` places, without a sign. -/
def ofQuotient (count dividend divisor : Nat) : Run ε Decimal := do
  let whole ← quotient dividend divisor
  let (places, last) ← expand divisor count (← remainder dividend divisor)
  if (← wide (2 * last)) < divisor then return ⟨false, whole, places⟩
  else
    let (places, carry) ← increment places
    let whole ← if carry then wide (whole + 1) else pure whole
    return ⟨false, whole, places⟩

/-- The decimal of a fraction. -/
def ofFraction (count : Nat) (numerator denominator : Word) : Run ε Decimal := do
  let magnitude ← ofQuotient count numerator.toInt.natAbs denominator.toInt.natAbs
  return { magnitude with negative := decide (numerator.toInt < 0) }

/-- The text of a solution. No text is formatted with more places than 16 bits count. -/
def toText (precision : Nat) (s : Solution) : Run ε String := do
  ensure (precision < 65536) .precision
  match s with
  | .fraction numerator denominator =>
    return "x = " ++ (← ofFraction precision numerator denominator).toString
  | other => return other.toText precision

/-- The answer to a line in words, which no error keeps from being given. -/
def answer (options : Options) (line : String) : Run Empty String :=
  match solve options.policy line with
  | .ok solution => toText options.precision solution
  | .error (.error error) => return error.message
  | .error (.fault f) => fault f

end OneUnknown.Machine
