import OneUnknown.Token

/-!
# Forms over the integers

Linear forms whose numbers are integers of any size, with the operations of polynomials in `x`.
They are what the forms of words stand for: here nothing overflows, and a number of any size is
read.
-/

namespace OneUnknown

/-- The number of times that a number token counts one or the unknown: what its digits denote, and
one if it has none. -/
def Token.magnitude (t : Token) : Nat :=
  let digits := t.text.toList.filter Char.isDigit
  if digits = [] then 1 else Nat.ofDigitChars 10 digits 0

/-- The form `coefficient·x + constant` over all integers. -/
@[ext]
structure IntForm where
  coefficient : Int
  constant : Int
  deriving DecidableEq

namespace IntForm

/-- The form that a form of words denotes. -/
def ofLinear (p : Linear) : IntForm := ⟨p.coefficient.toInt, p.constant.toInt⟩

def add (p q : IntForm) : IntForm := ⟨p.coefficient + q.coefficient, p.constant + q.constant⟩

def sub (p q : IntForm) : IntForm := ⟨p.coefficient - q.coefficient, p.constant - q.constant⟩

def neg (p : IntForm) : IntForm := ⟨-p.coefficient, -p.constant⟩

def mul (p q : IntForm) : Except EvalError IntForm :=
  if p.coefficient ≠ 0 ∧ q.coefficient ≠ 0 then .error .nonlinear
  else .ok ⟨p.coefficient * q.constant + p.constant * q.coefficient, p.constant * q.constant⟩

def div (policy : DivisionPolicy) (p q : IntForm) : Except EvalError IntForm :=
  if q.coefficient ≠ 0 then .error .divisionByVariable
  else if q.constant = 0 then .error .divisionByZero
  else if policy = .reject ∧ ¬ (q.constant ∣ p.coefficient ∧ q.constant ∣ p.constant) then
    .error .inexactDivision
  else .ok ⟨p.coefficient.tdiv q.constant, p.constant.tdiv q.constant⟩

def apply (policy : DivisionPolicy) : BinaryOp → IntForm → IntForm → Except EvalError IntForm
  | .plus, p, q => .ok (p.add q)
  | .minus, p, q => .ok (p.sub q)
  | .times, p, q => p.mul q
  | .divide, p, q => p.div policy q

/-- The form that a number token denotes. -/
def ofToken (t : Token) : IntForm :=
  if 'x' ∈ t.text.toList then ⟨t.magnitude, 0⟩ else ⟨0, t.magnitude⟩

end IntForm

end OneUnknown
