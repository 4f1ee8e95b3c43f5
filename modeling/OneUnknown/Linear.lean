import OneUnknown.Error
import OneUnknown.Options
import OneUnknown.Word

/-!
# Linear forms

A linear form `a·x + b` holds two words. The operations on forms are those of polynomials in `x`:
each fails where the result is no linear form, and with `overflow` where it is one whose
coefficients are no words. Division is by a non-zero constant only.
-/

namespace OneUnknown

/-- The four operations written between two operands. -/
inductive BinaryOp where
  | plus
  | minus
  | times
  | divide
  deriving DecidableEq

/-- The sign that writes the operation. -/
def BinaryOp.sign : BinaryOp → Char
  | .plus => '+'
  | .minus => '-'
  | .times => '*'
  | .divide => '/'

/-- The form `coefficient·x + constant`. -/
@[ext]
structure Linear where
  coefficient : Word
  constant : Word
  deriving DecidableEq

namespace Linear

/-- The form without an `x`. -/
def ofConstant (n : Word) : Linear := ⟨0, n⟩

/-- The form `0`. -/
def zero : Linear := ofConstant 0

/-- The form `x`. -/
def unknown : Linear := ⟨1, 0⟩

/-- A form is constant if its value does not depend on `x`. -/
def IsConstant (p : Linear) : Prop := p.coefficient = 0

instance (p : Linear) : Decidable p.IsConstant := inferInstanceAs (Decidable (_ = _))

/-! ### Operations -/

/-- The result of a checked operation on words, where being out of range is an error. -/
def checked (word? : Option Word) : Except EvalError Word :=
  word?.elim (.error .overflow) .ok

def add (p q : Linear) : Except EvalError Linear := do
  return ⟨← checked (p.coefficient.add? q.coefficient), ← checked (p.constant.add? q.constant)⟩

def sub (p q : Linear) : Except EvalError Linear := do
  return ⟨← checked (p.coefficient.sub? q.coefficient), ← checked (p.constant.sub? q.constant)⟩

def neg (p : Linear) : Except EvalError Linear := do
  return ⟨← checked p.coefficient.neg?, ← checked p.constant.neg?⟩

/-- The product of two forms, one of which must be constant. -/
def mul (p q : Linear) : Except EvalError Linear :=
  if ¬ p.IsConstant ∧ ¬ q.IsConstant then .error .nonlinear
  else do
    let left ← checked (p.coefficient.mul? q.constant)
    let right ← checked (p.constant.mul? q.coefficient)
    return ⟨← checked (left.add? right), ← checked (p.constant.mul? q.constant)⟩

/-- A form is divisible by a word if both its fields are. -/
def Divisible (p : Linear) (n : Word) : Prop :=
  n.toInt ∣ p.coefficient.toInt ∧ n.toInt ∣ p.constant.toInt

instance (p : Linear) (n : Word) : Decidable (p.Divisible n) :=
  inferInstanceAs (Decidable (_ ∧ _))

/-- The quotient of a form by a constant, each field rounded toward zero. -/
def div (policy : DivisionPolicy) (p q : Linear) : Except EvalError Linear :=
  if ¬ q.IsConstant then .error .divisionByVariable
  else if q.constant = 0 then .error .divisionByZero
  else do
    let coefficient ← checked (p.coefficient.quot? q.constant)
    let constant ← checked (p.constant.quot? q.constant)
    if policy = .reject ∧ ¬ p.Divisible q.constant then .error .inexactDivision
    else return ⟨coefficient, constant⟩

/-- The result of the operation `op` on the forms `p` and `q`. -/
def apply (policy : DivisionPolicy) : BinaryOp → Linear → Linear → Except EvalError Linear
  | .plus => add
  | .minus => sub
  | .times => mul
  | .divide => div policy

/-! ### Text -/

/-- The text of a form: a coefficient of one and a part that is zero are left out. -/
def toString (p : Linear) : String :=
  if p.coefficient = 0 then p.constant.numeral
  else
    let first :=
      if p.coefficient = 1 then "x"
      else if p.coefficient = -1 then "-x"
      else p.coefficient.numeral ++ "x"
    if 0 < p.constant.toInt then first ++ " + " ++ p.constant.numeral
    else if p.constant.toInt < 0 then first ++ " - " ++ p.constant.toInt.natAbs.repr
    else first

instance : ToString Linear := ⟨toString⟩

end Linear

end OneUnknown
