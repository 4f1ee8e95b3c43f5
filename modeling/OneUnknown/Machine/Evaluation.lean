import OneUnknown.Machine.Text
import OneUnknown.Reduction

/-!
# Evaluating tokens on a machine

A side is evaluated as by its symbols, but from its tokens, with a look at the token that follows.
Operands are popped one by one. Some functions are made only for a part of their arguments: a number
token has a literal and a binary operator has an operation, and an opening parenthesis on the stack
is never applied. The log is left out, as nothing depends on it.
-/

namespace OneUnknown.Machine

open Run

/-! ### Forms -/

/-- The value of a literal, which only a number token has. -/
def literal (negated : Bool) (t : Token) : Run EvalError Linear := do
  ensure (t.kind = .number) .unreachable
  mapError .read (sound (t.literal negated))

/-- Whether a form is divisible by a word. The second field counts only if the first is divisible. -/
def divisible (p : Linear) (n : Word) : Run EvalError Bool := do
  if (← Word.rem p.coefficient n) = 0 then
    return (← Word.rem p.constant n) = 0
  else
    return false

/-- The quotient of a form by a constant, each field rounded toward zero. -/
def divide (policy : DivisionPolicy) (p q : Linear) : Run EvalError Linear :=
  if ¬ q.IsConstant then .error (.error .divisionByVariable)
  else if q.constant = 0 then .error (.error .divisionByZero)
  else do
    let coefficient ← sound (Linear.checked (p.coefficient.quot? q.constant))
    let constant ← sound (Linear.checked (p.constant.quot? q.constant))
    let exact ← divisible p q.constant
    if ¬ exact ∧ policy = .reject then .error (.error .inexactDivision)
    else return ⟨coefficient, constant⟩

/-- The result of the operation `op` on two forms. -/
def combine (policy : DivisionPolicy) (p : Linear) (op : BinaryOp) (q : Linear) :
    Run EvalError Linear :=
  match op with
  | .plus => sound (p.add q)
  | .minus => sound (p.sub q)
  | .times => sound (p.mul q)
  | .divide => divide policy p q

/-! ### Stacks -/

/-- The top of the operands, and those below it. -/
def pop : List Linear → Run EvalError (Linear × List Linear)
  | operand :: operands => return (operand, operands)
  | [] => .error (.error .malformed)

/-- The result of what is on the stack of operators, and the operands that it leaves. No parenthesis
has a result. -/
def applyPending (policy : DivisionPolicy) (operands : List Linear) :
    Pending → Run EvalError (Linear × List Linear)
  | .operator .negate => do
    let (operand, operands) ← pop operands
    return (← sound operand.neg, operands)
  | .operator (.binary op) => do
    let (right, operands) ← pop operands
    let (left, operands) ← pop operands
    return (← combine policy left op right, operands)
  | .openParen => fault .unreachable

/-- A parenthesis on the stack has the highest priority. -/
def priority : Pending → Nat
  | .operator operator => operator.priority
  | .openParen => 4

/-- Applies what is on top and has at least the priority `least`, back to the nearest opening
parenthesis. -/
def reduce (policy : DivisionPolicy) (least : Nat) (operands : List Linear) :
    List Pending → Run EvalError Stacks
  | [] => return ⟨operands, []⟩
  | top :: waiting =>
    if top = .openParen ∨ priority top < least then return ⟨operands, top :: waiting⟩
    else do
      let (value, operands) ← applyPending policy operands top
      reduce policy least (value :: operands) waiting

/-- Applies all that binds at least as tightly as a binary operator, and puts it on the stack. -/
def pushBinary (policy : DivisionPolicy) (s : Stacks) (op : BinaryOp) : Run EvalError Stacks := do
  let s ← reduce policy (Operator.binary op).priority s.operands s.operators
  return ⟨s.operands, .operator (.binary op) :: s.operators⟩

/-- The operation of a binary operator. -/
def binaryOp : Kind → Run EvalError BinaryOp
  | .operator (.binary op) => return op
  | _ => fault .unreachable

/-- The stacks after a token that stands alone. -/
def step (policy : DivisionPolicy) (s : Stacks) (t : Token) : Run EvalError Stacks :=
  match t.kind with
  | .number => return ⟨(← literal false t) :: s.operands, s.operators⟩
  | .openParen => return ⟨s.operands, .openParen :: s.operators⟩
  | .closeParen => do
    let s ← reduce policy 0 s.operands s.operators
    match s.operators with
    | .openParen :: waiting => return ⟨s.operands, waiting⟩
    | _ => .error (.error .malformed)
  | .operator .negate => return ⟨s.operands, .operator .negate :: s.operators⟩
  | .operator (.binary _) => do pushBinary policy s (← binaryOp t.kind)

/-- A minus sign becomes part of a number that stands directly behind it. -/
def Folds (t next : Token) : Prop :=
  (t.kind = .operator (.binary .minus) ∨ t.kind = .operator .negate) ∧ next.kind = .number

instance (t next : Token) : Decidable (Folds t next) := inferInstanceAs (Decidable (_ ∧ _))

/-- The stacks after a minus sign and the number that it is a part of. -/
def foldedStep (policy : DivisionPolicy) (s : Stacks) (t number : Token) :
    Run EvalError Stacks := do
  let s ← if t.kind = .operator (.binary .minus) then pushBinary policy s .plus else pure s
  return ⟨(← literal true number) :: s.operands, s.operators⟩

/-- The stacks after all tokens. -/
def scan (policy : DivisionPolicy) (s : Stacks) : List Token → Run EvalError Stacks
  | [] => return s
  | [t] => step policy s t
  | t :: next :: ts =>
    if Folds t next then do scan policy (← foldedStep policy s t next) ts
    else do scan policy (← step policy s t) (next :: ts)

/-- The only operand that is left, if nothing else is. -/
def finish (policy : DivisionPolicy) (s : Stacks) : Run EvalError Linear := do
  let s ← reduce policy 0 s.operands s.operators
  if s.operators ≠ [] ∨ s.operands.length ≠ 1 then .error (.error .malformed)
  else
    let (value, _) ← pop s.operands
    return value

/-- The value of a sequence of tokens, which is zero if there are none. -/
def evaluateTokens (policy : DivisionPolicy) (ts : List Token) : Run EvalError Linear :=
  if ts = [] then return .zero
  else do
    let s ← scan policy .empty ts
    finish policy s

/-- The value of the text of a side. -/
def evaluate (policy : DivisionPolicy) (source : String) : Run EvalError Linear := do
  let ts ← mapError .read (tokenize source)
  evaluateTokens policy ts

end OneUnknown.Machine
