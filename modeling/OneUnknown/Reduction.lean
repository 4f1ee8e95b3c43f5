import OneUnknown.Log
import OneUnknown.Symbol

/-!
# Reduction

A side is evaluated in one pass over its symbols, with a stack of operands and a stack of operators
that wait for their right operand. A binary operator first applies the waiting operators of at
least its own priority, back to the nearest opening parenthesis, so binary operators associate to
the left; a negation applies nothing, because it has no left operand. A closing parenthesis, and the
end of the side, apply all that waits.
-/

namespace OneUnknown

/-- What stands on the stack of operators. -/
inductive Pending where
  | operator (operator : Operator)
  | openParen
  deriving DecidableEq

/-- The two stacks, each with its top first. -/
@[ext]
structure Stacks where
  operands : List Linear
  operators : List Pending
  deriving DecidableEq

/-- The evaluation of a side, or of a part of it. -/
abbrev Evaluation (α : Type) := Logged EvalError α

/-- Replaces the operands of an operator by its result. -/
def Operator.applyTo (policy : DivisionPolicy) :
    Operator → List Linear → Evaluation (List Linear)
  | .negate, operand :: rest => do
    Logged.note (.negation operand)
    return (← Logged.ofExcept operand.neg) :: rest
  | .binary op, right :: left :: rest => do
    Logged.note (.operation left op right)
    return (← Logged.ofExcept (Linear.apply policy op left right)) :: rest
  | _, _ => Logged.ofExcept (.error .malformed)

namespace Stacks

/-- The stacks before the first symbol. -/
def empty : Stacks := ⟨[], []⟩

/-- Applies the operators on top that have at least the priority `least`. -/
def reduce (policy : DivisionPolicy) (least : Nat) (operands : List Linear) :
    List Pending → Evaluation Stacks
  | .operator operator :: waiting =>
    if operator.priority < least then return ⟨operands, .operator operator :: waiting⟩
    else do reduce policy least (← operator.applyTo policy operands) waiting
  | waiting => return ⟨operands, waiting⟩

/-- The stacks after one more symbol. -/
def step (policy : DivisionPolicy) (s : Stacks) : Symbol → Evaluation Stacks
  | .literal negated number => do
    let value ← Logged.ofExcept ((number.literal negated).mapError .read)
    return ⟨value :: s.operands, s.operators⟩
  | .openParen => return ⟨s.operands, .openParen :: s.operators⟩
  | .closeParen => do
    let s ← reduce policy 0 s.operands s.operators
    match s.operators with
    | .openParen :: waiting => return ⟨s.operands, waiting⟩
    | _ => Logged.ofExcept (.error .malformed)
  | .operator .negate => return ⟨s.operands, .operator .negate :: s.operators⟩
  | .operator (.binary op) => do
    let s ← reduce policy (Operator.binary op).priority s.operands s.operators
    return ⟨s.operands, .operator (.binary op) :: s.operators⟩

/-- The value of a side after its last symbol. -/
def finish (policy : DivisionPolicy) (s : Stacks) : Evaluation Linear := do
  let s ← reduce policy 0 s.operands s.operators
  match s with
  | ⟨[value], []⟩ => return value
  | _ => Logged.ofExcept (.error .malformed)

end Stacks

/-- The value of a sequence of symbols. -/
def evaluateSymbols (policy : DivisionPolicy) (symbols : List Symbol) : Evaluation Linear := do
  (← symbols.foldlM (Stacks.step policy) .empty).finish policy

/-- The value of a sequence of tokens, which is zero if there are none. -/
def evaluateTokens (policy : DivisionPolicy) (ts : List Token) : Evaluation Linear :=
  if ts = [] then return .zero else evaluateSymbols policy (Symbol.ofTokens ts)

/-- The value of the text of a side. -/
def evaluate (policy : DivisionPolicy) (source : String) : Evaluation Linear := do
  let ts ← Logged.ofExcept ((Token.tokenize source).mapError .read)
  let value ← evaluateTokens policy ts
  Logged.note (.evaluated source value)
  return value

/-- The form that a text writes under the default options. -/
def Linear.ofText (source : String) : Evaluation Linear := evaluate ({} : Options).policy source

end OneUnknown
