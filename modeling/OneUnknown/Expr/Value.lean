import OneUnknown.Expr
import OneUnknown.IntForm

/-!
# The value of an expression

Three readings of a tree, each by recursion on it, operands from left to right and then the
operation.

* `value` computes with words. A minus sign that stands directly before a number, signs of plus
  aside, belongs to the literal; the difference it writes is then a sum.
* `intValue` computes with integers of any size, where a minus sign always subtracts or negates.
* `ratValue` computes the rational number that the tree denotes when the unknown is a given number.
-/

namespace OneUnknown.Expr

/-- Whether a minus sign before the phrase stands directly before a number, plus signs aside. No
minus sign stands before a sum. -/
def startsWithNumber : {p : Phrase} → Expr p → Bool
  | _, number _ => true
  | _, paren _ => false
  | _, bare operand => operand.startsWithNumber
  | _, signed .plus operand => operand.startsWithNumber
  | _, signed .minus _ => false
  | _, single factor => factor.startsWithNumber
  | _, scaled left _ _ => left.startsWithNumber
  | _, first _ | _, leading .. | _, added .. => false

/-! ### Words -/

/-- The value in words. If `negated`, a minus sign before the phrase belongs to its first number,
which no sum has. -/
def value (policy : DivisionPolicy) (negated : Bool) :
    {p : Phrase} → Expr p → Except EvalError Linear
  | _, number literal => (literal.literal negated).mapError .read
  | _, paren inner => inner.value policy false
  | _, bare operand => operand.value policy negated
  | _, signed .plus operand => operand.value policy negated
  | _, signed .minus operand =>
    if operand.startsWithNumber then operand.value policy true
    else do (← operand.value policy false).neg
  | _, single factor => factor.value policy negated
  | _, scaled left op right => do
    let l ← left.value policy negated
    let r ← right.value policy false
    Linear.apply policy op.op l r
  | _, first term => term.value policy false
  | _, leading .plus term => do Linear.zero.add (← term.value policy false)
  | _, leading .minus term =>
    if term.startsWithNumber then do Linear.zero.add (← term.value policy true)
    else do Linear.zero.sub (← term.value policy false)
  | _, added left .plus right => do
    let l ← left.value policy false
    l.add (← right.value policy false)
  | _, added left .minus right => do
    let l ← left.value policy false
    if right.startsWithNumber then l.add (← right.value policy true)
    else l.sub (← right.value policy false)

/-! ### Integers -/

/-- The value in integers of any size. -/
def intValue (policy : DivisionPolicy) : {p : Phrase} → Expr p → Except EvalError IntForm
  | _, number literal => .ok (.ofToken literal)
  | _, paren inner => inner.intValue policy
  | _, bare operand => operand.intValue policy
  | _, signed .plus operand => operand.intValue policy
  | _, signed .minus operand => do return (← operand.intValue policy).neg
  | _, single factor => factor.intValue policy
  | _, scaled left op right => do
    let l ← left.intValue policy
    let r ← right.intValue policy
    IntForm.apply policy op.op l r
  | _, first term => term.intValue policy
  | _, leading sign term => do
    IntForm.apply policy sign.op ⟨0, 0⟩ (← term.intValue policy)
  | _, added left sign right => do
    let l ← left.intValue policy
    let r ← right.intValue policy
    IntForm.apply policy sign.op l r

/-! ### Rational numbers -/

/-- The result of an operation on rational numbers; a quotient by zero has none. -/
def ratApply : BinaryOp → Rat → Rat → Option Rat
  | .plus, a, b => some (a + b)
  | .minus, a, b => some (a - b)
  | .times, a, b => some (a * b)
  | .divide, a, b => if b = 0 then none else some (a / b)

/-- The rational number that the tree denotes when the unknown is `x`, if no divisor is zero. -/
def ratValue (x : Rat) : {p : Phrase} → Expr p → Option Rat
  | _, number literal =>
    let n : Rat := literal.magnitude
    some (if 'x' ∈ literal.text.toList then n * x else n)
  | _, paren inner => inner.ratValue x
  | _, bare operand => operand.ratValue x
  | _, signed .plus operand => operand.ratValue x
  | _, signed .minus operand => do return -(← operand.ratValue x)
  | _, single factor => factor.ratValue x
  | _, scaled left op right => do
    ratApply op.op (← left.ratValue x) (← right.ratValue x)
  | _, first term => term.ratValue x
  | _, leading sign term => do ratApply sign.op 0 (← term.ratValue x)
  | _, added left sign right => do
    ratApply sign.op (← left.ratValue x) (← right.ratValue x)

end OneUnknown.Expr
