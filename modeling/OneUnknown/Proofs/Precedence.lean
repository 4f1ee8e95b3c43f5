import OneUnknown.Expr
import OneUnknown.Proofs.Outcome

/-!
# Precedence

The symbols of a side carry their grouping by priority alone. `Yields policy p us v` derives the
value `v` of the symbols `us` of a phrase `p` by the usual rules: factors bind tighter than terms
and terms tighter than sums, and both associate to the left. `outcome_evaluateSymbols_of_yields`
says that the evaluation with two stacks gives the derived value, or the derived error.
-/

namespace OneUnknown

open Stacks

/-- The least priority that an operator outside the parentheses of a phrase can have. -/
def Phrase.floor : Phrase → Nat
  | .primary | .factor => 3
  | .term => 2
  | .sum => 1

/-- A phrase may start where these operators wait: none of them takes a part of it for its right
operand. A factor is only ever taken as a whole. -/
def Phrase.MayFollow : Phrase → List Pending → Prop
  | .primary, _ | .factor, _ => True
  | .term, waiting => Blocks 2 waiting
  | .sum, waiting => Blocks 1 waiting

/-- The value of a phrase whose symbols are `us`, operands from left to right and then the
operation. -/
inductive Yields (policy : DivisionPolicy) : Phrase → List Symbol → Except EvalError Linear → Prop
  | literal (negated : Bool) (number : Token) :
    Yields policy .primary [.literal negated number] ((number.literal negated).mapError .read)
  | paren {us v} (inner : Yields policy .sum us v) :
    Yields policy .primary (.openParen :: us ++ [.closeParen]) v
  | factor {us v} (operand : Yields policy .primary us v) : Yields policy .factor us v
  | negate {us v} (operand : Yields policy .factor us v) :
    Yields policy .factor (.operator .negate :: us) (v >>= Linear.neg)
  | term {us v} (factor : Yields policy .factor us v) : Yields policy .term us v
  | scale {us ws v w} (op : Scale) (left : Yields policy .term us v)
    (right : Yields policy .factor ws w) :
    Yields policy .term (us ++ .operator (.binary op.op) :: ws)
      (v >>= fun l => w >>= fun r => Linear.apply policy op.op l r)
  | sum {us v} (term : Yields policy .term us v) : Yields policy .sum us v
  | add {us ws v w} (sign : Sign) (left : Yields policy .sum us v)
    (right : Yields policy .term ws w) :
    Yields policy .sum (us ++ .operator (.binary sign.op) :: ws)
      (v >>= fun l => w >>= fun r => Linear.apply policy sign.op l r)

variable {policy : DivisionPolicy} {p : Phrase} {us : List Symbol} {v : Except EvalError Linear}

theorem Scale.priority (op : Scale) : (Operator.binary op.op).priority = 2 := by
  cases op <;> rfl

theorem Sign.priority (sign : Sign) : (Operator.binary sign.op).priority = 1 := by
  cases sign <;> rfl

/-- A binary operator that is still waiting when its right operand is complete. -/
theorem settle_binary {least : Nat} {op : BinaryOp} (h : least ≤ (Operator.binary op).priority)
    (l r : Linear) (operands : List Linear) (waiting : List Pending) :
    settle policy least ⟨r :: l :: operands, .operator (.binary op) :: waiting⟩ =
      Linear.apply policy op l r >>= fun z => settle policy least ⟨z :: operands, waiting⟩ := by
  rw [settle_of_le policy h, Operator.outcome_applyTo_binary, bind_assoc]
  rfl

/-- Reading the symbols of a phrase leaves its value on top of the operands, and touches nothing
below, once the operators that the phrase has left waiting are applied. -/
theorem Yields.read_settle (h : Yields policy p us v) (operands : List Linear)
    (waiting : List Pending) (start : p.MayFollow waiting) {least : Nat} (floor : least ≤ p.floor) :
    read policy ⟨operands, waiting⟩ us >>= settle policy least =
      v >>= fun x => settle policy least ⟨x :: operands, waiting⟩ := by
  induction h generalizing operands waiting least with
  | literal negated number =>
    rw [read_literal]
    simp only [read_nil, bind_assoc, ok_bind]
  | @paren us v _ ih =>
    have inside := ih operands (.openParen :: waiting) trivial (Nat.zero_le 1)
    rw [List.cons_append, read_openParen, read_append]
    simp only [read_closeParen, read_nil, bind_ok]
    rw [← bind_assoc (read _ _ _), inside]
    simp only [bind_assoc, settle_openParen, ok_bind, close]
  | factor _ ih => exact ih operands waiting trivial floor
  | @negate us v _ ih =>
    rw [read_negate, ih operands (.operator .negate :: waiting) trivial floor, bind_assoc]
    congr 1
    funext x
    rw [settle_of_le policy (show least ≤ Operator.negate.priority from floor),
      Operator.outcome_applyTo_negate, bind_assoc]
    rfl
  | term _ ih => exact ih operands waiting trivial (Nat.le_succ_of_le floor)
  | @scale us ws v w op _ _ ihLeft ihRight =>
    rw [read_append]
    simp only [read_binary, op.priority]
    rw [← bind_assoc (read _ _ _), ihLeft operands waiting start (Nat.le_refl 2)]
    simp only [bind_assoc, settle_of_blocks policy start, ok_bind]
    congr 1
    funext l
    have reached : least ≤ (Operator.binary op.op).priority := by
      rw [op.priority]
      exact floor
    rw [ihRight (l :: operands) _ trivial (Nat.le_succ_of_le floor)]
    simp only [settle_binary reached]
  | sum _ ih =>
    exact ih operands waiting (start.mono (Nat.le_succ 1)) (Nat.le_succ_of_le floor)
  | @add us ws v w sign _ _ ihLeft ihRight =>
    rw [read_append]
    simp only [read_binary, sign.priority]
    rw [← bind_assoc (read _ _ _), ihLeft operands waiting start (Nat.le_refl 1)]
    simp only [bind_assoc, settle_of_blocks policy start, ok_bind]
    congr 1
    funext l
    have low : Phrase.term.MayFollow (.operator (.binary sign.op) :: waiting) := by
      change (Operator.binary sign.op).priority < 2
      rw [sign.priority]
      exact Nat.lt_succ_self 1
    have reached : least ≤ (Operator.binary sign.op).priority := by
      rw [sign.priority]
      exact floor
    rw [ihRight (l :: operands) _ low (Nat.le_succ_of_le floor)]
    simp only [settle_binary reached]

theorem outcome_evaluateSymbols_of_yields (h : Yields policy .sum us v) :
    (evaluateSymbols policy us).outcome = v := by
  rw [outcome_evaluateSymbols, ← bind_assoc, Stacks.empty,
    h.read_settle [] [] trivial (Nat.zero_le 1), bind_assoc]
  simp only [settle_nil, ok_bind, result]
  exact bind_ok v

end OneUnknown
