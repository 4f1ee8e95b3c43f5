import OneUnknown.Proofs.Balance
import OneUnknown.Proofs.Evaluation

/-!
# Counts of tokens

What balanced symbols say of the tokens that they come from: tokens with a value have one number
more than binary operators, and parentheses that match (`counts_of_outcome_evaluateTokens`). This
holds for all tokens, also for those that no text has, so nothing is left over or used twice.
-/

namespace OneUnknown

open OneUnknown.Symbol Token

/-- The kind of an operator between two operands. -/
def Kind.IsBinary : Kind → Prop
  | .operator (.binary _) => True
  | _ => False

instance : DecidablePred Kind.IsBinary
  | .operator (.binary _) => .isTrue trivial
  | .operator .negate | .number | .openParen | .closeParen => .isFalse id

namespace Token

/-- The number of tokens of a kind. -/
def count (kind : Kind) (ts : List Token) : Nat := ts.countP fun t => t.kind = kind

/-- The number of operators between two operands. -/
def binaryCount (ts : List Token) : Nat := ts.countP fun t => t.kind.IsBinary

theorem count_cons (kind : Kind) (t : Token) (ts : List Token) :
    count kind (t :: ts) = count kind [t] + count kind ts :=
  @List.countP_append _ _ [t] ts

theorem binaryCount_cons (t : Token) (ts : List Token) :
    binaryCount (t :: ts) = binaryCount [t] + binaryCount ts :=
  @List.countP_append _ _ [t] ts

end Token

namespace Symbol

theorem weight_ofToken (t : Token) :
    (ofToken t).weight = count .number [t] - binaryCount [t] := by
  obtain ⟨kind, text, span⟩ := t
  rcases kind with _ | _ | _ | (op | _) <;> rfl

/-- Each number adds an operand and each binary operator takes one away. -/
theorem surplus_map_ofToken (ts : List Token) :
    surplus (ts.map ofToken) = count .number ts - binaryCount ts := by
  induction ts with
  | nil => rfl
  | cons t ts ih =>
    rw [List.map_cons, surplus_cons, ih, weight_ofToken, count_cons _ t ts, binaryCount_cons t ts]
    omega

theorem nesting_append (depth : Nat) (us ws : List Symbol) :
    nesting depth (us ++ ws) = (nesting depth us).bind (nesting · ws) := by
  induction us generalizing depth with
  | nil => rfl
  | cons u us ih =>
    rw [List.cons_append, nesting_cons, nesting_cons depth u us, Option.bind_assoc]
    simp only [ih]

/-- The parentheses that are open in the end are those open before and those opened, without those
closed. -/
theorem count_of_nesting {depth depth' : Nat} {ts : List Token}
    (h : nesting depth (ts.map ofToken) = some depth') :
    depth' + count .closeParen ts = depth + count .openParen ts := by
  induction ts generalizing depth with
  | nil =>
    cases h
    rfl
  | cons t ts ih =>
    rw [List.map_cons, nesting_cons, Option.bind_eq_some_iff] at h
    obtain ⟨between, head, tail⟩ := h
    have after := ih tail
    have one : between + count .closeParen [t] = depth + count .openParen [t] := by
      obtain ⟨kind, text, span⟩ := t
      match kind, depth with
      | .closeParen, 0 => cases head
      | .number, _ | .openParen, _ | .operator _, _ | .closeParen, _ + 1 =>
        cases head
        rfl
    rw [count_cons _ t ts, count_cons _ t ts]
    omega

end Symbol

/-- Tokens with a value have one number more than operators between two operands. No parenthesis is
closed in them that has not been opened, and none is left open. -/
theorem counts_of_outcome_evaluateTokens {policy : DivisionPolicy} {ts : List Token}
    (nonempty : ts ≠ []) {v : Linear} (h : (evaluateTokens policy ts).outcome = .ok v) :
    count .number ts = binaryCount ts + 1 ∧
      (∀ front, front <+: ts → count .closeParen front ≤ count .openParen front) ∧
      count .openParen ts = count .closeParen ts := by
  rw [evaluateTokens_of_ne_nil nonempty] at h
  have symbols : ofTokens ts = (ts.map ofToken).foldr attach [] := List.foldr_map.symm
  obtain ⟨one, balanced⟩ := balanced_of_evaluateSymbols h
  rw [symbols, surplus_foldr_attach, surplus_map_ofToken] at one
  rw [symbols, nesting_foldr_attach] at balanced
  refine ⟨by omega, ?_, ?_⟩
  · rintro front ⟨back, rfl⟩
    rw [List.map_append, nesting_append, Option.bind_eq_some_iff] at balanced
    obtain ⟨between, head, -⟩ := balanced
    have := count_of_nesting head
    omega
  · have := count_of_nesting balanced
    omega

/-- Two operands in parentheses before their operator, which no grammar allows, have a value. -/
theorem counts_of_parenthesized_operands :
    let ts : List Token := [⟨.openParen, "", ⟨4, 2⟩⟩, ⟨.number, "x", ⟨0, 0⟩⟩,
      ⟨.number, "-3", ⟨1, 0⟩⟩, ⟨.closeParen, "(", ⟨0, 0⟩⟩, ⟨.operator (.binary .minus), "+", ⟨0, 0⟩⟩]
    ts ≠ [] ∧ (evaluateTokens .reject ts).outcome = .ok ⟨1, 3⟩ ∧
      count .number ts = binaryCount ts + 1 ∧
      (∀ front, front <+: ts → count .closeParen front ≤ count .openParen front) ∧
      count .openParen ts = count .closeParen ts := by
  intro ts
  have nonempty : ts ≠ [] := nofun
  have value : (evaluateTokens .reject ts).outcome = .ok ⟨1, 3⟩ := by decide +kernel
  exact ⟨nonempty, value, counts_of_outcome_evaluateTokens nonempty value⟩

end OneUnknown
