import OneUnknown.Proofs.Outcome

/-!
# Balance

Each literal of a side adds an operand and each binary operator takes one away, so symbols that
evaluate to a value have exactly one literal more than binary operators. Each closing parenthesis
takes an opening one, so their parentheses are balanced (`balanced_of_evaluateSymbols`). Attaching
minus signs to numbers changes neither count.
-/

namespace OneUnknown

/-- What a symbol adds to the operands once all operators have been applied. -/
def Symbol.weight : Symbol → Int
  | .literal .. => 1
  | .operator (.binary _) => -1
  | .operator .negate | .openParen | .closeParen => 0

/-- The literals without the binary operators. -/
def Symbol.surplus : List Symbol → Int
  | [] => 0
  | u :: us => u.weight + surplus us

/-- The number of open parentheses after the symbols, of which `depth` are open before them, if no
parenthesis is closed that is not open. -/
def Symbol.nesting : Nat → List Symbol → Option Nat
  | depth, [] => some depth
  | depth, .openParen :: us => nesting (depth + 1) us
  | 0, .closeParen :: _ => none
  | depth + 1, .closeParen :: us => nesting depth us
  | depth, .literal .. :: us | depth, .operator _ :: us => nesting depth us

/-- What a waiting operator adds to the operands when it is applied. -/
def Pending.weight : Pending → Int
  | .operator (.binary _) => -1
  | .operator .negate | .openParen => 0

/-- What all waiting operators add to the operands. -/
def Pending.surplus : List Pending → Int
  | [] => 0
  | top :: waiting => top.weight + surplus waiting

namespace Stacks

/-- The operands that are left once all operators have been applied. -/
def height (s : Stacks) : Int := s.operands.length + Pending.surplus s.operators

/-- The number of open parentheses. -/
def depth (s : Stacks) : Nat := s.operators.count .openParen

theorem height_push (x : Linear) (s : Stacks) :
    height ⟨x :: s.operands, s.operators⟩ = s.height + 1 := by
  simp only [height, List.length_cons]
  omega

theorem height_wait (o : Pending) (s : Stacks) :
    height ⟨s.operands, o :: s.operators⟩ = s.height + o.weight := by
  simp only [height, Pending.surplus]
  omega

end Stacks

open OneUnknown.Symbol Stacks

variable {policy : DivisionPolicy}

@[simp] theorem surplus_nil : surplus [] = 0 := rfl

@[simp] theorem surplus_cons (u : Symbol) (us : List Symbol) :
    surplus (u :: us) = u.weight + surplus us :=
  rfl

/-! ### Operators -/

theorem length_of_applyTo {operator : Operator} {operands operands' : List Linear}
    (h : (operator.applyTo policy operands).outcome = .ok operands') :
    (operands'.length : Int) = operands.length + (Pending.operator operator).weight := by
  obtain ⟨_, _, rest, rfl, rfl, -, rfl⟩ | ⟨_, _, _, _, rest, rfl, rfl, -, rfl⟩ :=
    Operator.applyTo_cases h
  · simp [Pending.weight]
  · simp only [Pending.weight, List.length_cons]
    omega

/-- Applying operators keeps both counts. -/
theorem balance_of_settle {least : Nat} {s t : Stacks} (h : settle policy least s = .ok t) :
    t.height = s.height ∧ t.depth = s.depth := by
  induction h using settle_induction with
  | stop => exact ⟨rfl, rfl⟩
  | apply o operands operands' waiting t _ applied _ _ ih =>
    obtain ⟨sameHeight, sameDepth⟩ := ih
    have length := length_of_applyTo applied
    refine ⟨?_, ?_⟩
    · rw [sameHeight, height_wait _ ⟨operands, waiting⟩]
      simp only [height, length]
      omega
    · rw [sameDepth]
      simp [depth]

theorem balance_of_close {s t : Stacks} (h : close s = .ok t) :
    t.height = s.height ∧ t.depth + 1 = s.depth := by
  rw [close_eq_ok_iff.1 h]
  simp [height, depth, Pending.surplus, Pending.weight]

/-! ### Symbols -/

theorem nesting_cons (depth : Nat) (u : Symbol) (us : List Symbol) :
    nesting depth (u :: us) = (nesting depth [u]).bind (nesting · us) := by
  match u, depth with
  | .literal .., _ | .operator _, _ | .openParen, _ | .closeParen, 0 | .closeParen, _ + 1 => rfl

/-- One more symbol adds its weight to the stacks, and opens or closes a parenthesis as it does. -/
theorem balance_of_step {s t : Stacks} {u : Symbol} (h : (step policy s u).outcome = .ok t) :
    t.height = s.height + u.weight ∧ nesting s.depth [u] = some t.depth := by
  match u with
  | .literal negated number =>
    rw [outcome_step_literal] at h
    obtain ⟨value, -, same⟩ := bind_eq_ok_iff.1 h
    cases same
    exact ⟨height_push value s, rfl⟩
  | .openParen =>
    rw [outcome_step_openParen] at h
    cases h
    exact ⟨height_wait _ s, by simp [nesting, depth]⟩
  | .closeParen =>
    rw [outcome_step_closeParen] at h
    obtain ⟨s₁, settled, closed⟩ := bind_eq_ok_iff.1 h
    obtain ⟨settledHeight, settledDepth⟩ := balance_of_settle settled
    obtain ⟨closedHeight, closedDepth⟩ := balance_of_close closed
    refine ⟨?_, ?_⟩
    · rw [closedHeight, settledHeight, weight, Int.add_zero]
    · rw [← settledDepth, ← closedDepth]
      rfl
  | .operator .negate =>
    rw [outcome_step_negate] at h
    cases h
    exact ⟨height_wait _ s, by simp [nesting, depth]⟩
  | .operator (.binary op) =>
    rw [outcome_step_binary] at h
    obtain ⟨s₁, settled, same⟩ := bind_eq_ok_iff.1 h
    obtain ⟨settledHeight, settledDepth⟩ := balance_of_settle settled
    cases same
    refine ⟨?_, ?_⟩
    · rw [← settledHeight]
      exact height_wait _ s₁
    · rw [← settledDepth]
      simp [nesting, depth]

/-- Reading symbols adds their surplus to that of the stacks, and opens and closes parentheses as
they do. -/
theorem balance_of_read {s t : Stacks} {us : List Symbol} (h : read policy s us = .ok t) :
    t.height = s.height + surplus us ∧ nesting s.depth us = some t.depth := by
  induction us generalizing s with
  | nil =>
    cases h
    simp [nesting]
  | cons u us ih =>
    rw [read_cons] at h
    obtain ⟨s', stepped, rest⟩ := bind_eq_ok_iff.1 h
    obtain ⟨stepHeight, stepDepth⟩ := balance_of_step stepped
    obtain ⟨restHeight, restDepth⟩ := ih rest
    refine ⟨?_, ?_⟩
    · rw [restHeight, stepHeight, surplus_cons, Int.add_assoc]
    · rw [nesting_cons, stepDepth]
      exact restDepth

/-- Symbols that have a value have one literal more than binary operators, and balanced
parentheses. -/
theorem balanced_of_evaluateSymbols {us : List Symbol} {v : Linear}
    (h : (evaluateSymbols policy us).outcome = .ok v) :
    surplus us = 1 ∧ nesting 0 us = some 0 := by
  rw [outcome_evaluateSymbols] at h
  obtain ⟨s, reading, rest⟩ := bind_eq_ok_iff.1 h
  obtain ⟨t, settled, final⟩ := bind_eq_ok_iff.1 rest
  obtain ⟨readHeight, readDepth⟩ := balance_of_read reading
  obtain ⟨settledHeight, settledDepth⟩ := balance_of_settle settled
  rw [result_eq_ok_iff] at final
  subst final
  rw [← settledHeight] at readHeight
  rw [← settledDepth] at readDepth
  refine ⟨?_, readDepth⟩
  simpa [height, Stacks.empty, Pending.surplus] using readHeight.symm

/-! ### Attached minus signs -/

theorem surplus_attach (u : Symbol) (us : List Symbol) :
    surplus (attach u us) = surplus (u :: us) := by
  unfold attach
  split <;> simp [weight]

theorem nesting_attach (depth : Nat) (u : Symbol) (us : List Symbol) :
    nesting depth (attach u us) = nesting depth (u :: us) := by
  unfold attach
  split <;> simp [nesting]

theorem surplus_foldr_attach (us : List Symbol) :
    surplus (us.foldr attach []) = surplus us := by
  induction us with
  | nil => rfl
  | cons u us ih => rw [List.foldr_cons, surplus_attach, surplus_cons, surplus_cons, ih]

theorem nesting_foldr_attach (depth : Nat) (us : List Symbol) :
    nesting depth (us.foldr attach []) = nesting depth us := by
  induction us generalizing depth with
  | nil => rfl
  | cons u us ih =>
    rw [List.foldr_cons, nesting_attach]
    match u, depth with
    | .literal .., _ | .operator _, _ | .openParen, _ | .closeParen, _ + 1 =>
      simp only [nesting, ih]
    | .closeParen, 0 => rfl

end OneUnknown
