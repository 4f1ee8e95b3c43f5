import OneUnknown.Proofs.Arithmetic
import OneUnknown.Proofs.Evaluation

/-!
# Shape

Whether tokens combine to a single value is a matter of their kinds alone: what the numbers are, and
how divisions are rounded, decides only whether a literal or an operation fails on the way. Two runs
over tokens of the same kinds have stacks of one shape, with equally many operands and the same
operators waiting, until one of them ends with an error other than `malformed`
(`Stacks.read_agree`). So if one run ends with a value, the other does not end with `malformed`
(`not_malformed_of_map_kind_eq`).
-/

namespace OneUnknown

open OneUnknown.Symbol

variable {policy policy' : DivisionPolicy}

/-- The token without its text and its place. -/
def Token.shape (t : Token) : Token := ⟨t.kind, "", ⟨0, 0⟩⟩

theorem Token.map_shape_eq {ts ts' : List Token} (kinds : ts.map kind = ts'.map kind) :
    ts.map shape = ts'.map shape := by
  have of_kind (ts : List Token) : ts.map shape = (ts.map kind).map (⟨·, "", ⟨0, 0⟩⟩) := by
    rw [List.map_map]
    rfl
  rw [of_kind, of_kind, kinds]

/-! ### Outcomes that agree -/

/-- Two outcomes agree if both are values that are related, or both are errors. Where one is an error
other than `malformed`, its run has stopped early and says nothing about the other. -/
inductive Agree {α β : Type} (Related : α → β → Prop) :
    Except EvalError α → Except EvalError β → Prop
  | values {a : α} {b : β} (related : Related a b) : Agree Related (.ok a) (.ok b)
  | errors (e e' : EvalError) : Agree Related (.error e) (.error e')
  | left {e : EvalError} (early : e ≠ .malformed) (y : Except EvalError β) :
    Agree Related (.error e) y
  | right {e : EvalError} (early : e ≠ .malformed) (x : Except EvalError α) :
    Agree Related x (.error e)

namespace Agree

variable {α β γ δ : Type} {R : α → β → Prop} {S : γ → δ → Prop}

theorem bind {x : Except EvalError α} {y : Except EvalError β} (h : Agree R x y)
    {f : α → Except EvalError γ} {g : β → Except EvalError δ}
    (next : ∀ a b, R a b → Agree S (f a) (g b)) : Agree S (x >>= f) (y >>= g) := by
  cases h with
  | values related => exact next _ _ related
  | errors e e' => exact .errors e e'
  | left early => exact .left early _
  | right early => exact .right early _

/-- Two steps that are never malformed agree. -/
theorem of_ne {x : Except EvalError α} {y : Except EvalError β} (hx : x ≠ .error .malformed)
    (hy : y ≠ .error .malformed) : Agree (fun _ _ => True) x y := by
  match x, y with
  | .ok a, .ok b => exact .values trivial
  | .error e, y => exact .left (fun h => hx (h ▸ rfl)) y
  | x, .error e => exact .right (fun h => hy (h ▸ rfl)) x

theorem ne_malformed {a : α} {y : Except EvalError β} (h : Agree R (.ok a) y) :
    y ≠ .error .malformed := by
  cases h with
  | values => exact nofun
  | right early => exact fun same => early (Except.error.inj same)

end Agree

/-! ### Operations -/

/-- Operators find their operands by number only. -/
theorem Operator.applyTo_agree (operator : Operator) {operands operands' : List Linear}
    (same : operands.length = operands'.length) :
    Agree (fun rest rest' => rest.length = rest'.length)
      (operator.applyTo policy operands).outcome
      (operator.applyTo policy' operands').outcome := by
  match operator, operands, operands', same with
  | .negate, [], [], _ | .binary _, [], [], _ | .binary _, [_], [_], _ => exact .errors _ _
  | .negate, operand :: rest, operand' :: rest', same =>
    rw [outcome_applyTo_negate, outcome_applyTo_negate]
    have never (p : Linear) : p.neg ≠ .error .malformed := mt Linear.eq_overflow_of_neg nofun
    exact (Agree.of_ne (never operand) (never operand')).bind fun _ _ _ => .values same
  | .binary op, right :: left :: rest, right' :: left' :: rest', same =>
    rw [outcome_applyTo_binary, outcome_applyTo_binary]
    have never (policy : DivisionPolicy) (p q : Linear) :
        Linear.apply policy op p q ≠ .error .malformed := mt Linear.isArithmetic_of_apply id
    exact (Agree.of_ne (never policy left right) (never policy' left' right')).bind
      fun _ _ _ => .values (Nat.succ.inj same)

/-! ### Stacks -/

namespace Stacks

/-- Stacks of one shape have equally many operands and the same operators. -/
def SameShape (s t : Stacks) : Prop :=
  s.operands.length = t.operands.length ∧ s.operators = t.operators

variable {s t : Stacks}

theorem SameShape.push (h : SameShape s t) (x y : Linear) :
    SameShape ⟨x :: s.operands, s.operators⟩ ⟨y :: t.operands, t.operators⟩ :=
  ⟨congrArg Nat.succ h.1, h.2⟩

theorem SameShape.wait (h : SameShape s t) (o : Pending) :
    SameShape ⟨s.operands, o :: s.operators⟩ ⟨t.operands, o :: t.operators⟩ :=
  ⟨h.1, congrArg (o :: ·) h.2⟩

theorem settle_agree (least : Nat) (h : SameShape s t) :
    Agree SameShape (settle policy least s) (settle policy' least t) := by
  obtain ⟨operands, operators⟩ := s
  obtain ⟨operands', operators'⟩ := t
  obtain ⟨same, rfl⟩ : operands.length = operands'.length ∧ operators = operators' := h
  induction operators generalizing operands operands' with
  | nil =>
    rw [settle_nil, settle_nil]
    exact .values ⟨same, rfl⟩
  | cons top waiting ih =>
    match top with
    | .openParen =>
      rw [settle_openParen, settle_openParen]
      exact .values ⟨same, rfl⟩
    | .operator o =>
      by_cases low : o.priority < least
      · rw [settle_of_lt policy low, settle_of_lt policy' low]
        exact .values ⟨same, rfl⟩
      · rw [settle_of_le policy (Nat.not_lt.1 low), settle_of_le policy' (Nat.not_lt.1 low)]
        exact (o.applyTo_agree same).bind fun rest rest' same => ih rest rest' same

theorem close_agree (h : SameShape s t) : Agree SameShape (close s) (close t) := by
  obtain ⟨operands, operators⟩ := s
  obtain ⟨operands', operators'⟩ := t
  obtain ⟨same, rfl⟩ : operands.length = operands'.length ∧ operators = operators' := h
  match operators with
  | [] | .operator _ :: _ => exact .errors _ _
  | .openParen :: waiting => exact .values ⟨same, rfl⟩

theorem result_agree (h : SameShape s t) : Agree (fun _ _ => True) (result s) (result t) := by
  obtain ⟨operands, operators⟩ := s
  obtain ⟨operands', operators'⟩ := t
  obtain ⟨same, rfl⟩ : operands.length = operands'.length ∧ operators = operators' := h
  match operands, operands', operators, same with
  | [], [], _, _ | _ :: _ :: _, _ :: _ :: _, _, _ | [_], [_], _ :: _, _ => exact .errors _ _
  | [_], [_], [], _ => exact .values trivial

/-- Symbols that differ in a number at most have the same effect on the shape of the stacks. -/
theorem step_agree {u v : Symbol} {f : Token → Token} (same : u.mapToken f = v.mapToken f)
    (h : SameShape s t) :
    Agree SameShape (step policy s u).outcome (step policy' t v).outcome := by
  match u with
  | .literal negated number =>
    obtain ⟨number', rfl⟩ : ∃ number', v = .literal negated number' := by
      cases v <;> simp_all [mapToken]
    rw [outcome_step_literal, outcome_step_literal]
    exact (Agree.of_ne (mapError_ne_error nofun (number.literal negated))
      (mapError_ne_error nofun (number'.literal negated))).bind fun x y _ => .values (h.push x y)
  | .openParen =>
    obtain rfl : v = .openParen := by cases v <;> simp_all [mapToken]
    rw [outcome_step_openParen, outcome_step_openParen]
    exact .values (h.wait _)
  | .closeParen =>
    obtain rfl : v = .closeParen := by cases v <;> simp_all [mapToken]
    rw [outcome_step_closeParen, outcome_step_closeParen]
    exact (settle_agree 0 h).bind fun _ _ => close_agree
  | .operator .negate =>
    obtain rfl : v = .operator .negate := by cases v <;> simp_all [mapToken]
    rw [outcome_step_negate, outcome_step_negate]
    exact .values (h.wait _)
  | .operator (.binary op) =>
    obtain rfl : v = .operator (.binary op) := by cases v <;> simp_all [mapToken]
    rw [outcome_step_binary, outcome_step_binary]
    exact (settle_agree _ h).bind fun _ _ h => .values (h.wait _)

theorem read_agree {us vs : List Symbol} {f : Token → Token}
    (same : us.map (mapToken f) = vs.map (mapToken f)) (h : SameShape s t) :
    Agree SameShape (read policy s us) (read policy' t vs) := by
  induction us generalizing vs s t with
  | nil =>
    obtain rfl := List.map_eq_nil_iff.1 same.symm
    exact .values h
  | cons u us ih =>
    obtain ⟨v, vs, rfl, first, rest⟩ := List.map_eq_cons_iff.1 same.symm
    rw [read_cons, read_cons]
    exact (step_agree first.symm h).bind fun _ _ h => ih rest.symm h

end Stacks

/-- Tokens of the same kinds have outcomes that agree. -/
theorem outcome_evaluateTokens_agree {ts ts' : List Token}
    (kinds : ts.map Token.kind = ts'.map Token.kind) :
    Agree (fun _ _ => True) (evaluateTokens policy ts).outcome
      (evaluateTokens policy' ts').outcome := by
  by_cases none : ts = []
  · subst none
    obtain rfl := List.map_eq_nil_iff.1 kinds.symm
    exact .values trivial
  · have some : ts' ≠ [] := by
      rintro rfl
      exact none (List.map_eq_nil_iff.1 kinds)
    have symbols : (ofTokens ts).map (mapToken Token.shape) =
        (ofTokens ts').map (mapToken Token.shape) := by
      have kept (t : Token) : t.shape.kind = t.kind := rfl
      rw [← ofTokens_map kept, ← ofTokens_map kept, Token.map_shape_eq kinds]
    rw [evaluateTokens_of_ne_nil none, evaluateTokens_of_ne_nil some, outcome_evaluateSymbols,
      outcome_evaluateSymbols]
    exact (Stacks.read_agree symbols ⟨rfl, rfl⟩).bind fun _ _ h =>
      (Stacks.settle_agree 0 h).bind fun _ _ => Stacks.result_agree

/-- If tokens have a value, no tokens of the same kinds are malformed, whatever their texts and
places are and however divisions are rounded. -/
theorem not_malformed_of_map_kind_eq {ts ts' : List Token}
    (kinds : ts.map Token.kind = ts'.map Token.kind) (options options' : Options) {v : Linear}
    (value : (evaluateTokens options.policy ts).outcome = .ok v) :
    (evaluateTokens options'.policy ts').outcome ≠ .error .malformed :=
  (value ▸ outcome_evaluateTokens_agree kinds :
    Agree _ (Except.ok v) (evaluateTokens options'.policy ts').outcome).ne_malformed

/-- The kinds of `x 2 +`, which has a value. -/
theorem not_malformed_unknown_two_plus :
    let ts : List Token := [⟨.number, "x", ⟨0, 1⟩⟩, ⟨.number, "2", ⟨2, 3⟩⟩,
      ⟨.operator (.binary .plus), "+", ⟨4, 5⟩⟩]
    let ts' : List Token := [⟨.number, "9223372036854775807", ⟨7, 3⟩⟩, ⟨.number, " 1 ", ⟨0, 0⟩⟩,
      ⟨.operator (.binary .plus), "", ⟨1, 0⟩⟩]
    ts.map Token.kind = ts'.map Token.kind ∧ (evaluateTokens .truncate ts).outcome = .ok ⟨1, 2⟩ ∧
      (evaluateTokens .reject ts').outcome ≠ .error .malformed := by
  intro ts ts'
  have kinds : ts.map Token.kind = ts'.map Token.kind := rfl
  have value : (evaluateTokens .truncate ts).outcome = .ok ⟨1, 2⟩ := by decide +kernel
  exact ⟨kinds, value, not_malformed_of_map_kind_eq kinds {} { policy := .reject } value⟩

end OneUnknown
