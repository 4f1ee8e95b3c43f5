import OneUnknown.Machine.Evaluation
import OneUnknown.Proofs.Arithmetic
import OneUnknown.Proofs.Evaluation
import OneUnknown.Proofs.Machine.Lexing

/-!
# Evaluation on a machine

A machine evaluates every sequence of tokens without a fault, to the same outcome
(`evaluateTokens_eq`). Whether a quotient is whole is asked only after both quotients have been
found to be words, a literal is read only of a number, and what is applied is never a parenthesis.
-/

namespace OneUnknown.Machine

open Run

variable {ε : Type} {policy : DivisionPolicy}

/-! ### Words -/

namespace Word

variable {a b : Word}

theorem hasQuotient_iff : HasQuotient a b ↔ Word.Fits (a.toInt.tdiv b.toInt) := by
  constructor
  · intro quotient
    by_contra out
    have nonzero : b.toInt ≠ 0 := by
      intro zero
      rw [zero, Int.tdiv_zero] at out
      exact out (by decide)
    have minusOne := Word.eq_neg_one_of_not_fits_tdiv (Word.fits_toInt a) nonzero out
    refine quotient ⟨Int64.toInt_inj.1 ?_, Int64.toInt_inj.1 minusOne⟩
    have low := Word.fits_toInt a
    rw [minusOne, Int.tdiv_neg, Int.tdiv_one] at out
    rw [Int64.toInt_minValue]
    unfold Word.Fits at low out
    omega
  · rintro fits ⟨rfl, rfl⟩
    exact absurd fits (by decide)

theorem toInt_div (h : HasQuotient a b) : (a / b).toInt = a.toInt.tdiv b.toInt := by
  rcases not_and_or.1 h with left | right
  · exact Int64.toInt_div_of_ne_left a b left
  · exact Int64.toInt_div_of_ne_right a b right

theorem hasQuotient_of_quot? {w : Word} (h : a.quot? b = some w) : HasQuotient a b := by
  rw [hasQuotient_iff, ← Word.ofInt?_eq_some_iff.1 h]
  exact Word.fits_toInt w

theorem div_eq (nonzero : b ≠ 0) (h : HasQuotient a b) : (div a b : Run ε _) = .ok (a / b) := by
  rw [div, ensure_of nonzero, ensure_of h]
  rfl

theorem rem_eq (nonzero : b ≠ 0) (h : HasQuotient a b) : (rem a b : Run ε _) = .ok (a % b) := by
  rw [rem, ensure_of nonzero, ensure_of h]
  rfl

theorem mod_eq_zero_iff : a % b = 0 ↔ b.toInt ∣ a.toInt := by
  rw [← Word.toInt_eq_zero_iff, Int64.toInt_mod, Int.dvd_iff_tmod_eq_zero]

end Word

/-! ### Forms -/

theorem literal_eq {t : Token} (number : t.kind = .number) (negated : Bool) :
    literal negated t = sound ((t.literal negated).mapError .read) := by
  rw [literal, ensure_of number, ok_bind, mapError_sound]

theorem divisible_eq {p : Linear} {n : Word} (nonzero : n ≠ 0)
    (coefficient : Word.HasQuotient p.coefficient n) (constant : Word.HasQuotient p.constant n) :
    divisible p n = .ok (decide (p.Divisible n)) := by
  rw [divisible, Word.rem_eq nonzero coefficient, Word.rem_eq nonzero constant]
  simp only [ok_bind, pure_eq_ok, Word.mod_eq_zero_iff, Linear.Divisible]
  split <;> simp_all

theorem divide_eq (p q : Linear) : divide policy p q = sound (p.div policy q) := by
  unfold divide Linear.div
  split
  · rfl
  split
  · rfl
  next nonzero =>
    cases coefficient : p.coefficient.quot? q.constant with
    | none => rfl
    | some m =>
      cases constant : p.constant.quot? q.constant with
      | none => rfl
      | some n =>
        -- Both quotients are words here, so the remainders are defined.
        simp only [Linear.checked_some, sound_ok, ok_bind]
        rw [divisible_eq nonzero (Word.hasQuotient_of_quot? coefficient)
          (Word.hasQuotient_of_quot? constant)]
        simp only [ok_bind, decide_eq_true_eq, and_comm]
        split <;> rfl

theorem combine_eq (p : Linear) (op : BinaryOp) (q : Linear) :
    combine policy p op q = sound (Linear.apply policy op p q) := by
  cases op with
  | plus | minus | times => rfl
  | divide => exact divide_eq p q

/-! ### Stacks -/

theorem applyPending_bind {α : Type} (operator : Operator) (operands : List Linear)
    (f : List Linear → Run EvalError α) :
    (applyPending policy operands (.operator operator) >>= fun result =>
      f (result.1 :: result.2)) =
      sound (operator.applyTo policy operands).outcome >>= f := by
  match operator, operands with
  | .negate, [] | .binary _, [] | .binary _, [_] => rfl
  | .negate, operand :: rest =>
    rw [Operator.outcome_applyTo_negate, applyPending]
    simp only [pop, pure_eq_ok, ok_bind]
    cases operand.neg <;> rfl
  | .binary op, right :: left :: rest =>
    rw [Operator.outcome_applyTo_binary, applyPending]
    simp only [pop, pure_eq_ok, ok_bind, combine_eq]
    cases Linear.apply policy op left right <;> rfl

theorem reduce_eq (least : Nat) (operands : List Linear) (waiting : List Pending) :
    reduce policy least operands waiting =
      sound (Stacks.settle policy least ⟨operands, waiting⟩) := by
  induction waiting generalizing operands with
  | nil =>
    rw [Stacks.settle_nil]
    rfl
  | cons top waiting ih =>
    match top with
    | .openParen =>
      rw [Stacks.settle_openParen]
      rfl
    | .operator o =>
      by_cases low : o.priority < least
      · rw [Stacks.settle_of_lt policy low, reduce]
        exact if_pos (Or.inr low)
      · rw [Stacks.settle_of_le policy (Nat.not_lt.1 low), reduce, if_neg (by simp [low, priority]),
          sound_bind, ← funext ih]
        exact applyPending_bind o operands fun operands => reduce policy least operands waiting

theorem pushBinary_eq (s : Stacks) (op : BinaryOp) :
    pushBinary policy s op =
      sound (Stacks.step policy s (.operator (.binary op))).outcome := by
  rw [pushBinary, reduce_eq, Stacks.outcome_step_binary, sound_bind]
  rfl

theorem step_eq (s : Stacks) (t : Token) :
    step policy s t = sound (Stacks.step policy s (Symbol.ofToken t)).outcome := by
  unfold step
  cases kind : t.kind with
  | number =>
    simp only [Symbol.ofToken, kind, Stacks.outcome_step_literal, literal_eq kind, sound_bind]
    rfl
  | openParen => simp [Symbol.ofToken, kind, Stacks.outcome_step_openParen]
  | closeParen =>
    simp only [Symbol.ofToken, kind, Stacks.outcome_step_closeParen, reduce_eq, sound_bind]
    congr 1
    funext s
    unfold Stacks.close
    split <;> simp_all
  | operator o =>
    cases o with
    | negate => simp [Symbol.ofToken, kind, Stacks.outcome_step_negate]
    | binary op =>
      simp only [Symbol.ofToken, kind]
      exact pushBinary_eq s op

/-! ### Tokens -/

/-- What a symbol that is no bare number is attached to does not start with a bare number. -/
theorem exists_attach {u : Symbol} (h : ∀ n, u ≠ .literal false n) (rest : List Symbol) :
    ∃ w tail, Symbol.attach u rest = w :: tail ∧ ∀ n, w ≠ .literal false n := by
  unfold Symbol.attach
  split
  · exact ⟨_, _, rfl, nofun⟩
  · exact ⟨_, _, rfl, nofun⟩
  · exact ⟨u, rest, rfl, h⟩

/-- To look at the next token is enough to know whether a sign is attached to a number. -/
theorem ofTokens_cons {t next : Token} (alone : ¬ Folds t next) (ts : List Token) :
    Symbol.ofTokens (t :: next :: ts) = Symbol.ofToken t :: Symbol.ofTokens (next :: ts) := by
  change Symbol.attach (Symbol.ofToken t) (Symbol.ofTokens (next :: ts)) = _
  rcases not_and_or.1 alone with other | other
  · cases kind : t.kind with
    | number | openParen | closeParen =>
      simp only [Symbol.ofToken, kind]
      rfl
    | operator o =>
      simp only [Symbol.ofToken, kind]
      match o with
      | .negate | .binary .minus => exact absurd kind (by simp_all)
      | .binary .plus | .binary .times | .binary .divide => rfl
  · have named : ∀ n, Symbol.ofToken next ≠ .literal false n := by
      cases kind : next.kind <;> simp_all [Symbol.ofToken]
    obtain ⟨w, tail, first, different⟩ := exists_attach named (Symbol.ofTokens ts)
    have rest : Symbol.ofTokens (next :: ts) = w :: tail := first
    rw [rest, Expr.attach_of_ne different]

theorem ofTokens_of_folds {t next : Token} (folds : Folds t next) (ts : List Token) :
    Symbol.ofTokens (t :: next :: ts) =
      if t.kind = .operator (.binary .minus) then
        .operator (.binary .plus) :: .literal true next :: Symbol.ofTokens ts
      else .literal true next :: Symbol.ofTokens ts := by
  obtain ⟨sign, number⟩ := folds
  change Symbol.attach (Symbol.ofToken t) (Symbol.ofTokens (next :: ts)) = _
  rw [Symbol.ofTokens_cons_of_number number]
  rcases sign with kind | kind
  · simp only [Symbol.ofToken, kind]
    rfl
  · simp only [Symbol.ofToken, kind]
    rfl

theorem foldedStep_bind {t next : Token} (folds : Folds t next) (s : Stacks) (ts : List Token) :
    (foldedStep policy s t next >>= fun s => sound (Stacks.read policy s (Symbol.ofTokens ts))) =
      sound (Stacks.read policy s (Symbol.ofTokens (t :: next :: ts))) := by
  rw [ofTokens_of_folds folds, foldedStep]
  split
  · rw [pushBinary_eq, Stacks.read_cons, sound_bind]
    simp only [Stacks.read_literal, sound_bind, literal_eq folds.2, bind_assoc, pure_eq_ok, ok_bind]
  · simp only [Stacks.read_literal, sound_bind, literal_eq folds.2, bind_assoc, pure_eq_ok, ok_bind]

theorem scan_eq (s : Stacks) (ts : List Token) :
    scan policy s ts = sound (Stacks.read policy s (Symbol.ofTokens ts)) := by
  fun_induction scan policy s ts with
  | case1 s => rfl
  | case2 s t =>
    have symbols : Symbol.ofTokens [t] = [Symbol.ofToken t] := Symbol.attach_nil (Symbol.ofToken t)
    rw [symbols, Stacks.read_cons, step_eq, sound_bind]
    exact (bind_ok _).symm
  | case3 s t next ts folds ih =>
    rw [← foldedStep_bind folds]
    exact congrArg _ (funext ih)
  | case4 s t next ts alone ih =>
    rw [ofTokens_cons alone, Stacks.read_cons, sound_bind, ← step_eq]
    exact congrArg _ (funext ih)

theorem finish_eq (s : Stacks) :
    finish policy s = sound (Stacks.finish policy s).outcome := by
  rw [finish, reduce_eq, Stacks.outcome_finish, sound_bind]
  congr 1
  funext s
  match s with
  | ⟨[], _⟩ | ⟨[_], []⟩ | ⟨[_], _ :: _⟩ | ⟨_ :: _ :: _, _⟩ => simp [Stacks.result, pop]

/-- A machine evaluates all tokens without a fault, whatever their kinds, texts and spans are. -/
theorem evaluateTokens_eq (ts : List Token) :
    evaluateTokens policy ts = sound (OneUnknown.evaluateTokens policy ts).outcome := by
  unfold evaluateTokens OneUnknown.evaluateTokens
  split
  · rfl
  · simp only [evaluateSymbols, Logged.outcome_bind, sound_bind, scan_eq, finish_eq]
    rfl

theorem evaluate_eq (source : String) :
    evaluate policy source = sound (OneUnknown.evaluate policy source).outcome := by
  rw [evaluate, tokenize_eq, mapError_sound, funext evaluateTokens_eq, ← sound_bind]
  simp [OneUnknown.evaluate, bind_ok]

end OneUnknown.Machine
