import OneUnknown.Proofs.Arithmetic
import OneUnknown.Proofs.Evaluation

/-!
# Rejected divisions

To reject quotients that are not whole changes a run in one way only: it ends at the first division
whose quotient would have been rounded, with that division as the last event of its log. Up to there,
and throughout if no quotient is rounded, the run is the same, log and outcome (`Rejects`). Every
stage keeps this relation between its two runs, because computations that are carried on keep it
(`Rejects.bind`); so it holds of tokens and of lines (`rejects_tokens_and_lines`).
-/

namespace OneUnknown

/-- The event is a division that has a quotient, but one that is not whole in both fields. -/
def Event.Rounds : Event → Prop
  | .operation left .divide right =>
    (∃ quotient, left.div .truncate right = .ok quotient) ∧ ¬ left.Divisible right.constant
  | _ => False

/-- How the run that rejects inexact quotients with `error` compares to the one that rounds them. -/
structure Rejects {ε α : Type} (error : ε) (rounding rejecting : Logged ε α) : Prop where
  /-- To round is no error. -/
  never : rounding.outcome ≠ .error error
  /-- Where no quotient is rounded, the runs are the same. -/
  same : (∀ event ∈ rounding.log, ¬ event.Rounds) → rejecting = rounding
  /-- Where one is rounded, the other run ends at the first such division. -/
  stops : (∃ event ∈ rounding.log, event.Rounds) → ∃ before event after,
    rounding.log = before ++ event :: after ∧ (∀ exact ∈ before, ¬ exact.Rounds) ∧ event.Rounds ∧
      rejecting = ⟨before ++ [event], .error error⟩

/-! ### Divisions -/

theorem Linear.div_reject (p q : Linear) :
    p.div .reject q = p.div .truncate q >>= fun quotient =>
      if p.Divisible q.constant then .ok quotient else .error .inexactDivision := by
  unfold div
  split
  · rfl
  split
  · rfl
  · cases checked (p.coefficient.quot? q.constant) with
    | error e => rfl
    | ok a =>
      cases checked (p.constant.quot? q.constant) with
      | error e => rfl
      | ok b => by_cases exact : p.Divisible q.constant <;> simp [exact]

namespace Rejects

variable {ε ε' α β : Type} {error : ε}

/-- Runs that are the same and round nothing. -/
theorem of_exact {x : Logged ε α} (never : x.outcome ≠ .error error)
    (exact : ∀ event ∈ x.log, ¬ event.Rounds) : Rejects error x x where
  never := never
  same _ := rfl
  stops := fun ⟨event, mem, rounds⟩ => absurd rounds (exact event mem)

/-- Runs of which one ends at a division that the other rounds first. -/
theorem of_rounds {x : Logged ε α} (never : x.outcome ≠ .error error) {before after : List Event}
    {event : Event} (log : x.log = before ++ event :: after)
    (exact : ∀ event ∈ before, ¬ event.Rounds) (rounds : event.Rounds) :
    Rejects error x ⟨before ++ [event], .error error⟩ where
  never := never
  same none := absurd rounds (none event (by simp [log]))
  stops _ := ⟨before, event, after, log, exact, rounds, rfl⟩

theorem ofExcept {x : Except ε α} (never : x ≠ .error error) :
    Rejects error (Logged.ofExcept x) (Logged.ofExcept x) :=
  of_exact never nofun

theorem pure (a : α) : Rejects error (Pure.pure a : Logged ε α) (Pure.pure a) :=
  ofExcept nofun

theorem note {event : Event} (exact : ¬ event.Rounds) :
    Rejects error (Logged.note event) (Logged.note event) :=
  of_exact nofun fun other mem => by rwa [List.mem_singleton.1 mem]

/-- Computations that go on from the same value keep the relation. -/
theorem bind {x y : Logged ε α} (h : Rejects error x y) {f g : α → Logged ε β}
    (next : ∀ a, Rejects error (f a) (g a)) : Rejects error (x >>= f) (y >>= g) := by
  have never : (x >>= f).outcome ≠ .error error := by
    rw [Logged.outcome_bind]
    exact bind_ne_error h.never fun a => (next a).never
  by_cases rounds : ∃ event ∈ x.log, event.Rounds
  · obtain ⟨before, event, after, log, exact, rounds, rfl⟩ := h.stops rounds
    obtain ⟨more, whole⟩ : ∃ more, (x >>= f).log = x.log ++ more := by
      cases value : x.outcome with
      | error e => exact ⟨[], by rw [Logged.bind_of_error value, List.append_nil]⟩
      | ok a => exact ⟨(f a).log, by rw [Logged.bind_of_ok value]⟩
    have log : (x >>= f).log = before ++ event :: (after ++ more) := by
      rw [whole, log, List.append_assoc, List.cons_append]
    exact of_rounds never log exact rounds
  · have exact : ∀ event ∈ x.log, ¬ event.Rounds := fun event mem r => rounds ⟨event, mem, r⟩
    rw [h.same exact]
    cases value : x.outcome with
    | error e =>
      rw [Logged.bind_of_error value] at never ⊢
      rw [Logged.bind_of_error value]
      exact of_exact never exact
    | ok a =>
      rw [Logged.bind_of_ok value] at never ⊢
      rw [Logged.bind_of_ok value]
      by_cases later : ∃ event ∈ (f a).log, event.Rounds
      · obtain ⟨before, event, after, log, others, last, stopped⟩ := (next a).stops later
        rw [stopped, ← List.append_assoc]
        rw [log, ← List.append_assoc] at never ⊢
        refine of_rounds never rfl ?_ last
        exact fun other mem => (List.mem_append.1 mem).elim (exact other) (others other)
      · have others : ∀ event ∈ (f a).log, ¬ event.Rounds :=
          fun event mem r => later ⟨event, mem, r⟩
        rw [(next a).same others]
        exact of_exact never fun other mem =>
          (List.mem_append.1 mem).elim (exact other) (others other)

theorem foldlM {σ υ : Type} {f g : σ → υ → Logged ε σ} (step : ∀ s u, Rejects error (f s u) (g s u))
    (us : List υ) (s : σ) : Rejects error (us.foldlM f s) (us.foldlM g s) := by
  induction us generalizing s with
  | nil => exact pure s
  | cons u us ih => exact (step s u).bind fun s => ih s

theorem mapError {f : ε → ε'} (injective : ∀ {a b}, f a = f b → a = b) {x y : Logged ε α}
    (h : Rejects error x y) : Rejects (f error) (x.mapError f) (y.mapError f) where
  never := by
    rw [Logged.outcome_mapError]
    cases value : x.outcome with
    | ok a => exact nofun
    | error e => exact fun same => h.never (injective (Except.error.inj same) ▸ value)
  same exact := by rw [h.same exact]
  stops rounds := by
    obtain ⟨before, event, after, log, exact, first, rfl⟩ := h.stops rounds
    exact ⟨before, event, after, log, exact, first, rfl⟩

end Rejects

/-! ### Reduction -/

theorem Linear.apply_truncate_ne_inexact (op : BinaryOp) (p q : Linear) :
    apply .truncate op p q ≠ .error .inexactDivision :=
  mt isArithmetic_of_apply (by decide : DivisionPolicy.truncate ≠ .reject)

theorem Operator.applyTo_rejects (operator : Operator) (operands : List Linear) :
    Rejects .inexactDivision (operator.applyTo .truncate operands)
      (operator.applyTo .reject operands) := by
  match operator, operands with
  | .negate, [] | .binary _, [] | .binary _, [_] => exact .ofExcept nofun
  | .negate, operand :: rest =>
    rw [applyTo_negate, applyTo_negate]
    refine .of_exact (bind_ne_error (mt Linear.eq_overflow_of_neg nofun) nofun) ?_
    simp [Event.Rounds]
  | .binary op, right :: left :: rest =>
    rw [applyTo_binary, applyTo_binary]
    have never : Linear.apply .truncate op left right >>= (fun value => .ok (value :: rest)) ≠
        .error .inexactDivision :=
      bind_ne_error (Linear.apply_truncate_ne_inexact op left right) nofun
    match op with
    | .plus | .minus | .times => exact .of_exact never (by simp [Event.Rounds])
    | .divide =>
      simp only [Linear.apply] at never ⊢
      rw [Linear.div_reject]
      cases quotient : left.div .truncate right with
      | error e =>
        rw [quotient] at never
        exact .of_exact never (by simp [Event.Rounds, quotient])
      | ok value =>
        by_cases exact : left.Divisible right.constant
        · simp only [ok_bind, if_pos exact]
          exact .of_exact nofun (by simp [Event.Rounds, exact])
        · simp only [ok_bind, if_neg exact]
          have rounds : (Event.operation left .divide right).Rounds := ⟨⟨value, quotient⟩, exact⟩
          refine ⟨nofun, fun none => absurd rounds (none _ List.mem_cons_self), fun _ => ?_⟩
          exact ⟨[], .operation left .divide right, [], rfl, by simp, rounds, rfl⟩

namespace Stacks

theorem reduce_rejects (least : Nat) (operands : List Linear) (waiting : List Pending) :
    Rejects .inexactDivision (reduce .truncate least operands waiting)
      (reduce .reject least operands waiting) := by
  induction waiting generalizing operands with
  | nil => exact .pure _
  | cons top waiting ih =>
    match top with
    | .openParen => exact .pure _
    | .operator o =>
      unfold reduce
      split
      · exact .pure _
      · exact (o.applyTo_rejects operands).bind ih

theorem step_rejects (s : Stacks) (u : Symbol) :
    Rejects .inexactDivision (step .truncate s u) (step .reject s u) := by
  match u with
  | .literal negated number =>
    exact (Rejects.ofExcept (mapError_ne_error nofun (number.literal negated))).bind
      fun _ => .pure _
  | .openParen | .operator .negate => exact .pure _
  | .closeParen =>
    refine (reduce_rejects 0 s.operands s.operators).bind fun t => ?_
    split
    · exact .pure _
    · exact .ofExcept nofun
  | .operator (.binary op) => exact (reduce_rejects _ s.operands s.operators).bind fun _ => .pure _

theorem finish_rejects (s : Stacks) :
    Rejects .inexactDivision (finish .truncate s) (finish .reject s) := by
  refine (reduce_rejects 0 s.operands s.operators).bind fun t => ?_
  split
  · exact .pure _
  · exact .ofExcept nofun

end Stacks

theorem evaluateTokens_rejects (ts : List Token) :
    Rejects .inexactDivision (evaluateTokens .truncate ts) (evaluateTokens .reject ts) := by
  unfold evaluateTokens
  split
  · exact .pure _
  · exact (Rejects.foldlM Stacks.step_rejects _ _).bind Stacks.finish_rejects

/-! ### Lines -/

theorem evaluate_rejects (source : String) :
    Rejects .inexactDivision (evaluate .truncate source) (evaluate .reject source) := by
  refine (Rejects.ofExcept (mapError_ne_error nofun (Token.tokenize source))).bind fun ts =>
    (evaluateTokens_rejects ts).bind fun value => ?_
  have exact : ¬ (Event.evaluated source value).Rounds := id
  exact (Rejects.note exact).bind fun _ => .pure value

theorem Equation.parse_rejects (line : String) :
    Rejects (.evaluation .inexactDivision) (parse .truncate line) (parse .reject line) := by
  unfold parse
  split
  · refine Rejects.mapError SolveError.evaluation.inj ?_
    exact (evaluate_rejects _).bind fun _ => (evaluate_rejects _).bind fun _ => .pure _
  · exact .ofExcept nofun

theorem Equation.solve_rejects (e : Equation) :
    Rejects (.evaluation .inexactDivision) e.solve e.solve := by
  have never (word? : Option Word) : Linear.checked word? ≠ .error .inexactDivision :=
    mt Linear.eq_overflow_of_checked nofun
  refine Rejects.mapError SolveError.evaluation.inj ?_
  refine (Rejects.ofExcept (never _)).bind fun a => (Rejects.ofExcept (never _)).bind fun b => ?_
  have exact : ¬ (Event.solving a b).Rounds := id
  exact (Rejects.note exact).bind fun _ => .ofExcept (mt Solution.eq_overflow_of_ofEquation nofun)

/-- To reject inexact quotients only ever ends a run early: at the first division that would have
been rounded, for all lines and for all tokens. -/
theorem rejects_tokens_and_lines :
    (∀ line : String, Rejects (.evaluation .inexactDivision) (solve .truncate line)
      (solve .reject line)) ∧
    ∀ ts : List Token,
      Rejects .inexactDivision (evaluateTokens .truncate ts) (evaluateTokens .reject ts) :=
  ⟨fun line => (Equation.parse_rejects line).bind Equation.solve_rejects, evaluateTokens_rejects⟩

/-- The product on the other side of the division is never reached. -/
example : (evaluate .reject "7/2 + x*x").outcome = .error .inexactDivision ∧
    (evaluate .truncate "7/2 + x*x").outcome = .error .nonlinear := by
  decide +kernel

end OneUnknown
