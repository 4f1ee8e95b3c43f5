import OneUnknown.Proofs.Counts
import OneUnknown.Proofs.LowestTerms
import OneUnknown.Proofs.Replay

/-!
# What a log holds

Each operator among the symbols of a side waits until it is applied, once, and tells of it in one
event. So a run that ends with a value has told of as many operations as it has read operators and
left none waiting, and a run that fails of at most as many, of which only the last one can fail
(`Accounts`). The log of a line is put together of those of its sides, each with its value, and of
the equation that they make, as far as the evaluation comes (`log_solve_of_sides`).
-/

namespace OneUnknown

/-! ### Operators that are applied -/

/-- The number of operators among the symbols. -/
def Symbol.operatorCount : List Symbol → Nat
  | [] => 0
  | .operator _ :: us => operatorCount us + 1
  | _ :: us => operatorCount us

/-- The number of operators among those that wait. -/
def Pending.operatorCount : List Pending → Nat
  | [] => 0
  | .operator _ :: waiting => operatorCount waiting + 1
  | .openParen :: waiting => operatorCount waiting

/-- The number of negations that no number follows directly. -/
def Token.loneNegations : List Token → Nat
  | [] => 0
  | t :: ts =>
    (if t.kind = .operator .negate ∧ ∀ u ∈ ts.head?, u.kind ≠ .number then 1 else 0) +
      loneNegations ts

namespace Symbol

open Machine (Folds)
open Token (binaryCount binaryCount_cons loneNegations)

@[simp] theorem operatorCount_operator (o : Operator) (us : List Symbol) :
    operatorCount (.operator o :: us) = operatorCount us + 1 := rfl

@[simp] theorem operatorCount_literal (negated : Bool) (number : Token) (us : List Symbol) :
    operatorCount (.literal negated number :: us) = operatorCount us := rfl

theorem operatorCount_cons (u : Symbol) (us : List Symbol) :
    operatorCount (u :: us) = operatorCount [u] + operatorCount us := by
  cases u with
  | operator o => exact Nat.add_comm _ 1
  | literal negated number => exact (Nat.zero_add _).symm
  | openParen => exact (Nat.zero_add _).symm
  | closeParen => exact (Nat.zero_add _).symm

/-- A token that stands alone is an operator between two operands or a negation, or it is none. -/
theorem operatorCount_ofToken (t : Token) :
    operatorCount [ofToken t] =
      binaryCount [t] + if t.kind = .operator .negate then 1 else 0 := by
  obtain ⟨kind, text, span⟩ := t
  rcases kind with _ | _ | _ | (op | _) <;> rfl

/-- Among the symbols of tokens, a minus sign before a number is an operator only if it stands
between two operands. -/
theorem operatorCount_ofTokens (ts : List Token) :
    operatorCount (ofTokens ts) = binaryCount ts + loneNegations ts := by
  induction ts with
  | nil => rfl
  | cons t ts ih =>
    rw [binaryCount_cons t ts, loneNegations]
    cases ts with
    | nil =>
      have alone : ofTokens [t] = [ofToken t] := attach_nil (ofToken t)
      rw [alone, operatorCount_ofToken]
      simp [binaryCount, loneNegations]
    | cons next ts =>
      by_cases folds : Folds t next
      · rw [Machine.ofTokens_of_folds folds]
        obtain ⟨sign, number⟩ := folds
        rw [ofTokens_cons_of_number number, operatorCount_literal] at ih
        obtain ⟨kind, text, span⟩ := t
        rcases sign with minus | negation
        · obtain rfl : kind = _ := minus
          have one : binaryCount [⟨.operator (.binary .minus), text, span⟩] = 1 := rfl
          rw [if_pos rfl, if_neg (by simp), one, operatorCount_operator, operatorCount_literal, ih]
          omega
        · obtain rfl : kind = _ := negation
          have none : binaryCount [⟨.operator .negate, text, span⟩] = 0 := rfl
          rw [if_neg (by simp), if_neg (by simp [number]), none, operatorCount_literal, ih]
          omega
      · have alone : (t.kind = .operator .negate ∧ ∀ u ∈ (next :: ts).head?, u.kind ≠ .number) ↔
            t.kind = .operator .negate := by
          refine and_iff_left_of_imp fun negation => ?_
          rintro _ ⟨⟩ number
          exact folds ⟨Or.inr negation, number⟩
        rw [Machine.ofTokens_cons folds, operatorCount_cons, operatorCount_ofToken, ih]
        simp only [alone]
        omega

end Symbol

/-! ### Runs -/

/-- The event is of an operation with a value. -/
def Event.Succeeds (policy : DivisionPolicy) (event : Event) : Prop :=
  ∃ v, event.announced? policy = some (.ok v)

/-- A run may tell of `budget` operations. With a value it has told of all of them but those that
the value leaves to be told of later, and with an error of no more. An operation that fails is the
last one that is told of. -/
structure Accounts {α : Type} (policy : DivisionPolicy) (budget : Nat) (left : α → Nat)
    (run : Evaluation α) : Prop where
  exact : ∀ a, run.outcome = .ok a → run.log.length + left a = budget
  bounded : run.log.length ≤ budget
  value : ∀ a, run.outcome = .ok a → ∀ event ∈ run.log, event.Succeeds policy
  before : ∀ event ∈ run.log.dropLast, event.Succeeds policy

variable {policy : DivisionPolicy}

namespace Accounts

variable {α β : Type} {budget : Nat} {left : α → Nat} {left' : β → Nat}

/-- A run without an event. -/
theorem of_silent {x : Except EvalError α} (kept : ∀ a, x = .ok a → left a = budget) :
    Accounts policy budget left (Logged.ofExcept x) where
  exact a value := (Nat.zero_add _).trans (kept a value)
  bounded := Nat.zero_le _
  value := nofun
  before := nofun

/-- What is left to be told of may be more from the start. -/
theorem add {x : Evaluation α} (h : Accounts policy budget left x) (n : Nat) :
    Accounts policy (budget + n) (fun a => left a + n) x where
  exact a value := by
    rw [← Nat.add_assoc, h.exact a value]
  bounded := Nat.le_add_right_of_le h.bounded
  value := h.value
  before := h.before

theorem bind {x : Evaluation α} (h : Accounts policy budget left x) {f : α → Evaluation β}
    (next : ∀ a, x.outcome = .ok a → Accounts policy (left a) left' (f a)) :
    Accounts policy budget left' (x >>= f) := by
  cases outcome : x.outcome with
  | error e =>
    rw [Logged.bind_of_error outcome]
    exact ⟨nofun, h.bounded, nofun, h.before⟩
  | ok a =>
    have spent := h.exact a outcome
    have earlier := h.value a outcome
    have later := next a outcome
    rw [Logged.bind_of_ok outcome]
    constructor
    case exact =>
      intro b value
      have rest := later.exact b value
      rw [List.length_append]
      omega
    case bounded =>
      have rest := later.bounded
      rw [List.length_append]
      omega
    case value =>
      exact fun b value event mem =>
        (List.mem_append.1 mem).elim (earlier event) (later.value b value event)
    case before =>
      intro event mem
      by_cases none : (f a).log = []
      · rw [none, List.append_nil] at mem
        exact earlier event ((List.dropLast_sublist _).subset mem)
      · rw [List.dropLast_append_of_ne_nil none] at mem
        exact (List.mem_append.1 mem).elim (earlier event) (later.before event)

end Accounts

/-- An operator tells of itself unless it lacks an operand. -/
theorem Operator.applyTo_accounts (operator : Operator) (operands : List Linear) (n : Nat) :
    Accounts policy (n + 1) (fun _ => n) (operator.applyTo policy operands) := by
  have single (event : Event) (x : Except EvalError Linear) (rest : List Linear)
      (announced : event.announced? policy = some x) :
      Accounts policy (n + 1) (fun _ => n)
        (⟨[event], x >>= fun value => .ok (value :: rest)⟩ : Evaluation (List Linear)) := by
    refine ⟨fun _ _ => Nat.add_comm 1 n, Nat.le_add_left 1 n, ?_, nofun⟩
    intro operands' value other mem
    obtain ⟨v, result, -⟩ := bind_eq_ok_iff.1 value
    rw [List.mem_singleton.1 mem]
    exact ⟨v, result ▸ announced⟩
  match operator, operands with
  | .negate, [] | .binary _, [] | .binary _, [_] => exact .of_silent nofun
  | .negate, operand :: rest =>
    rw [applyTo_negate]
    exact single _ _ rest rfl
  | .binary op, right :: left :: rest =>
    rw [applyTo_binary]
    exact single _ _ rest rfl

namespace Stacks

/-- The number of operators that wait. -/
def waitingCount (s : Stacks) : Nat := Pending.operatorCount s.operators

theorem reduce_accounts (least : Nat) (operands : List Linear) (waiting : List Pending) :
    Accounts policy (Pending.operatorCount waiting) waitingCount
      (reduce policy least operands waiting) := by
  induction waiting generalizing operands with
  | nil => exact .of_silent fun _ same => Except.ok.inj same ▸ rfl
  | cons top waiting ih =>
    match top with
    | .openParen => exact .of_silent fun _ same => Except.ok.inj same ▸ rfl
    | .operator o =>
      unfold reduce
      split
      · exact .of_silent fun _ same => Except.ok.inj same ▸ rfl
      · exact (o.applyTo_accounts operands _).bind fun operands _ => ih operands

/-- A symbol tells of operators that wait, and an operator waits itself. -/
theorem step_accounts (s : Stacks) (u : Symbol) :
    Accounts policy (s.waitingCount + Symbol.operatorCount [u]) waitingCount (step policy s u) := by
  match u with
  | .literal negated number =>
    have value : Accounts policy s.waitingCount (fun _ => s.waitingCount)
        (Logged.ofExcept ((number.literal negated).mapError .read)) := .of_silent fun _ _ => rfl
    exact value.bind fun v _ => .of_silent fun _ same => Except.ok.inj same ▸ rfl
  | .openParen | .operator .negate => exact .of_silent fun _ same => Except.ok.inj same ▸ rfl
  | .closeParen =>
    refine (reduce_accounts 0 s.operands s.operators).bind fun t _ => ?_
    split
    · next waiting same =>
      refine .of_silent fun _ kept => ?_
      cases kept
      rw [waitingCount, waitingCount, same]
      rfl
    · exact .of_silent nofun
  | .operator (.binary op) =>
    exact ((reduce_accounts _ s.operands s.operators).add 1).bind fun t _ =>
      .of_silent fun _ same => Except.ok.inj same ▸ rfl

theorem foldlM_step_accounts (s : Stacks) (us : List Symbol) :
    Accounts policy (s.waitingCount + Symbol.operatorCount us) waitingCount
      (us.foldlM (step policy) s) := by
  induction us generalizing s with
  | nil => exact .of_silent fun _ same => Except.ok.inj same ▸ rfl
  | cons u us ih =>
    rw [Symbol.operatorCount_cons, ← Nat.add_assoc]
    exact ((step_accounts s u).add (Symbol.operatorCount us)).bind fun t _ => ih t

/-- At the end no operator waits. -/
theorem finish_accounts (s : Stacks) :
    Accounts policy s.waitingCount (fun _ => 0) (finish policy s) := by
  refine (reduce_accounts 0 s.operands s.operators).bind fun t _ => ?_
  split
  · exact .of_silent fun _ _ => rfl
  · exact .of_silent nofun

end Stacks

open Token (binaryCount loneNegations tokenize)

theorem evaluateTokens_accounts (ts : List Token) :
    Accounts policy (binaryCount ts + loneNegations ts) (fun _ => 0)
      (evaluateTokens policy ts) := by
  unfold evaluateTokens
  split
  · next none =>
    subst none
    exact .of_silent fun _ _ => rfl
  · have none : Stacks.empty.waitingCount = 0 := rfl
    have reading : Accounts policy (binaryCount ts + loneNegations ts) Stacks.waitingCount
        ((Symbol.ofTokens ts).foldlM (Stacks.step policy) .empty) := by
      rw [← Symbol.operatorCount_ofTokens, ← Nat.zero_add (Symbol.operatorCount _), ← none]
      exact Stacks.foldlM_step_accounts .empty _
    exact reading.bind fun s _ => s.finish_accounts

/-! ### Sides -/

namespace Logged

variable {ε α β : Type} {x : Logged ε α}

theorem log_bind_of_ok {a : α} (h : x.outcome = .ok a) (f : α → Logged ε β) :
    (x >>= f).log = x.log ++ (f a).log := by
  rw [bind_of_ok h]

theorem log_bind_of_error {e : ε} (h : x.outcome = .error e) (f : α → Logged ε β) :
    (x >>= f).log = x.log := by
  rw [bind_of_error h]

end Logged

/-- The events of operations in the log of a side. -/
def trace (policy : DivisionPolicy) (source : String) : List Event :=
  (evaluate policy source).log.filter fun event => event.level = .trace

theorem trace_eq (source : String) : trace policy source = (evaluateQuietly policy source).log :=
  (log_evaluateQuietly source).symm

/-- The log of a side with a value, of which it tells after its operations. -/
def sideLog (policy : DivisionPolicy) (source : String) (v : Linear) : List Event :=
  trace policy source ++ [.evaluated source v]

theorem trace_prefix_sideLog (source : String) (v : Linear) :
    trace policy source <+: sideLog policy source v :=
  List.prefix_append _ _

theorem log_evaluate_of_ok {source : String} {v : Linear}
    (h : (evaluate policy source).outcome = .ok v) :
    (evaluate policy source).log = sideLog policy source v := by
  rw [← outcome_evaluateQuietly] at h
  rw [sideLog, trace_eq, evaluate_eq, Logged.log_bind_of_ok h]
  rfl

theorem log_evaluate_of_error {source : String} {e : EvalError}
    (h : (evaluate policy source).outcome = .error e) :
    (evaluate policy source).log = trace policy source := by
  rw [← outcome_evaluateQuietly] at h
  rw [trace_eq, evaluate_eq, Logged.log_bind_of_error h]

theorem trace_of_unread {source : String} {e : ReadError} (h : tokenize source = .error e) :
    trace policy source = [] := by
  have silent : evaluateQuietly policy source = Logged.ofExcept (.error (.read e)) := by
    rw [evaluateQuietly, h]
    rfl
  rw [trace_eq, silent]
  rfl

theorem evaluateQuietly_of_tokenize {source : String} {ts : List Token}
    (h : tokenize source = .ok ts) : evaluateQuietly policy source = evaluateTokens policy ts := by
  rw [evaluateQuietly, h]
  rfl

theorem trace_of_tokenize {source : String} {ts : List Token} (h : tokenize source = .ok ts) :
    trace policy source = (evaluateTokens policy ts).log := by
  rw [trace_eq, evaluateQuietly_of_tokenize h]

theorem outcome_evaluate_of_tokenize {source : String} {ts : List Token}
    (h : tokenize source = .ok ts) :
    (evaluate policy source).outcome = (evaluateTokens policy ts).outcome := by
  rw [← outcome_evaluateQuietly, evaluateQuietly_of_tokenize h]

/-- Which operations a side tells of, and how many. -/
structure TracesOperations (policy : DivisionPolicy) (source : String) : Prop where
  unread : ∀ e, tokenize source = .error e → trace policy source = []
  exact : ∀ ts v, tokenize source = .ok ts → (evaluate policy source).outcome = .ok v →
    (trace policy source).length = binaryCount ts + loneNegations ts
  bounded : ∀ ts, tokenize source = .ok ts →
    (trace policy source).length ≤ binaryCount ts + loneNegations ts
  /-- An operation that fails is the last one that is told of. -/
  before : ∀ event ∈ (trace policy source).dropLast, event.Succeeds policy
  /-- All operations of a side with a value succeed. -/
  value : ∀ v, (evaluate policy source).outcome = .ok v →
    ∀ event ∈ trace policy source, event.Succeeds policy
  /-- After a symbol that fails nothing more is told of. -/
  stopped : ∀ ts front e, tokenize source = .ok ts → front <+: Symbol.ofTokens ts →
    (front.foldlM (Stacks.step policy) .empty).outcome = .error e →
      trace policy source = (front.foldlM (Stacks.step policy) .empty).log

theorem log_evaluateTokens_of_error {ts : List Token} {front : List Symbol}
    (part : front <+: Symbol.ofTokens ts) {e : EvalError}
    (h : (front.foldlM (Stacks.step policy) .empty).outcome = .error e) :
    (evaluateTokens policy ts).log = (front.foldlM (Stacks.step policy) .empty).log := by
  obtain ⟨back, whole⟩ := part
  have nonempty : ts ≠ [] := by
    rintro rfl
    obtain ⟨rfl, -⟩ := List.append_eq_nil_iff.1 whole
    cases h
  rw [evaluateTokens_of_ne_nil nonempty, evaluateSymbols, ← whole, List.foldlM_append, bind_assoc,
    Logged.log_bind_of_error h]

theorem tracesOperations (policy : DivisionPolicy) (source : String) :
    TracesOperations policy source where
  unread e failed := trace_of_unread failed
  exact ts v tokens value := by
    rw [outcome_evaluate_of_tokenize tokens] at value
    rw [trace_of_tokenize tokens]
    exact (evaluateTokens_accounts ts).exact v value
  bounded ts tokens := by
    rw [trace_of_tokenize tokens]
    exact (evaluateTokens_accounts ts).bounded
  before := by
    cases tokens : tokenize source with
    | error e =>
      rw [trace_of_unread tokens]
      exact nofun
    | ok ts =>
      rw [trace_of_tokenize tokens]
      exact (evaluateTokens_accounts ts).before
  value v value := by
    cases tokens : tokenize source with
    | error e =>
      rw [trace_of_unread tokens]
      exact nofun
    | ok ts =>
      rw [outcome_evaluate_of_tokenize tokens] at value
      rw [trace_of_tokenize tokens]
      exact (evaluateTokens_accounts ts).value v value
  stopped ts front e tokens part failed := by
    rw [trace_of_tokenize tokens, log_evaluateTokens_of_error part failed]

/-! ### Lines -/

section Line

open Equation (sides equalsSigns outcome_parse)

variable {line : String} {v w : Linear} {e : EvalError}

theorem log_solve_of_not_equation (none : equalsSigns line ≠ 1) : (solve policy line).log = [] := by
  rw [solve, Equation.parse, if_neg none]
  rfl

theorem log_solve_of_left (one : equalsSigns line = 1)
    (left : (evaluate policy (sides line).1).outcome = .error e) :
    (solve policy line).log = trace policy (sides line).1 := by
  have failed : (Equation.parse policy line).outcome = .error (.evaluation e) := by
    rw [outcome_parse, if_pos one, left]
    rfl
  rw [solve, Logged.log_bind_of_error failed, Equation.parse, if_pos one, Logged.mapError,
    Logged.log_bind_of_error left, log_evaluate_of_error left]

theorem log_solve_of_right (one : equalsSigns line = 1)
    (left : (evaluate policy (sides line).1).outcome = .ok v)
    (right : (evaluate policy (sides line).2).outcome = .error e) :
    (solve policy line).log = sideLog policy (sides line).1 v ++ trace policy (sides line).2 := by
  have failed : (Equation.parse policy line).outcome = .error (.evaluation e) := by
    rw [outcome_parse, if_pos one, left, ok_bind, right]
    rfl
  rw [solve, Logged.log_bind_of_error failed, Equation.parse, if_pos one, Logged.mapError,
    Logged.log_bind_of_ok left, Logged.log_bind_of_error right, log_evaluate_of_ok left,
    log_evaluate_of_error right]

theorem log_solve_of_sides (one : equalsSigns line = 1)
    (left : (evaluate policy (sides line).1).outcome = .ok v)
    (right : (evaluate policy (sides line).2).outcome = .ok w) :
    (solve policy line).log =
      sideLog policy (sides line).1 v ++ sideLog policy (sides line).2 w ++
        (Equation.mk v w).solve.log := by
  have parsed : (Equation.parse policy line).outcome = .ok ⟨v, w⟩ := by
    rw [outcome_parse, if_pos one, left, ok_bind, right]
    rfl
  rw [solve, Logged.log_bind_of_ok parsed, Equation.parse, if_pos one, Logged.mapError,
    Logged.log_bind_of_ok left, Logged.log_bind_of_ok right, log_evaluate_of_ok left,
    log_evaluate_of_ok right, Logged.pure_def, List.append_nil]

theorem log_solve_of_not_fits (one : equalsSigns line = 1)
    (left : (evaluate policy (sides line).1).outcome = .ok v)
    (right : (evaluate policy (sides line).2).outcome = .ok w)
    (unfit : ¬ (Word.Fits (Equation.mk v w).exactCoefficient ∧
      Word.Fits (Equation.mk v w).exactConstant)) :
    (solve policy line).log =
      sideLog policy (sides line).1 v ++ sideLog policy (sides line).2 w := by
  rw [log_solve_of_sides one left right, Equation.solve_of_not_fits unfit]
  exact List.append_nil _

theorem log_solve_of_fits (one : equalsSigns line = 1)
    (left : (evaluate policy (sides line).1).outcome = .ok v)
    (right : (evaluate policy (sides line).2).outcome = .ok w)
    (fits : Word.Fits (Equation.mk v w).exactCoefficient ∧
      Word.Fits (Equation.mk v w).exactConstant) :
    ∃ a b : Word, a.toInt = (Equation.mk v w).exactCoefficient ∧
      b.toInt = (Equation.mk v w).exactConstant ∧
      (solve policy line).log =
        sideLog policy (sides line).1 v ++ sideLog policy (sides line).2 w ++ [.solving a b] := by
  obtain ⟨a, b, coefficient, constant, solved⟩ := Equation.solve_of_fits fits
  refine ⟨a, b, coefficient, constant, ?_⟩
  rw [log_solve_of_sides one left right, solved]

theorem exists_log_solve_prefix (policy : DivisionPolicy) (line : String) :
    ∃ v w a b, (solve policy line).log <+:
      sideLog policy (sides line).1 v ++ sideLog policy (sides line).2 w ++ [.solving a b] := by
  by_cases one : equalsSigns line = 1
  · cases left : (evaluate policy (sides line).1).outcome with
    | error e =>
      refine ⟨.zero, .zero, 0, 0, ?_⟩
      rw [log_solve_of_left one left, List.append_assoc]
      exact (trace_prefix_sideLog _ _).trans (List.prefix_append _ _)
    | ok v =>
      cases right : (evaluate policy (sides line).2).outcome with
      | error e =>
        refine ⟨v, .zero, 0, 0, ?_⟩
        rw [log_solve_of_right one left right, List.append_assoc]
        exact (List.prefix_append_right_inj _).2
          ((trace_prefix_sideLog _ _).trans (List.prefix_append _ _))
      | ok w =>
        by_cases fits : Word.Fits (Equation.mk v w).exactCoefficient ∧
            Word.Fits (Equation.mk v w).exactConstant
        · obtain ⟨a, b, -, -, log⟩ := log_solve_of_fits one left right fits
          exact ⟨v, w, a, b, log ▸ List.prefix_rfl⟩
        · refine ⟨v, w, 0, 0, ?_⟩
          rw [log_solve_of_not_fits one left right fits]
          exact List.prefix_append _ _
  · refine ⟨.zero, .zero, 0, 0, ?_⟩
    rw [log_solve_of_not_equation one]
    exact List.nil_prefix

/-- What the log of every line holds: the operations of the left side and its value, those of the
right side and its value, and the equation of the two, as far as there are such. A line that is no
equation logs nothing, and after a failure nothing is logged any more. A side with a value tells of
one operation for each operator between two operands and for each negation that no number follows
directly, and a side that fails of at most as many, none of which follows one that fails. -/
theorem log_solve_cases (policy : DivisionPolicy) (line : String) :
    let l := (sides line).1
    let r := (sides line).2
    let log := (solve policy line).log
    TracesOperations policy l ∧ TracesOperations policy r ∧
    (∃ v w a b, log <+: sideLog policy l v ++ sideLog policy r w ++ [.solving a b]) ∧
    (equalsSigns line ≠ 1 → log = []) ∧
    (equalsSigns line = 1 →
      (∀ e, (evaluate policy l).outcome = .error e → log = trace policy l) ∧
      ∀ v, (evaluate policy l).outcome = .ok v →
        (∀ e, (evaluate policy r).outcome = .error e →
          log = sideLog policy l v ++ trace policy r) ∧
        ∀ w, (evaluate policy r).outcome = .ok w →
          let e : Equation := ⟨v, w⟩
          (¬ (Word.Fits e.exactCoefficient ∧ Word.Fits e.exactConstant) →
            log = sideLog policy l v ++ sideLog policy r w) ∧
          (Word.Fits e.exactCoefficient ∧ Word.Fits e.exactConstant →
            ∃ a b : Word, a.toInt = e.exactCoefficient ∧ b.toInt = e.exactConstant ∧
              log = sideLog policy l v ++ sideLog policy r w ++ [.solving a b])) := by
  intro l r log
  refine ⟨tracesOperations policy l, tracesOperations policy r, exists_log_solve_prefix policy line,
    log_solve_of_not_equation, fun one => ⟨fun e left => log_solve_of_left one left, ?_⟩⟩
  intro v left
  refine ⟨fun e right => log_solve_of_right one left right, fun w right => ?_⟩
  exact ⟨log_solve_of_not_fits one left right, log_solve_of_fits one left right⟩

end Line

end OneUnknown
