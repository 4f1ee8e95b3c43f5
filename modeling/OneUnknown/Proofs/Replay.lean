import OneUnknown.Proofs.Grammar
import OneUnknown.Proofs.Printing

/-!
# Replaying a log

An event of an operation is written as a text that can itself be evaluated, and its outcome is that
of the operation (`outcome_evaluate_message`): each operand is in parentheses, so it is read back as
it was printed, and no minus sign stands directly before a number. The events tell how a run ends,
too. An error of an operation ends the run at once, so it is that of the operation announced last;
and the result of the last operation is never given up, so a value is that result (`Announces`).
Therefore the last event alone replays the run (`log_replays`).
-/

namespace OneUnknown

open Text

variable {policy : DivisionPolicy}

/-- The outcome of the operation that the event announces. -/
def Event.announced? (policy : DivisionPolicy) : Event → Option (Except EvalError Linear)
  | .negation operand => some operand.neg
  | .operation left op right => some (Linear.apply policy op left right)
  | .evaluated .. | .solving .. => none

/-! ### The text of an event -/

namespace Linear

/-- The form in parentheses. -/
def toPrimary (p : Linear) : Expr .primary := .paren p.toExpr

/-- The form in parentheses, as a term. -/
def toTerm (p : Linear) : Expr .term := .single (.bare p.toPrimary)

theorem value_toPrimary (p : Linear) (negated : Bool) :
    p.toPrimary.value policy negated = .ok p :=
  p.value_toExpr

/-- No sign before a parenthesis belongs to a literal. -/
theorem addTo_toTerm (sign : Sign) (l p : Linear) :
    p.toTerm.addTo policy sign l = apply policy sign.op l p := by
  have value : p.toTerm.value policy false = .ok p := p.value_toExpr
  cases sign with
  | plus => simp only [Expr.addTo, value, ok_bind, Sign.op, apply]
  | minus =>
    have alone : p.toTerm.startsWithNumber = false := rfl
    simp [Expr.addTo, value, alone, Sign.op, apply]

theorem zero_sub (p : Linear) : zero.sub p = p.neg := by
  rw [sub_eq, neg_eq]
  congr 1
  exact IntForm.ext (Int.zero_sub _) (Int.zero_sub _)

theorem spelling_toPrimary (p : Linear) :
    p.toPrimary.spelling = '(' :: compact p.toString.toList ++ [')'] := by
  rw [← p.spelling_toExpr]
  rfl

end Linear

namespace Event

/-- Blanks aside, the text of an event has its operands in parentheses. -/
theorem compact_message_negation (p : Linear) :
    compact (negation p).message.toList = '-' :: p.toPrimary.spelling := by
  have first : compact "-(".toList = ['-', '('] := by decide
  have last : compact ")".toList = [')'] := by decide
  change compact ("-(" ++ p.toString ++ ")").toList = _
  rw [p.spelling_toPrimary, String.toList_append, String.toList_append, compact_append,
    compact_append, first, last]
  rfl

theorem compact_message_operation (l r : Linear) (op : BinaryOp) :
    compact (operation l op r).message.toList =
      l.toPrimary.spelling ++ op.sign :: r.toPrimary.spelling := by
  have first : compact "(".toList = ['('] := by decide
  have between : compact ") ".toList = [')'] ∧ compact op.sign.toString.toList = [op.sign] ∧
      compact " (".toList = ['('] := by
    cases op <;> decide
  have last : compact ")".toList = [')'] := by decide
  change compact ("(" ++ l.toString ++ ") " ++ op.sign.toString ++ " (" ++ r.toString ++
    ")").toList = _
  simp only [l.spelling_toPrimary, r.spelling_toPrimary, String.toList_append, compact_append,
    first, between, last, List.append_assoc]
  rfl

end Event

/-! ### Evaluating the text of an event -/

/-- An error of an operation tells of no place. -/
theorem EvalError.eq_of_unplaced_eq {e e' : EvalError} (arithmetic : e.IsArithmetic policy)
    (h : e'.unplaced = e.unplaced) : e' = e := by
  have own : e.unplaced = e := by
    cases e with
    | read cause => exact arithmetic.elim
    | _ => rfl
  rw [own] at h
  subst h
  cases e' with
  | read cause => exact arithmetic.elim
  | _ => rfl

/-- A text has the outcome of the sum it writes, if that is a value or an error of an operation. -/
theorem outcome_evaluate_of_arithmetic {e : Expr .sum} {source : String}
    (writes : (Side.sum e).Writes source) {x : Except EvalError Linear}
    (value : e.value policy false = x)
    (arithmetic : ∀ error, x = .error error → error.IsArithmetic policy) :
    (evaluate policy source).outcome = x := by
  have same : (evaluate policy source).outcome.mapError EvalError.unplaced =
      (e.value policy false).mapError EvalError.unplaced :=
    outcome_evaluate_unplaced_of_writes writes
  rw [value] at same
  match x, (evaluate policy source).outcome, same with
  | .ok v, .ok w, same => exact same
  | .error e, .error e', same =>
    exact congrArg Except.error
      (EvalError.eq_of_unplaced_eq (arithmetic e rfl) (Except.error.inj same))

/-- The text of an event has the outcome of the operation that the event announces. -/
theorem outcome_evaluate_message {event : Event} {result : Except EvalError Linear}
    (h : event.announced? policy = some result) :
    (evaluate policy event.message).outcome = result := by
  match event with
  | .negation operand =>
    cases h
    refine outcome_evaluate_of_arithmetic (e := .leading .minus operand.toTerm) ⟨?_, ?_⟩ ?_ ?_
    · exact operand.wellFormed_toExpr
    · exact (Event.compact_message_negation operand).symm
    · rw [Expr.value_leading, Linear.addTo_toTerm]
      exact operand.zero_sub
    · intro error same
      rw [Linear.eq_overflow_of_neg same]
      trivial
  | .operation left op right =>
    cases h
    have numerals : ∀ t ∈ left.toPrimary.numbers ++ right.toPrimary.numbers,
        Expr.IsNumeral (compact t.text.toList) := fun t mem =>
      (List.mem_append.1 mem).elim (left.wellFormed_toExpr.2 t) (right.wellFormed_toExpr.2 t)
    have text := (Event.compact_message_operation left right op).symm
    obtain ⟨sign, rfl⟩ | ⟨scale, rfl⟩ := op.exists_sign_or_scale
    · have proper : (Expr.added (.first left.toTerm) sign right.toTerm).Proper :=
        ⟨⟨trivial, left.wellFormed_toExpr.1⟩, right.wellFormed_toExpr.1⟩
      refine outcome_evaluate_of_arithmetic ⟨⟨proper, numerals⟩, text⟩ ?_
        fun error => Linear.isArithmetic_of_apply
      have first : (Expr.first left.toTerm).value policy false = .ok left := left.value_toExpr
      rw [Expr.value_added, first, ok_bind, Linear.addTo_toTerm]
    · have proper : (Expr.first (.scaled left.toTerm scale (.bare right.toPrimary))).Proper :=
        ⟨trivial, left.wellFormed_toExpr.1, right.wellFormed_toExpr.1⟩
      refine outcome_evaluate_of_arithmetic ⟨⟨proper, numerals⟩, text⟩ ?_
        fun error => Linear.isArithmetic_of_apply
      simp only [Expr.value, Linear.toTerm, Linear.value_toPrimary, ok_bind]

/-! ### The last event of a run -/

theorem mem_getLast?_append {l l' : List Event} {event : Event} :
    event ∈ (l ++ l').getLast? ↔ event ∈ l'.getLast? ∨ l' = [] ∧ event ∈ l.getLast? := by
  rw [List.getLast?_append]
  cases last : l'.getLast? with
  | none => simp [List.getLast?_eq_none_iff.1 last]
  | some other =>
    have nonempty : l' ≠ [] := by
      rintro rfl
      cases last
    simp [nonempty]

/-- What the log of a run tells about its end. A run starts with some operands and ends with those
that its value holds. -/
structure Announces {α : Type} (policy : DivisionPolicy) (operands : List Linear)
    (held : α → List Linear) (run : Evaluation α) : Prop where
  /-- All events are of operations. -/
  operation : ∀ event ∈ run.log, ∃ result, event.announced? policy = some result
  /-- Without an operation no operand is given up. -/
  kept : run.log = [] → ∀ a, run.outcome = .ok a → operands ⊆ held a
  /-- The result of the last operation is held. -/
  value : ∀ event ∈ run.log.getLast?, ∀ a, run.outcome = .ok a →
    ∃ v ∈ held a, event.announced? policy = some (.ok v)
  /-- An error that is none of a literal or of the shape is that of the last operation. -/
  error : ∀ e, run.outcome = .error e → e = .malformed ∨ (∃ cause, e = .read cause) ∨
    ∃ event ∈ run.log.getLast?, event.announced? policy = some (.error e)

namespace Announces

variable {α β : Type} {operands : List Linear} {held : α → List Linear} {held' : β → List Linear}

theorem of_ok {a : α} (kept : operands ⊆ held a) :
    Announces policy operands held (pure a : Evaluation α) where
  operation := nofun
  kept _ b same := by
    cases same
    exact kept
  value := nofun
  error := nofun

theorem malformed :
    Announces policy operands held (Logged.ofExcept (.error .malformed) : Evaluation α) where
  operation := nofun
  kept := nofun
  value := nofun
  error e same := by
    cases same
    exact Or.inl rfl

/-- What is read from a text announces nothing. -/
theorem read {x : Except ReadError α} (kept : ∀ a, x = .ok a → operands ⊆ held a) :
    Announces policy operands held (Logged.ofExcept (x.mapError .read)) where
  operation := nofun
  kept _ a value := kept a (mapError_eq_ok_iff.1 value)
  value := nofun
  error e same := by
    cases x with
    | ok a => cases same
    | error cause =>
      cases same
      exact Or.inr (Or.inl ⟨cause, rfl⟩)

theorem bind {x : Evaluation α} (h : Announces policy operands held x) {f : α → Evaluation β}
    (next : ∀ a, x.outcome = .ok a → Announces policy (held a) held' (f a)) :
    Announces policy operands held' (x >>= f) := by
  cases outcome : x.outcome with
  | error e =>
    rw [Logged.bind_of_error outcome]
    refine ⟨h.operation, nofun, nofun, ?_⟩
    rintro e' same
    cases same
    exact h.error e outcome
  | ok a =>
    have after := next a outcome
    rw [Logged.bind_of_ok outcome]
    constructor
    case operation =>
      exact fun event mem => (List.mem_append.1 mem).elim (h.operation event) (after.operation event)
    case kept =>
      intro none b value
      obtain ⟨before, later⟩ := List.append_eq_nil_iff.1 none
      exact List.Subset.trans (h.kept before a outcome) (after.kept later b value)
    case value =>
      intro event last b value
      obtain last | ⟨later, last⟩ := mem_getLast?_append.1 last
      · exact after.value event last b value
      · obtain ⟨v, mem, announced⟩ := h.value event last a outcome
        exact ⟨v, after.kept later b value mem, announced⟩
    case error =>
      intro e same
      obtain malformed | read | ⟨event, last, announced⟩ := after.error e same
      · exact Or.inl malformed
      · exact Or.inr (Or.inl read)
      · exact Or.inr (Or.inr ⟨event, mem_getLast?_append.2 (Or.inl last), announced⟩)

end Announces

/-- An operator that is applied announces what comes of it. -/
theorem Operator.applyTo_announces (operator : Operator) (operands : List Linear) :
    Announces policy operands id (operator.applyTo policy operands) := by
  have single (event : Event) (x : Except EvalError Linear) (rest : List Linear)
      (announced : event.announced? policy = some x) :
      Announces policy operands id
        (⟨[event], x >>= fun value => .ok (value :: rest)⟩ : Evaluation (List Linear)) := by
    refine ⟨?_, nofun, ?_, ?_⟩
    · intro other mem
      rw [List.mem_singleton.1 mem]
      exact ⟨x, announced⟩
    · intro last same operands' value
      obtain ⟨v, result, held⟩ := bind_eq_ok_iff.1 value
      cases same
      cases held
      exact ⟨v, List.mem_cons_self, result ▸ announced⟩
    · intro e error
      obtain result | ⟨v, -, result⟩ := bind_eq_error_iff.1 error
      · exact Or.inr (Or.inr ⟨event, rfl, result ▸ announced⟩)
      · cases result
  match operator, operands with
  | .negate, [] | .binary _, [] | .binary _, [_] => exact .malformed
  | .negate, operand :: rest =>
    rw [applyTo_negate]
    exact single _ _ rest rfl
  | .binary op, right :: left :: rest =>
    rw [applyTo_binary]
    exact single _ _ rest rfl

namespace Stacks

theorem reduce_announces (least : Nat) (operands : List Linear) (waiting : List Pending) :
    Announces policy operands Stacks.operands (reduce policy least operands waiting) := by
  induction waiting generalizing operands with
  | nil => exact .of_ok (List.Subset.refl operands)
  | cons top waiting ih =>
    match top with
    | .openParen => exact .of_ok (List.Subset.refl operands)
    | .operator o =>
      unfold reduce
      split
      · exact .of_ok (List.Subset.refl operands)
      · exact (o.applyTo_announces operands).bind fun operands _ => ih operands

theorem step_announces (s : Stacks) (u : Symbol) :
    Announces policy s.operands Stacks.operands (step policy s u) := by
  match u with
  | .literal negated number =>
    have value : Announces policy s.operands (fun _ => s.operands)
        (Logged.ofExcept ((number.literal negated).mapError .read)) :=
      .read fun _ _ => List.Subset.refl s.operands
    exact value.bind fun v _ => .of_ok (List.subset_cons_self v s.operands)
  | .openParen | .operator .negate => exact .of_ok (List.Subset.refl s.operands)
  | .closeParen =>
    refine (reduce_announces 0 s.operands s.operators).bind fun t _ => ?_
    split
    · exact .of_ok (List.Subset.refl t.operands)
    · exact .malformed
  | .operator (.binary op) =>
    exact (reduce_announces _ s.operands s.operators).bind fun t _ =>
      .of_ok (List.Subset.refl t.operands)

theorem foldlM_step_announces (s : Stacks) (us : List Symbol) :
    Announces policy s.operands Stacks.operands (us.foldlM (step policy) s) := by
  induction us generalizing s with
  | nil => exact .of_ok (List.Subset.refl s.operands)
  | cons u us ih => exact (step_announces s u).bind fun t _ => ih t

/-- At the end nothing is held but the value. -/
theorem finish_announces (s : Stacks) :
    Announces policy s.operands (fun value => [value]) (finish policy s) := by
  refine (reduce_announces 0 s.operands s.operators).bind fun t _ => ?_
  split
  · exact .of_ok (List.Subset.refl _)
  · exact .malformed

end Stacks

theorem evaluateTokens_announces (ts : List Token) :
    Announces policy [] (fun value => [value]) (evaluateTokens policy ts) := by
  unfold evaluateTokens
  split
  · exact .of_ok nofun
  · exact (Stacks.foldlM_step_announces .empty _).bind fun s _ => s.finish_announces

/-! ### Texts -/

theorem Event.level_of_announced? {event : Event} {result : Except EvalError Linear}
    (h : event.announced? policy = some result) : event.level = .trace := by
  match event with
  | .negation _ | .operation .. => rfl

/-- The evaluation of a text without the event that tells of its value. -/
def evaluateQuietly (policy : DivisionPolicy) (source : String) : Evaluation Linear := do
  evaluateTokens policy (← Logged.ofExcept ((Token.tokenize source).mapError .read))

theorem evaluate_eq (source : String) :
    evaluate policy source = evaluateQuietly policy source >>= fun value => do
      Logged.note (.evaluated source value)
      return value :=
  (bind_assoc _ _ _).symm

theorem evaluateQuietly_announces (source : String) :
    Announces policy [] (fun value => [value]) (evaluateQuietly policy source) := by
  have tokens : Announces policy [] (fun _ => [])
      (Logged.ofExcept ((Token.tokenize source).mapError .read)) := .read fun _ _ => nofun
  exact tokens.bind fun ts _ => evaluateTokens_announces ts

theorem outcome_evaluateQuietly (source : String) :
    (evaluateQuietly policy source).outcome = (evaluate policy source).outcome := by
  rw [evaluate_eq, Logged.outcome_bind]
  exact (bind_ok _).symm

/-- The events of operations are all but the last one, which tells of a value. -/
theorem log_evaluateQuietly (source : String) :
    (evaluateQuietly policy source).log =
      (evaluate policy source).log.filter fun event => event.level = .trace := by
  have kept : (evaluateQuietly policy source).log.filter (fun event => event.level = .trace) =
      (evaluateQuietly policy source).log := by
    refine List.filter_eq_self.2 fun event mem => ?_
    obtain ⟨result, announced⟩ := (evaluateQuietly_announces source).operation event mem
    simp [Event.level_of_announced? announced]
  cases outcome : (evaluateQuietly policy source).outcome with
  | error e => rw [evaluate_eq, Logged.bind_of_error outcome, kept]
  | ok value =>
    rw [evaluate_eq, Logged.bind_of_ok outcome, List.filter_append, kept]
    exact (List.append_nil _).symm

/-- Every event of an operation replays: its text has the outcome of the operation that it announces.
So the last one replays the whole run, if the run has a value or an error of an operation. -/
theorem log_replays (options : Options) (source : String) :
    let run := evaluate options.policy source
    let trace := run.log.filter fun event => event.level = .trace
    (∀ event ∈ trace, ∃ result, event.announced? options.policy = some result ∧
      (evaluate options.policy event.message).outcome = result) ∧
    (∀ v, run.outcome = .ok v → ∀ last ∈ trace.getLast?,
      (evaluate options.policy last.message).outcome = .ok v) ∧
    ∀ e ∈ [EvalError.overflow, .divisionByZero, .divisionByVariable, .nonlinear, .inexactDivision],
      run.outcome = .error e →
        ∃ last ∈ trace.getLast?, (evaluate options.policy last.message).outcome = .error e := by
  intro run trace
  have announces : Announces options.policy [] (fun value => [value])
      (evaluateQuietly options.policy source) := evaluateQuietly_announces source
  have log : trace = (evaluateQuietly options.policy source).log :=
    (log_evaluateQuietly source).symm
  have outcome : run.outcome = (evaluateQuietly options.policy source).outcome :=
    (outcome_evaluateQuietly source).symm
  rw [log, outcome]
  refine ⟨fun event mem => ?_, fun v value last mem => ?_, fun e kind error => ?_⟩
  · obtain ⟨result, announced⟩ := announces.operation event mem
    exact ⟨result, announced, outcome_evaluate_message announced⟩
  · obtain ⟨w, held, announced⟩ := announces.value last mem v value
    obtain rfl := List.mem_singleton.1 held
    exact outcome_evaluate_message announced
  · obtain malformed | ⟨cause, read⟩ | ⟨last, mem, announced⟩ := announces.error e error
    · subst malformed
      simp at kind
    · subst read
      simp at kind
    · exact ⟨last, mem, outcome_evaluate_message announced⟩

example : (evaluate .truncate "2*-(0 - 9223372036854775807 - 1)").log.getLast?.map Event.message =
    some "-(-9223372036854775808)" := by
  decide +kernel

end OneUnknown
