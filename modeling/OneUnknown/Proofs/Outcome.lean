import OneUnknown.Equation

/-!
# Outcomes of an evaluation

What an evaluation ends with does not depend on its log, so `outcome` carries every step of
`Logged` over to `Except`. This file gives the laws for that, and the outcomes of the steps on the
two stacks: `Stacks.read` is the outcome of reading symbols, and `Stacks.settle` the outcome of
applying the operators that wait with at least some priority. What a success can have done is said
once, by `Operator.applyTo_cases` for one operator and by `Stacks.settle_induction` for those that
are applied one after the other. The outcomes for a line follow from those for its sides.
-/

namespace OneUnknown

/-! ### Errors -/

section Except

variable {ε ε' α β : Type}

@[simp] theorem ok_bind (a : α) (f : α → Except ε β) : Except.ok a >>= f = f a := rfl

@[simp] theorem error_bind (e : ε) (f : α → Except ε β) :
    (Except.error e : Except ε α) >>= f = Except.error e := rfl

@[simp] theorem pure_eq_ok (a : α) : (pure a : Except ε α) = Except.ok a := rfl

theorem bind_eq_ok_iff {x : Except ε α} {f : α → Except ε β} {b : β} :
    x >>= f = .ok b ↔ ∃ a, x = .ok a ∧ f a = .ok b := by
  cases x with
  | error e => simp
  | ok a => simp

theorem bind_eq_error_iff {x : Except ε α} {f : α → Except ε β} {e : ε} :
    x >>= f = .error e ↔ x = .error e ∨ ∃ a, x = .ok a ∧ f a = .error e := by
  cases x with
  | error e' => simp
  | ok a => simp

/-- Steps that do not end with an error do not end with it one after the other. -/
theorem bind_ne_error {x : Except ε α} {f : α → Except ε β} {e : ε} (hx : x ≠ .error e)
    (hf : ∀ a, f a ≠ .error e) : x >>= f ≠ .error e := by
  rw [Ne, bind_eq_error_iff]
  rintro (h | ⟨a, -, h⟩)
  · exact hx h
  · exact hf a h

theorem map_eq_ok_iff {f : α → β} {x : Except ε α} {b : β} :
    f <$> x = .ok b ↔ ∃ a, x = .ok a ∧ f a = b := by
  cases x <;> simp [Functor.map, Except.map]

theorem map_eq_error_iff {f : α → β} {x : Except ε α} {e : ε} :
    f <$> x = .error e ↔ x = .error e := by
  cases x <;> simp [Functor.map, Except.map]

theorem bind_ok (x : Except ε α) : x >>= Except.ok = x := by
  cases x <;> rfl

@[simp] theorem mapError_ok (f : ε → ε') (a : α) :
    (Except.ok a : Except ε α).mapError f = .ok a := rfl

@[simp] theorem mapError_error (f : ε → ε') (e : ε) :
    (Except.error e : Except ε α).mapError f = .error (f e) := rfl

theorem mapError_eq_ok_iff {f : ε → ε'} {x : Except ε α} {a : α} :
    x.mapError f = .ok a ↔ x = .ok a := by
  cases x <;> simp

theorem mapError_eq_error_iff {f : ε → ε'} {x : Except ε α} {e : ε'} :
    x.mapError f = .error e ↔ ∃ cause, x = .error cause ∧ f cause = e := by
  cases x <;> simp

/-- A changed error is one of those that errors are changed to. -/
theorem mapError_ne_error {f : ε → ε'} {e : ε'} (h : ∀ cause, f cause ≠ e) (x : Except ε α) :
    x.mapError f ≠ .error e := by
  cases x <;> simp [h]

theorem mapError_bind (f : ε → ε') (x : Except ε α) (g : α → Except ε β) :
    (x >>= g).mapError f = x.mapError f >>= fun a => (g a).mapError f := by
  cases x <;> rfl

theorem mapError_map (f : ε → ε') (g : α → β) (x : Except ε α) :
    (g <$> x).mapError f = g <$> x.mapError f := by
  cases x <;> rfl

/-- An error handler changes no value. -/
theorem eq_ok_of_mapError_eq {f : ε → ε'} {x y : Except ε α} (h : x.mapError f = y.mapError f)
    {a : α} (value : x = .ok a) : y = .ok a := by
  rw [value, mapError_ok] at h
  exact mapError_eq_ok_iff.1 h.symm

end Except

/-! ### Logs -/

namespace Logged

variable {ε ε' α β : Type}

@[simp] theorem outcome_pure (a : α) : (pure a : Logged ε α).outcome = .ok a := rfl

@[simp] theorem outcome_ofExcept (x : Except ε α) : (ofExcept x).outcome = x := rfl

@[simp] theorem outcome_note (event : Event) : (note event : Logged ε Unit).outcome = .ok () := rfl

@[simp] theorem outcome_mapError (f : ε → ε') (x : Logged ε α) :
    (x.mapError f).outcome = x.outcome.mapError f := rfl

@[simp] theorem outcome_bind (x : Logged ε α) (f : α → Logged ε β) :
    (x >>= f).outcome = x.outcome >>= fun a => (f a).outcome := by
  cases hx : x.outcome with
  | error e => rw [bind_of_error hx, error_bind]
  | ok a => rw [bind_of_ok hx, ok_bind]

@[simp] theorem outcome_map (f : α → β) (x : Logged ε α) :
    (f <$> x).outcome = x.outcome >>= fun a => .ok (f a) := by
  rw [map_eq_pure_bind, outcome_bind]
  rfl

end Logged

/-! ### Operators -/

namespace Operator

variable {policy : DivisionPolicy}

/-- An operator tells of its operands before it is applied to them. -/
theorem applyTo_negate (policy : DivisionPolicy) (operand : Linear) (rest : List Linear) :
    Operator.applyTo policy .negate (operand :: rest) =
      ⟨[.negation operand], operand.neg >>= fun value => .ok (value :: rest)⟩ := by
  rw [applyTo]
  cases operand.neg <;> rfl

theorem applyTo_binary (policy : DivisionPolicy) (op : BinaryOp) (left right : Linear)
    (rest : List Linear) :
    Operator.applyTo policy (.binary op) (right :: left :: rest) =
      ⟨[.operation left op right],
        Linear.apply policy op left right >>= fun value => .ok (value :: rest)⟩ := by
  rw [applyTo]
  cases Linear.apply policy op left right <;> rfl

@[simp] theorem outcome_applyTo_negate (policy : DivisionPolicy) (operand : Linear)
    (rest : List Linear) :
    (Operator.applyTo policy .negate (operand :: rest)).outcome =
      operand.neg >>= fun value => .ok (value :: rest) := by
  rw [applyTo_negate]

@[simp] theorem outcome_applyTo_binary (policy : DivisionPolicy) (op : BinaryOp)
    (left right : Linear) (rest : List Linear) :
    (Operator.applyTo policy (.binary op) (right :: left :: rest)).outcome =
      Linear.apply policy op left right >>= fun value => .ok (value :: rest) := by
  rw [applyTo_binary]

/-- An operator that can be applied finds its operands on top. -/
theorem applyTo_cases {operator : Operator} {operands operands' : List Linear}
    (h : (operator.applyTo policy operands).outcome = .ok operands') :
    (∃ operand value rest, operator = .negate ∧ operands = operand :: rest ∧
      operand.neg = .ok value ∧ operands' = value :: rest) ∨
    ∃ op left right value rest, operator = .binary op ∧ operands = right :: left :: rest ∧
      Linear.apply policy op left right = .ok value ∧ operands' = value :: rest := by
  match operator, operands with
  | .negate, [] | .binary _, [] | .binary _, [_] => cases h
  | .negate, operand :: rest =>
    rw [outcome_applyTo_negate] at h
    obtain ⟨value, negation, same⟩ := bind_eq_ok_iff.1 h
    cases same
    exact Or.inl ⟨operand, value, rest, rfl, rfl, negation, rfl⟩
  | .binary op, right :: left :: rest =>
    rw [outcome_applyTo_binary] at h
    obtain ⟨value, result, same⟩ := bind_eq_ok_iff.1 h
    cases same
    exact Or.inr ⟨op, left, right, value, rest, rfl, rfl, result, rfl⟩

end Operator

/-! ### Stacks -/

/-- An operator on top has a lower priority than `least`, so applying what has at least that
priority applies nothing. -/
def Blocks (least : Nat) : List Pending → Prop
  | .operator operator :: _ => operator.priority < least
  | _ => True

theorem Blocks.mono {least greater : Nat} (h : least ≤ greater) {waiting : List Pending}
    (blocks : Blocks least waiting) : Blocks greater waiting := by
  match waiting with
  | [] | .openParen :: _ => trivial
  | .operator _ :: _ => exact Nat.lt_of_lt_of_le blocks h

namespace Stacks

variable (policy : DivisionPolicy)

/-- The outcome of applying the operators on top that have at least the priority `least`. -/
def settle (least : Nat) (s : Stacks) : Except EvalError Stacks :=
  (reduce policy least s.operands s.operators).outcome

/-- The outcome of reading symbols one after the other. -/
def read (s : Stacks) (us : List Symbol) : Except EvalError Stacks :=
  (us.foldlM (step policy) s).outcome

/-- A closing parenthesis takes the opening one that is on top after all else has been applied. -/
def close (s : Stacks) : Except EvalError Stacks :=
  match s.operators with
  | .openParen :: waiting => .ok ⟨s.operands, waiting⟩
  | _ => .error .malformed

/-- The value that is left when nothing waits any more. -/
def result (s : Stacks) : Except EvalError Linear :=
  match s with
  | ⟨[value], []⟩ => .ok value
  | _ => .error .malformed

variable {s t : Stacks}

theorem close_eq_ok_iff : close s = .ok t ↔ s = ⟨t.operands, .openParen :: t.operators⟩ := by
  obtain ⟨operands, operators⟩ := s
  unfold close
  split
  · next waiting same =>
    dsimp only at same
    subst same
    simp [Stacks.ext_iff]
  · next other => simpa using fun _ => other t.operators

theorem result_eq_ok_iff {v : Linear} : result s = .ok v ↔ s = ⟨[v], []⟩ := by
  unfold result
  split
  · simp
  · next other => simpa using other v

/-! #### Waiting operators -/

@[simp] theorem settle_nil (least : Nat) (operands : List Linear) :
    settle policy least ⟨operands, []⟩ = .ok ⟨operands, []⟩ := by
  simp [settle, reduce]

@[simp] theorem settle_openParen (least : Nat) (operands : List Linear)
    (waiting : List Pending) :
    settle policy least ⟨operands, .openParen :: waiting⟩ =
      .ok ⟨operands, .openParen :: waiting⟩ := by
  simp [settle, reduce]

theorem settle_of_lt {least : Nat} {operator : Operator} (h : operator.priority < least)
    (operands : List Linear) (waiting : List Pending) :
    settle policy least ⟨operands, .operator operator :: waiting⟩ =
      .ok ⟨operands, .operator operator :: waiting⟩ := by
  simp [settle, reduce, h]

theorem settle_of_le {least : Nat} {operator : Operator} (h : least ≤ operator.priority)
    (operands : List Linear) (waiting : List Pending) :
    settle policy least ⟨operands, .operator operator :: waiting⟩ =
      (operator.applyTo policy operands).outcome >>= fun operands =>
        settle policy least ⟨operands, waiting⟩ := by
  simp [settle, reduce, Nat.not_lt.2 h]

theorem settle_of_blocks {least : Nat} {waiting : List Pending} (blocks : Blocks least waiting)
    (operands : List Linear) :
    settle policy least ⟨operands, waiting⟩ = .ok ⟨operands, waiting⟩ := by
  match waiting with
  | [] => exact settle_nil policy least operands
  | .openParen :: rest => exact settle_openParen policy least operands rest
  | .operator _ :: rest => exact settle_of_lt policy blocks operands rest

/-- The operators that are applied are taken from the top one by one, until one blocks. -/
@[elab_as_elim]
theorem settle_induction {least : Nat}
    {motive : (s t : Stacks) → settle policy least s = .ok t → Prop}
    (stop : ∀ operands waiting (blocks : Blocks least waiting),
      motive ⟨operands, waiting⟩ ⟨operands, waiting⟩ (settle_of_blocks policy blocks operands))
    (apply : ∀ operator operands operands' waiting t (_ : least ≤ operator.priority)
      (_ : (Operator.applyTo policy operator operands).outcome = .ok operands')
      (rest : settle policy least ⟨operands', waiting⟩ = .ok t)
      (h : settle policy least ⟨operands, .operator operator :: waiting⟩ = .ok t),
      motive ⟨operands', waiting⟩ t rest → motive ⟨operands, .operator operator :: waiting⟩ t h)
    {s t : Stacks} (h : settle policy least s = .ok t) : motive s t h := by
  obtain ⟨operands, operators⟩ := s
  have stopped (waiting : List Pending) (blocks : Blocks least waiting) (operands : List Linear)
      (h : settle policy least ⟨operands, waiting⟩ = .ok t) : motive ⟨operands, waiting⟩ t h := by
    obtain rfl := Except.ok.inj ((settle_of_blocks policy blocks operands).symm.trans h)
    exact stop operands waiting blocks
  induction operators generalizing operands with
  | nil => exact stopped [] trivial operands h
  | cons top waiting ih =>
    match top with
    | .openParen => exact stopped (.openParen :: waiting) trivial operands h
    | .operator o =>
      by_cases low : o.priority < least
      · exact stopped (.operator o :: waiting) low operands h
      · have reached : least ≤ o.priority := Nat.not_lt.1 low
        obtain ⟨operands', applied, rest⟩ :=
          bind_eq_ok_iff.1 ((settle_of_le policy reached operands waiting).symm.trans h)
        exact apply o operands operands' waiting t reached applied rest h (ih operands' rest)

/-! #### Symbols -/

theorem outcome_step_literal (s : Stacks) (negated : Bool) (number : Token) :
    (step policy s (.literal negated number)).outcome =
      (number.literal negated).mapError .read >>= fun value =>
        .ok ⟨value :: s.operands, s.operators⟩ := by
  simp [step]

theorem outcome_step_openParen (s : Stacks) :
    (step policy s .openParen).outcome = .ok ⟨s.operands, .openParen :: s.operators⟩ := by
  simp [step]

theorem outcome_step_closeParen (s : Stacks) :
    (step policy s .closeParen).outcome = settle policy 0 s >>= close := by
  simp only [step, settle, Logged.outcome_bind]
  congr 1
  funext t
  unfold close
  split <;> simp_all

theorem outcome_step_negate (s : Stacks) :
    (step policy s (.operator .negate)).outcome =
      .ok ⟨s.operands, .operator .negate :: s.operators⟩ := by
  simp [step]

theorem outcome_step_binary (s : Stacks) (op : BinaryOp) :
    (step policy s (.operator (.binary op))).outcome =
      settle policy (Operator.binary op).priority s >>= fun s =>
        .ok ⟨s.operands, .operator (.binary op) :: s.operators⟩ := by
  simp [step, settle]

@[simp] theorem read_nil (s : Stacks) : read policy s [] = .ok s := rfl

theorem read_cons (s : Stacks) (u : Symbol) (us : List Symbol) :
    read policy s (u :: us) = (step policy s u).outcome >>= fun s => read policy s us := by
  simp [read]

theorem read_append (s : Stacks) (us ws : List Symbol) :
    read policy s (us ++ ws) = read policy s us >>= fun s => read policy s ws := by
  simp [read]

@[simp] theorem read_literal (s : Stacks) (negated : Bool) (number : Token) (us : List Symbol) :
    read policy s (.literal negated number :: us) =
      (number.literal negated).mapError .read >>= fun value =>
        read policy ⟨value :: s.operands, s.operators⟩ us := by
  simp only [read_cons, outcome_step_literal, bind_assoc, ok_bind]

@[simp] theorem read_openParen (s : Stacks) (us : List Symbol) :
    read policy s (.openParen :: us) =
      read policy ⟨s.operands, .openParen :: s.operators⟩ us := by
  rw [read_cons, outcome_step_openParen, ok_bind]

@[simp] theorem read_closeParen (s : Stacks) (us : List Symbol) :
    read policy s (.closeParen :: us) =
      settle policy 0 s >>= fun s => close s >>= fun s => read policy s us := by
  rw [read_cons, outcome_step_closeParen, bind_assoc]

@[simp] theorem read_negate (s : Stacks) (us : List Symbol) :
    read policy s (.operator .negate :: us) =
      read policy ⟨s.operands, .operator .negate :: s.operators⟩ us := by
  rw [read_cons, outcome_step_negate, ok_bind]

@[simp] theorem read_binary (s : Stacks) (op : BinaryOp) (us : List Symbol) :
    read policy s (.operator (.binary op) :: us) =
      settle policy (Operator.binary op).priority s >>= fun s =>
        read policy ⟨s.operands, .operator (.binary op) :: s.operators⟩ us := by
  simp only [read_cons, outcome_step_binary, bind_assoc, ok_bind]

theorem outcome_finish (s : Stacks) :
    (finish policy s).outcome = settle policy 0 s >>= result := by
  simp only [finish, settle, Logged.outcome_bind]
  congr 1
  funext t
  unfold result
  split <;> simp_all

end Stacks

theorem outcome_evaluateSymbols (policy : DivisionPolicy) (us : List Symbol) :
    (evaluateSymbols policy us).outcome =
      Stacks.read policy .empty us >>= fun s => Stacks.settle policy 0 s >>= Stacks.result := by
  simp only [evaluateSymbols, Logged.outcome_bind, Stacks.outcome_finish]
  rfl

/-! ### Lines -/

theorem Linear.eq_overflow_of_checked {word? : Option Word} {e : EvalError}
    (h : checked word? = .error e) : e = .overflow := by
  cases word? with
  | none => exact (Except.error.inj h).symm
  | some w => cases h

theorem Solution.eq_overflow_of_ofEquation {a b : Word} {e : EvalError}
    (h : ofEquation a b = .error e) : e = .overflow := by
  unfold ofEquation at h
  split at h
  · cases h
  · cases terms : ofRat? (Rat.divInt b.toInt a.toInt) with
    | none =>
      rw [terms] at h
      exact (Except.error.inj h).symm
    | some s =>
      rw [terms] at h
      cases h

namespace Equation

theorem outcome_parse (policy : DivisionPolicy) (line : String) :
    (parse policy line).outcome =
      if equalsSigns line = 1 then
        ((evaluate policy (sides line).1).outcome >>= fun left =>
          (evaluate policy (sides line).2).outcome >>= fun right =>
            .ok ⟨left, right⟩).mapError .evaluation
      else .error (.notAnEquation (equalsSigns line)) := by
  unfold parse
  split
  · simp
  · rfl

theorem outcome_solve (e : Equation) :
    e.solve.outcome = (e.coefficient >>= fun a => e.constant >>= fun b =>
      Solution.ofEquation a b).mapError .evaluation := by
  simp [solve]

/-- An equation that has been read can only fail to be solved by an overflow. -/
theorem eq_overflow_of_outcome_solve {e : Equation} {error : SolveError}
    (h : e.solve.outcome = .error error) : error = .evaluation .overflow := by
  rw [outcome_solve] at h
  obtain ⟨cause, failed, rfl⟩ := mapError_eq_error_iff.1 h
  obtain a | ⟨a, -, failed⟩ := bind_eq_error_iff.1 failed
  · rw [Linear.eq_overflow_of_checked a]
  obtain b | ⟨b, -, failed⟩ := bind_eq_error_iff.1 failed
  · rw [Linear.eq_overflow_of_checked b]
  · rw [Solution.eq_overflow_of_ofEquation failed]

end Equation

theorem outcome_solve (policy : DivisionPolicy) (line : String) :
    (solve policy line).outcome =
      (Equation.parse policy line).outcome >>= fun e => e.solve.outcome := by
  rw [solve, Logged.outcome_bind]

end OneUnknown
