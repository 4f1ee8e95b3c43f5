import OneUnknown.Proofs.Blanks
import OneUnknown.Proofs.Printing
import OneUnknown.Proofs.Rounding

/-!
# Messages

A message repeats nothing of a text but a single character that is no blank, or a literal without
its blanks. The only errors of an evaluation that repeat a literal are those of the literals that it
reads (`exists_literal_of_outcome_evaluateSymbols`). So every answer stands on one line, whatever
the line contains that it answers (`newline_not_mem_answer`).
-/

namespace OneUnknown

open Text

variable {policy : DivisionPolicy}

/-! ### Errors of literals and texts -/

/-- What the error repeats of a text has no blanks. -/
def ReadError.RepeatsNoBlank : ReadError → Prop
  | .unsupported character _ => isBlank character = false
  | .outOfRange text _ => ∀ c ∈ text.toList, isBlank c = false

namespace Token

variable {negated : Bool} {t : Token} {cause : ReadError}

theorem not_isBlank_of_mem_signedText {c : Char} (h : c ∈ t.signedText negated) :
    isBlank c = false := by
  rcases List.mem_append.1 h with sign | numeral
  · cases negated with
    | false => cases sign
    | true =>
      obtain rfl := List.mem_singleton.1 sign
      decide
  · exact not_isBlank_of_mem_compact numeral

theorem repeatsNoBlank_of_word {numeral : List Char} (h : t.word negated numeral = .error cause) :
    cause.RepeatsNoBlank := by
  unfold word at h
  cases value : (integer? numeral).bind Word.ofInt? with
  | some w =>
    rw [value] at h
    cases h
  | none =>
    rw [value] at h
    cases h
    intro c member
    rw [String.toList_ofList] at member
    exact not_isBlank_of_mem_signedText member

theorem repeatsNoBlank_of_literal (h : t.literal negated = .error cause) :
    cause.RepeatsNoBlank := by
  unfold literal at h
  dsimp only at h
  split at h
  · exact repeatsNoBlank_of_word (map_eq_error_iff.1 h)
  · exact repeatsNoBlank_of_word (map_eq_error_iff.1 h)

theorem repeatsNoBlank_of_lex {start : Nat} {s : List Char} (h : lex start s = .error cause) :
    cause.RepeatsNoBlank := by
  obtain ⟨c, i, rfl, kept⟩ := exists_unsupported_of_lex h
  exact kept

end Token

/-! ### Errors of an evaluation -/

theorem Operator.applyTo_ne_read (operator : Operator) (operands : List Linear)
    (cause : ReadError) : (operator.applyTo policy operands).outcome ≠ .error (.read cause) := by
  match operator, operands with
  | .negate, [] | .binary _, [] | .binary _, [_] => exact nofun
  | .negate, operand :: rest =>
    rw [outcome_applyTo_negate]
    exact bind_ne_error (mt Linear.eq_overflow_of_neg nofun) nofun
  | .binary op, right :: left :: rest =>
    rw [outcome_applyTo_binary]
    exact bind_ne_error (mt Linear.isArithmetic_of_apply id) nofun

namespace Stacks

variable {s : Stacks} {cause : ReadError}

theorem settle_ne_read (least : Nat) (s : Stacks) (cause : ReadError) :
    settle policy least s ≠ .error (.read cause) := by
  obtain ⟨operands, operators⟩ := s
  induction operators generalizing operands with
  | nil =>
    rw [settle_nil]
    exact nofun
  | cons top waiting ih =>
    match top with
    | .openParen =>
      rw [settle_openParen]
      exact nofun
    | .operator o =>
      by_cases low : o.priority < least
      · rw [settle_of_lt policy low]
        exact nofun
      · rw [settle_of_le policy (Nat.not_lt.1 low)]
        exact bind_ne_error (o.applyTo_ne_read operands cause) ih

theorem close_ne_read (s : Stacks) (cause : ReadError) : close s ≠ .error (.read cause) := by
  unfold close
  split <;> exact nofun

theorem result_ne_read (s : Stacks) (cause : ReadError) : result s ≠ .error (.read cause) := by
  unfold result
  split <;> exact nofun

/-- The only symbol that can fail to be read is a literal. -/
theorem exists_literal_of_outcome_step {u : Symbol}
    (h : (step policy s u).outcome = .error (.read cause)) :
    ∃ negated number, u = .literal negated number ∧ number.literal negated = .error cause := by
  match u with
  | .literal negated number =>
    rw [outcome_step_literal, bind_eq_error_iff] at h
    obtain h | ⟨value, -, h⟩ := h
    · obtain ⟨cause', failed, same⟩ := mapError_eq_error_iff.1 h
      obtain rfl := EvalError.read.inj same
      exact ⟨negated, number, rfl, failed⟩
    · cases h
  | .openParen =>
    rw [outcome_step_openParen] at h
    cases h
  | .closeParen =>
    rw [outcome_step_closeParen] at h
    exact absurd h (bind_ne_error (settle_ne_read 0 s cause) fun t => close_ne_read t cause)
  | .operator .negate =>
    rw [outcome_step_negate] at h
    cases h
  | .operator (.binary op) =>
    rw [outcome_step_binary] at h
    exact absurd h (bind_ne_error (settle_ne_read _ s cause) nofun)

/-- Reading symbols can fail at one of their literals only. -/
theorem exists_literal_of_read {us : List Symbol}
    (h : read policy s us = .error (.read cause)) :
    ∃ negated number, .literal negated number ∈ us ∧ number.literal negated = .error cause := by
  induction us generalizing s with
  | nil => cases h
  | cons u us ih =>
    rw [read_cons, bind_eq_error_iff] at h
    obtain first | ⟨t, -, rest⟩ := h
    · obtain ⟨negated, number, rfl, failed⟩ := exists_literal_of_outcome_step first
      exact ⟨negated, number, List.mem_cons_self, failed⟩
    · obtain ⟨negated, number, member, failed⟩ := ih rest
      exact ⟨negated, number, List.mem_cons_of_mem _ member, failed⟩

end Stacks

theorem exists_literal_of_outcome_evaluateSymbols {us : List Symbol} {cause : ReadError}
    (h : (evaluateSymbols policy us).outcome = .error (.read cause)) :
    ∃ negated number, .literal negated number ∈ us ∧ number.literal negated = .error cause := by
  rw [outcome_evaluateSymbols, bind_eq_error_iff] at h
  obtain h | ⟨s, -, h⟩ := h
  · exact Stacks.exists_literal_of_read h
  · exact absurd h (bind_ne_error (Stacks.settle_ne_read 0 s cause)
      fun t => Stacks.result_ne_read t cause)

theorem repeatsNoBlank_of_outcome_evaluateTokens {ts : List Token} {cause : ReadError}
    (h : (evaluateTokens policy ts).outcome = .error (.read cause)) : cause.RepeatsNoBlank := by
  by_cases none : ts = []
  · subst none
    cases h
  · rw [evaluateTokens_of_ne_nil none] at h
    obtain ⟨negated, number, -, failed⟩ := exists_literal_of_outcome_evaluateSymbols h
    exact Token.repeatsNoBlank_of_literal failed

theorem repeatsNoBlank_of_outcome_evaluate {source : String} {cause : ReadError}
    (h : (evaluate policy source).outcome = .error (.read cause)) : cause.RepeatsNoBlank := by
  rw [outcome_evaluate, bind_eq_error_iff] at h
  obtain h | ⟨ts, -, h⟩ := h
  · obtain ⟨cause', failed, same⟩ := mapError_eq_error_iff.1 h
    obtain rfl := EvalError.read.inj same
    exact Token.repeatsNoBlank_of_lex failed
  · exact repeatsNoBlank_of_outcome_evaluateTokens h

/-! ### Errors of a line -/

theorem Equation.repeatsNoBlank_of_outcome_parse {line : String} {cause : ReadError}
    (h : (parse policy line).outcome = .error (.evaluation (.read cause))) :
    cause.RepeatsNoBlank := by
  rw [outcome_parse] at h
  split at h
  · obtain ⟨e, failed, same⟩ := mapError_eq_error_iff.1 h
    obtain rfl := SolveError.evaluation.inj same
    rw [bind_eq_error_iff] at failed
    obtain left | ⟨l, -, failed⟩ := failed
    · exact repeatsNoBlank_of_outcome_evaluate left
    rw [bind_eq_error_iff] at failed
    obtain right | ⟨r, -, h⟩ := failed
    · exact repeatsNoBlank_of_outcome_evaluate right
    · cases h
  · cases h

theorem repeatsNoBlank_of_outcome_solve {line : String} {cause : ReadError}
    (h : (solve policy line).outcome = .error (.evaluation (.read cause))) :
    cause.RepeatsNoBlank := by
  rw [outcome_solve, bind_eq_error_iff] at h
  obtain h | ⟨e, -, h⟩ := h
  · exact Equation.repeatsNoBlank_of_outcome_parse h
  · exact nomatch Equation.eq_overflow_of_outcome_solve h

/-! ### Texts on one line -/

theorem newline_not_mem_toDigits (n : Nat) : '\n' ∉ Nat.toDigits 10 n :=
  fun h => absurd (Token.isDigit_of_mem_toDigits h) (by decide)

/-- A line feed is a blank. -/
theorem ne_newline_of_not_isBlank {c : Char} (h : isBlank c = false) : c ≠ '\n' := by
  rintro rfl
  exact absurd h (by decide)

theorem ReadError.message_unsupported (c : Char) (index : Nat) :
    (unsupported c index).message =
      "Unsupported operator, \"" ++ .singleton c ++ "\", at index " ++ index.repr := rfl

theorem ReadError.message_outOfRange (text : String) (span : Span) :
    (outOfRange text span).message = "The number \"" ++ text ++ "\" is too large" := rfl

theorem ReadError.newline_not_mem_message {cause : ReadError} (h : cause.RepeatsNoBlank) :
    '\n' ∉ cause.message.toList := by
  cases cause with
  | unsupported character index =>
    have other : character ≠ '\n' := ne_newline_of_not_isBlank h
    rw [message_unsupported]
    simp [other.symm, newline_not_mem_toDigits]
  | outOfRange text span =>
    have other : '\n' ∉ text.toList := fun member => ne_newline_of_not_isBlank (h _ member) rfl
    rw [message_outOfRange]
    simp [other]

theorem EvalError.newline_not_mem_message {e : EvalError}
    (h : ∀ cause, e = .read cause → cause.RepeatsNoBlank) : '\n' ∉ e.message.toList := by
  cases e with
  | read cause => exact ReadError.newline_not_mem_message (h cause rfl)
  | _ => simp [message]

theorem Word.newline_not_mem_numeral (w : Word) : '\n' ∉ w.numeral.toList := by
  rw [toList_numeral]
  split <;> simp [newline_not_mem_toDigits]

theorem digitChar_ne_newline (n : Nat) : n.digitChar ≠ '\n' := by
  grind [Nat.digitChar]

theorem Decimal.newline_not_mem_toString (d : Decimal) : '\n' ∉ d.toString.toList := by
  rw [toList_toString]
  split <;> split <;> simp [newline_not_mem_toDigits, digitChar_ne_newline]

theorem Solution.newline_not_mem_toText (precision : Nat) (s : Solution) :
    '\n' ∉ (s.toText precision).toList := by
  cases s with
  | exact x => simp [toText, x.newline_not_mem_numeral]
  | fraction n d => simp [toText, Decimal.newline_not_mem_toString]
  | infinite | noSolution => simp [toText]

/-- Every answer stands on one line. -/
theorem newline_not_mem_answer (options : Options) (line : String) :
    '\n' ∉ (answer options line).toList := by
  unfold answer
  split
  · next s _ => exact s.newline_not_mem_toText options.precision
  · next e failed =>
    cases e with
    | notAnEquation equalsSigns => simp [SolveError.message]
    | evaluation e =>
      refine EvalError.newline_not_mem_message fun cause same => ?_
      subst same
      exact repeatsNoBlank_of_outcome_solve failed

end OneUnknown
