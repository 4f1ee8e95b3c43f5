import OneUnknown.Proofs.LowestTerms
import OneUnknown.Proofs.Rounding

/-!
# Answers without a fault

A machine answers every line and evaluates all tokens without a fault, as long as at most 65535
places are asked for (`answer_and_evaluateTokens_never_fault`). The denominator of a fraction is
never zero, and the numbers of a long division stay below ten times the divisor, which is a word.
-/

namespace OneUnknown

/-! ### Solutions -/

theorem denominator_ne_zero_of_outcome_solve {policy : DivisionPolicy} {line : String} {n d : Word}
    (h : (solve policy line).outcome = .ok (.fraction n d)) : d ≠ 0 := by
  rw [outcome_solve] at h
  obtain ⟨e, -, solved⟩ := bind_eq_ok_iff.1 h
  rintro rfl
  exact absurd (Equation.lowest_of_outcome_solve solved).1 (by decide)

namespace Machine

open Run

variable {ε : Type} {policy : DivisionPolicy}

theorem wide_eq {n : Nat} (h : n < 2 ^ 128) : (wide n : Run ε _) = .ok n := bounded_eq h

theorem byte_eq {n : Nat} (h : n < 256) : (byte n : Run ε _) = .ok n := bounded_eq h

theorem expand_eq {divisor r : Nat} (small : divisor ≤ 2 ^ 64) (h : r < divisor) (count : Nat) :
    (expand divisor count r : Run ε _) = .ok (Decimal.expand divisor count r) := by
  induction count generalizing r with
  | zero => rfl
  | succ count ih =>
    have nonzero : divisor ≠ 0 := Nat.ne_zero_of_lt h
    have digit : 10 * r / divisor < 256 :=
      (Nat.div_lt_of_lt_mul (show 10 * r < divisor * 10 by omega)).trans (by decide)
    rw [expand, wide_eq (by omega), ok_bind, quotient_eq _ nonzero, ok_bind, byte_eq digit, ok_bind,
      remainder_eq _ nonzero, ok_bind, ih (Nat.mod_lt _ (Nat.zero_lt_of_lt h))]
    rfl

theorem increment_eq {digits : List Nat} (h : ∀ digit ∈ digits, digit < 10) :
    (increment digits : Run ε _) = .ok (Decimal.increment digits) := by
  induction digits with
  | nil => rfl
  | cons digit digits ih =>
    have small : digit + 1 < 256 := by
      have := h digit List.mem_cons_self
      omega
    rw [increment, ih fun d member => h d (List.mem_cons_of_mem _ member), ok_bind, byte_eq small]
    simp only [Decimal.increment]
    split
    · rfl
    split <;> rfl

theorem ofQuotient_eq {dividend divisor : Nat} (count : Nat) (small : dividend ≤ 2 ^ 64)
    (small' : divisor ≤ 2 ^ 64) (nonzero : divisor ≠ 0) :
    (ofQuotient count dividend divisor : Run ε _) =
      .ok (Decimal.ofQuotient count dividend divisor) := by
  have start : dividend % divisor < divisor := Nat.mod_lt _ (Nat.pos_of_ne_zero nonzero)
  have last := Decimal.remainder_expand_lt start count
  have digits := Decimal.digit_expand_lt start count
  have whole : dividend / divisor + 1 < 2 ^ 128 := by
    have := Nat.div_le_self dividend divisor
    omega
  rw [ofQuotient, quotient_eq _ nonzero, ok_bind, remainder_eq _ nonzero, ok_bind,
    expand_eq small' start, ok_bind]
  dsimp only
  rw [wide_eq (by omega), ok_bind, increment_eq digits, wide_eq whole]
  simp only [Decimal.ofQuotient]
  split
  · rfl
  · rw [ok_bind]
    split <;> rfl

theorem natAbs_le (w : Word) : w.toInt.natAbs ≤ 2 ^ 64 := by
  have range := Word.fits_toInt w
  unfold Word.Fits at range
  omega

theorem ofFraction_eq (count : Nat) (numerator : Word) {denominator : Word}
    (nonzero : denominator ≠ 0) :
    (ofFraction count numerator denominator : Run ε _) =
      .ok (Decimal.ofFraction count numerator.toInt denominator.toInt) := by
  have other : denominator.toInt.natAbs ≠ 0 :=
    Int.natAbs_ne_zero.2 fun zero => nonzero (Word.toInt_eq_zero_iff.1 zero)
  rw [ofFraction, ofQuotient_eq count (natAbs_le numerator) (natAbs_le denominator) other]
  rfl

theorem toText_eq {precision : Nat} (small : precision < 65536) {s : Solution}
    (h : ∀ n d, s = .fraction n d → d ≠ 0) :
    (toText precision s : Run ε _) = .ok (s.toText precision) := by
  unfold toText
  rw [ensure_of small, ok_bind]
  cases s with
  | fraction n d =>
    dsimp only
    rw [ofFraction_eq precision n (h n d rfl)]
    rfl
  | exact | infinite | noSolution => rfl

/-! ### Answers -/

variable {options : Options}

theorem answer_eq (small : options.precision < 65536) (line : String) :
    answer options line = .ok (OneUnknown.answer options line) := by
  rw [answer, OneUnknown.answer, solve_eq]
  cases solved : (OneUnknown.solve options.policy line).outcome with
  | error e => rfl
  | ok s =>
    refine toText_eq small fun n d same => ?_
    subst same
    exact denominator_ne_zero_of_outcome_solve solved

/-- No text makes a machine use an operation outside of its domain, if at most 65535 places are
asked for: it gives the answer that this library gives. And no sequence of tokens does, whatever
their kinds, texts and spans are: their evaluation has the outcome that it has here. -/
theorem answer_and_evaluateTokens_never_fault (small : options.precision ≤ 65535) :
    (∀ line, answer options line = .ok (OneUnknown.answer options line)) ∧
      ∀ ts, evaluateTokens options.policy ts =
          sound (OneUnknown.evaluateTokens options.policy ts).outcome ∧
        ∀ f, evaluateTokens options.policy ts ≠ .error (.fault f) := by
  refine ⟨fun line => answer_eq (Nat.lt_succ_of_le small) line,
    fun ts => ⟨evaluateTokens_eq ts, fun f => ?_⟩⟩
  rw [evaluateTokens_eq]
  exact sound_ne_fault _ f

theorem answer_two_unknown_is_one :
    (⟨.reject, 2⟩ : Options).precision ≤ 65535 ∧
      answer ⟨.reject, 2⟩ "2\u00a0x = 1" = .ok "x = 0.50" ∧
      evaluateTokens .reject [⟨.closeParen, "x", ⟨1, 0⟩⟩] = .error (.error .malformed) := by
  have small : (⟨.reject, 2⟩ : Options).precision ≤ 65535 := by decide
  obtain ⟨answers, evaluates⟩ := answer_and_evaluateTokens_never_fault small
  refine ⟨small, ?_, ?_⟩
  · rw [answers]
    decide +kernel
  · rw [(evaluates _).1]
    decide +kernel

/-- The bound is sharp: with more places, every line with a solution leads to a fault. -/
theorem answer_eq_fault (large : 65536 ≤ options.precision) {line : String} {s : Solution}
    (solved : (OneUnknown.solve options.policy line).outcome = .ok s) :
    answer options line = .error (.fault .precision) := by
  rw [answer, solve_eq, solved]
  unfold toText ensure
  rw [sound_ok]
  dsimp only
  rw [if_neg (Nat.not_lt.2 large)]
  rfl

end Machine

end OneUnknown
