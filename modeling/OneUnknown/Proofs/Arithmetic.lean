import Mathlib.Logic.Basic
import Mathlib.Tactic.ByContra
import OneUnknown.Expr
import OneUnknown.IntForm
import OneUnknown.Proofs.Outcome

/-!
# Arithmetic of forms

The checked operations on forms of words are those on forms of integers, followed by one check
whether the result is a form of words (`apply_eq`): no operation overflows on its way to a result
that fits, and none has another error than over the integers but an overflow.
-/

namespace OneUnknown

namespace Word

theorem toInt_eq_zero_iff {a : Word} : a.toInt = 0 ↔ a = 0 :=
  ⟨fun h => Int64.toInt_inj.1 (h.trans Int64.toInt_zero.symm), fun h => h ▸ Int64.toInt_zero⟩

theorem add?_zero_left (a : Word) : add? 0 a = some a := by
  rw [add?, ofInt?_eq_some_iff, Int64.toInt_zero, Int.zero_add]

theorem add?_zero_right (a : Word) : add? a 0 = some a := by
  rw [add?, ofInt?_eq_some_iff, Int64.toInt_zero, Int.add_zero]

/-- Only a quotient by minus one may be out of range. -/
theorem eq_neg_one_of_not_fits_tdiv {a n : Int} (fits : Fits a) (nonzero : n ≠ 0)
    (out : ¬ Fits (a.tdiv n)) : n = -1 := by
  by_contra other
  by_cases one : n = 1
  · subst one
    rw [Int.tdiv_one] at out
    exact out fits
  · have half : (a.tdiv n).natAbs ≤ a.natAbs / 2 := by
      rw [Int.natAbs_tdiv]
      exact Nat.div_le_div_left (by omega) (by decide)
    unfold Fits at fits out
    omega

end Word

namespace IntForm

/-! ### Negations -/

/-- The form, or its negation. -/
def signed (negated : Bool) (f : IntForm) : IntForm := if negated then f.neg else f

@[simp] theorem signed_false (f : IntForm) : f.signed false = f := rfl

@[simp] theorem signed_true (f : IntForm) : f.signed true = f.neg := rfl

theorem sub_eq_add_neg (f g : IntForm) : f.sub g = f.add g.neg :=
  IntForm.ext (Int.sub_eq_add_neg) (Int.sub_eq_add_neg)

theorem mul_neg_left (f g : IntForm) : f.neg.mul g = neg <$> f.mul g := by
  unfold mul
  by_cases both : f.coefficient ≠ 0 ∧ g.coefficient ≠ 0
  · rw [if_pos both, if_pos (by simpa [neg] using both)]
    rfl
  · rw [if_neg both, if_neg (by simpa [neg] using both)]
    refine congrArg Except.ok (IntForm.ext ?_ ?_)
    · simp only [neg, Int.neg_mul, Int.neg_add]
    · simp only [neg, Int.neg_mul]

theorem div_neg_left (policy : DivisionPolicy) (f g : IntForm) :
    f.neg.div policy g = neg <$> f.div policy g := by
  unfold div
  by_cases divisor : g.coefficient ≠ 0
  · rw [if_pos divisor, if_pos divisor]
    rfl
  · rw [if_neg divisor, if_neg divisor]
    by_cases zero : g.constant = 0
    · rw [if_pos zero, if_pos zero]
      rfl
    · rw [if_neg zero, if_neg zero]
      simp only [neg, Int.dvd_neg, Int.neg_tdiv]
      split <;> rfl

/-- Scaling the negation of a form gives the negation of the scaled form. -/
theorem apply_signed (policy : DivisionPolicy) (op : Scale) (negated : Bool) (f g : IntForm) :
    apply policy op.op (f.signed negated) g = signed negated <$> apply policy op.op f g := by
  cases negated with
  | false => exact (id_map (apply policy op.op f g)).symm
  | true =>
    cases op with
    | times => exact mul_neg_left f g
    | divide => exact div_neg_left policy f g

/-! ### Forms of words -/

/-- Both numbers of a form are words. -/
def Fits (f : IntForm) : Prop := Word.Fits f.coefficient ∧ Word.Fits f.constant

/-- The form of words that denotes the same, if there is one. -/
def toLinear? (f : IntForm) : Option Linear := do
  return ⟨← Word.ofInt? f.coefficient, ← Word.ofInt? f.constant⟩

/-- The form of words that denotes the same, where being out of range is an error. -/
def checked (f : IntForm) : Except EvalError Linear := f.toLinear?.elim (.error .overflow) .ok

theorem ofLinear_inj {p q : Linear} : ofLinear p = ofLinear q ↔ p = q := by
  refine ⟨fun h => ?_, congrArg ofLinear⟩
  obtain ⟨coefficient, constant⟩ := IntForm.mk.inj h
  exact Linear.ext (Int64.toInt_inj.1 coefficient) (Int64.toInt_inj.1 constant)

theorem fits_ofLinear (p : Linear) : (ofLinear p).Fits :=
  ⟨Word.fits_toInt p.coefficient, Word.fits_toInt p.constant⟩

theorem toLinear?_eq_some_iff {f : IntForm} {p : Linear} :
    f.toLinear? = some p ↔ ofLinear p = f := by
  obtain ⟨a, b⟩ := f
  obtain ⟨c, d⟩ := p
  simp only [toLinear?, Option.bind_eq_bind, Option.bind_eq_some_iff, Word.ofInt?_eq_some_iff,
    Option.pure_def, Option.some.injEq, Linear.mk.injEq, ofLinear, mk.injEq]
  constructor
  · rintro ⟨_, rfl, _, rfl, rfl, rfl⟩
    exact ⟨rfl, rfl⟩
  · rintro ⟨rfl, rfl⟩
    exact ⟨c, rfl, d, rfl, rfl, rfl⟩

theorem toLinear?_of_fits {f : IntForm} (h : f.Fits) : ∃ p, f.toLinear? = some p := by
  refine ⟨⟨Int64.ofInt f.coefficient, Int64.ofInt f.constant⟩, toLinear?_eq_some_iff.2 ?_⟩
  exact IntForm.ext (Word.toInt_ofInt h.1) (Word.toInt_ofInt h.2)

theorem toLinear?_eq_none_iff {f : IntForm} : f.toLinear? = none ↔ ¬ f.Fits := by
  constructor
  · intro none fits
    obtain ⟨p, some⟩ := toLinear?_of_fits fits
    rw [none] at some
    cases some
  · intro out
    cases h : f.toLinear? with
    | none => rfl
    | some p => exact absurd (toLinear?_eq_some_iff.1 h ▸ fits_ofLinear p) out

theorem checked_eq_ok_iff {f : IntForm} {p : Linear} : f.checked = .ok p ↔ ofLinear p = f := by
  rw [← toLinear?_eq_some_iff, checked]
  cases f.toLinear? <;> simp

theorem checked_of_not_fits {f : IntForm} (h : ¬ f.Fits) : f.checked = .error .overflow := by
  rw [checked, toLinear?_eq_none_iff.2 h]
  rfl

/-- Both numbers are checked one after the other. -/
theorem checked_eq (f : IntForm) :
    f.checked = do
      return ⟨← Linear.checked (Word.ofInt? f.coefficient),
        ← Linear.checked (Word.ofInt? f.constant)⟩ := by
  unfold checked toLinear? Linear.checked
  cases Word.ofInt? f.coefficient <;> cases Word.ofInt? f.constant <;> rfl

end IntForm

namespace Linear

open IntForm

theorem checked_some (w : Word) : checked (some w) = .ok w := rfl

theorem add_eq (p q : Linear) : p.add q = (IntForm.add (ofLinear p) (ofLinear q)).checked :=
  (checked_eq (IntForm.add (ofLinear p) (ofLinear q))).symm

theorem sub_eq (p q : Linear) : p.sub q = (IntForm.sub (ofLinear p) (ofLinear q)).checked :=
  (checked_eq (IntForm.sub (ofLinear p) (ofLinear q))).symm

theorem neg_eq (p : Linear) : p.neg = (IntForm.neg (ofLinear p)).checked :=
  (checked_eq (IntForm.neg (ofLinear p))).symm

theorem isConstant_iff {p : Linear} : p.IsConstant ↔ (ofLinear p).coefficient = 0 :=
  Word.toInt_eq_zero_iff.symm

theorem mul_eq (p q : Linear) :
    p.mul q = IntForm.mul (ofLinear p) (ofLinear q) >>= IntForm.checked := by
  unfold mul IntForm.mul
  by_cases both : ¬ p.IsConstant ∧ ¬ q.IsConstant
  · rw [if_pos both, if_pos (by rwa [isConstant_iff, isConstant_iff] at both), error_bind]
  · rw [if_neg both, if_neg (by rwa [isConstant_iff, isConstant_iff] at both), ok_bind, checked_eq]
    -- One of the two products in the middle is zero, so their sum is the other one.
    rcases not_and_or.1 both with constant | constant
    · rw [not_not, IsConstant] at constant
      have zero : p.coefficient.mul? q.constant = some 0 := by
        rw [Word.mul?, Word.ofInt?_eq_some_iff, constant, Int64.toInt_zero, Int.zero_mul]
      have sum : Word.ofInt? ((ofLinear p).coefficient * (ofLinear q).constant +
          (ofLinear p).constant * (ofLinear q).coefficient) = p.constant.mul? q.coefficient := by
        simp only [ofLinear, constant, Int64.toInt_zero, Int.zero_mul, Int.zero_add, Word.mul?]
      rw [zero, sum, checked_some, ok_bind]
      simp only [Word.add?_zero_left]
      cases p.constant.mul? q.coefficient <;> rfl
    · rw [not_not, IsConstant] at constant
      have zero : p.constant.mul? q.coefficient = some 0 := by
        rw [Word.mul?, Word.ofInt?_eq_some_iff, constant, Int64.toInt_zero, Int.mul_zero]
      have sum : Word.ofInt? ((ofLinear p).coefficient * (ofLinear q).constant +
          (ofLinear p).constant * (ofLinear q).coefficient) = p.coefficient.mul? q.constant := by
        simp only [ofLinear, constant, Int64.toInt_zero, Int.mul_zero, Int.add_zero, Word.mul?]
      rw [zero, sum]
      simp only [checked_some, ok_bind, Word.add?_zero_right]
      cases p.coefficient.mul? q.constant <;> rfl

theorem divisible_iff {p q : Linear} :
    p.Divisible q.constant ↔ (ofLinear q).constant ∣ (ofLinear p).coefficient ∧
      (ofLinear q).constant ∣ (ofLinear p).constant :=
  Iff.rfl

theorem div_eq (policy : DivisionPolicy) (p q : Linear) :
    p.div policy q = IntForm.div policy (ofLinear p) (ofLinear q) >>= IntForm.checked := by
  unfold div IntForm.div
  by_cases constant : q.IsConstant
  · rw [if_neg (not_not.2 constant), if_neg (not_not.2 (isConstant_iff.1 constant))]
    by_cases zero : q.constant = 0
    · have none : (ofLinear q).constant = 0 := Word.toInt_eq_zero_iff.2 zero
      rw [if_pos zero, if_pos none, error_bind]
    · have nonzero : (ofLinear q).constant ≠ 0 := fun h => zero (Word.toInt_eq_zero_iff.1 h)
      rw [if_neg zero, if_neg nonzero]
      simp only [divisible_iff]
      by_cases inexact : policy = .reject ∧ ¬ ((ofLinear q).constant ∣ (ofLinear p).coefficient ∧
          (ofLinear q).constant ∣ (ofLinear p).constant)
      · -- A quotient that is out of range is one by minus one, and exact.
        have fits : ∀ a : Word, Word.Fits (a.toInt.tdiv (ofLinear q).constant) := by
          intro a
          by_contra out
          have one := Word.eq_neg_one_of_not_fits_tdiv (Word.fits_toInt a) nonzero out
          refine inexact.2 ⟨?_, ?_⟩ <;> rw [one, Int.neg_dvd] <;> exact Int.one_dvd _
        have some : ∀ a : Word, ∃ w, a.quot? q.constant = some w := fun a =>
          ⟨_, Word.ofInt?_eq_some_iff.2 (Word.toInt_ofInt (fits a))⟩
        obtain ⟨v, coefficient⟩ := some p.coefficient
        obtain ⟨w, constant⟩ := some p.constant
        rw [coefficient, constant, checked_some, checked_some, ok_bind, ok_bind, if_pos inexact,
          if_pos inexact, error_bind]
      · simp only [if_neg inexact, ok_bind, checked_eq]
        rfl
  · rw [if_pos constant, if_pos (fun h => constant (isConstant_iff.2 h)), error_bind]

theorem apply_eq (policy : DivisionPolicy) (op : BinaryOp) (p q : Linear) :
    apply policy op p q =
      IntForm.apply policy op (ofLinear p) (ofLinear q) >>= IntForm.checked := by
  cases op with
  | plus => exact add_eq p q
  | minus => exact sub_eq p q
  | times => exact mul_eq p q
  | divide => exact div_eq policy p q

end Linear

/-! ### Errors of operations -/

/-- The error is that of an operation on forms. That a quotient is not whole is an error under one
policy only. -/
def EvalError.IsArithmetic (policy : DivisionPolicy) : EvalError → Prop
  | .read _ | .malformed => False
  | .inexactDivision => policy = .reject
  | .divisionByVariable | .divisionByZero | .nonlinear | .overflow => True

theorem IntForm.eq_overflow_of_checked {f : IntForm} {e : EvalError} (h : f.checked = .error e) :
    e = .overflow := by
  unfold checked at h
  cases some : f.toLinear? with
  | none =>
    rw [some] at h
    cases h
    rfl
  | some p =>
    rw [some] at h
    cases h

theorem Linear.eq_overflow_of_neg {p : Linear} {e : EvalError} (h : p.neg = .error e) :
    e = .overflow := by
  rw [neg_eq] at h
  exact IntForm.eq_overflow_of_checked h

theorem IntForm.isArithmetic_of_apply {policy : DivisionPolicy} {op : BinaryOp} {f g : IntForm}
    {e : EvalError} (h : apply policy op f g = .error e) : e.IsArithmetic policy := by
  cases op with
  | plus | minus => cases h
  | times =>
    simp only [apply, mul] at h
    split at h
    · cases h
      trivial
    · cases h
  | divide =>
    simp only [apply, div] at h
    split at h
    · cases h
      trivial
    split at h
    · cases h
      trivial
    split at h
    · next inexact =>
      cases h
      exact inexact.1
    · cases h

theorem Linear.isArithmetic_of_apply {policy : DivisionPolicy} {op : BinaryOp} {p q : Linear}
    {e : EvalError} (h : apply policy op p q = .error e) : e.IsArithmetic policy := by
  rw [apply_eq, bind_eq_error_iff] at h
  obtain h | ⟨f, -, h⟩ := h
  · exact IntForm.isArithmetic_of_apply h
  · rw [IntForm.eq_overflow_of_checked h]
    trivial

end OneUnknown
