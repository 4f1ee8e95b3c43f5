import Mathlib.Algebra.Polynomial.Degree.SmallDegree
import Mathlib.Algebra.Polynomial.Eval.Degree
import OneUnknown.Proofs.Arithmetic

/-!
# Forms as polynomials

A form denotes a polynomial over the integers of degree at most one. The sum, difference and
negation of forms, and their product, denote those of the polynomials, or there is a reason why not:
the exact polynomial has a term of degree two, or one of its coefficients is no word
(`Linear.operations_exact`). A product that can be returned is not lost on the way: of the two
products that are added for its coefficient, one is zero.
-/

open Polynomial

namespace OneUnknown

namespace IntForm

/-- The polynomial that a form denotes. -/
noncomputable def polynomial (f : IntForm) : ℤ[X] := C f.coefficient * X + C f.constant

@[simp] theorem coeff_zero_polynomial (f : IntForm) : f.polynomial.coeff 0 = f.constant := by
  simp [polynomial]

@[simp] theorem coeff_one_polynomial (f : IntForm) : f.polynomial.coeff 1 = f.coefficient := by
  rw [polynomial, coeff_add, coeff_C_mul, coeff_X_one, mul_one, coeff_C_succ, add_zero]

theorem natDegree_polynomial_le (f : IntForm) : f.polynomial.natDegree ≤ 1 := natDegree_linear_le

@[simp] theorem coeff_two_polynomial (f : IntForm) : f.polynomial.coeff 2 = 0 :=
  coeff_eq_zero_of_natDegree_lt (Nat.lt_succ_of_le f.natDegree_polynomial_le)

@[simp] theorem eval_polynomial (f : IntForm) (x : ℤ) :
    f.polynomial.eval x = f.coefficient * x + f.constant := by
  simp [polynomial]

theorem polynomial_add (f g : IntForm) : (f.add g).polynomial = f.polynomial + g.polynomial := by
  simp only [polynomial, add, C_add]
  ring

theorem polynomial_sub (f g : IntForm) : (f.sub g).polynomial = f.polynomial - g.polynomial := by
  simp only [polynomial, sub, C_sub]
  ring

theorem polynomial_neg (f : IntForm) : f.neg.polynomial = -f.polynomial := by
  simp only [polynomial, neg, C_neg]
  ring

theorem polynomial_mul (f g : IntForm) :
    f.polynomial * g.polynomial =
      C (f.coefficient * g.coefficient) * X ^ 2 +
        polynomial ⟨f.coefficient * g.constant + f.constant * g.coefficient,
          f.constant * g.constant⟩ := by
  simp only [polynomial, C_add, C_mul]
  ring

theorem coeff_two_polynomial_mul (f g : IntForm) :
    (f.polynomial * g.polynomial).coeff 2 = f.coefficient * g.coefficient := by
  rw [polynomial_mul, coeff_add, coeff_C_mul_X_pow, if_pos rfl, coeff_two_polynomial, add_zero]

theorem mul_comm (f g : IntForm) : f.mul g = g.mul f := by
  refine if_congr and_comm rfl (congrArg Except.ok (IntForm.ext ?_ (Int.mul_comm _ _)))
  rw [Int.mul_comm g.coefficient, Int.mul_comm g.constant, Int.add_comm]

end IntForm

namespace Linear

/-- The polynomial that a form denotes. -/
noncomputable def polynomial (p : Linear) : ℤ[X] := (IntForm.ofLinear p).polynomial

/-- An operation whose exact result is the polynomial `f` ends with the form that denotes `f` if
there is one, with an error of its own if `f` is of degree two, and otherwise with an overflow. -/
structure IsExact (f : ℤ[X]) (outcome : Except EvalError Linear) : Prop where
  ok_iff : (∃ r, outcome = .ok r) ↔
    f.natDegree ≤ 1 ∧ Word.Fits (f.coeff 1) ∧ Word.Fits (f.coeff 0)
  eval_eq : ∀ r, outcome = .ok r → ∀ x : ℤ, r.coefficient.toInt * x + r.constant.toInt = f.eval x
  nonlinear_iff : outcome = .error .nonlinear ↔ f.coeff 2 ≠ 0
  overflow_iff : outcome = .error .overflow ↔
    f.coeff 2 = 0 ∧ ¬ (f.natDegree ≤ 1 ∧ Word.Fits (f.coeff 1) ∧ Word.Fits (f.coeff 0))

/-- A form over the integers is checked once, when its numbers are known. -/
theorem isExact_checked (f : IntForm) : IsExact f.polynomial f.checked := by
  have range : (f.polynomial.natDegree ≤ 1 ∧ Word.Fits (f.polynomial.coeff 1) ∧
      Word.Fits (f.polynomial.coeff 0)) ↔ f.Fits := by
    rw [IntForm.coeff_one_polynomial, IntForm.coeff_zero_polynomial]
    exact and_iff_right f.natDegree_polynomial_le
  by_cases fits : f.Fits
  · obtain ⟨p, form⟩ := IntForm.toLinear?_of_fits fits
    have value : f.checked = .ok p :=
      IntForm.checked_eq_ok_iff.2 (IntForm.toLinear?_eq_some_iff.1 form)
    rw [value]
    refine ⟨iff_of_true ⟨p, rfl⟩ (range.2 fits), fun r same x => ?_, ?_, ?_⟩
    · obtain rfl := Except.ok.inj same
      rw [← IntForm.toLinear?_eq_some_iff.1 form, IntForm.eval_polynomial]
      rfl
    · exact iff_of_false nofun fun square => square f.coeff_two_polynomial
    · exact iff_of_false nofun fun other => other.2 (range.2 fits)
  · rw [IntForm.checked_of_not_fits fits]
    refine ⟨iff_of_false nofun (mt range.1 fits), nofun, ?_, ?_⟩
    · exact iff_of_false nofun fun square => square f.coeff_two_polynomial
    · exact iff_of_true rfl ⟨f.coeff_two_polynomial, mt range.1 fits⟩

theorem isExact_add (p q : Linear) : IsExact (p.polynomial + q.polynomial) (p.add q) := by
  rw [add_eq, polynomial, polynomial, ← IntForm.polynomial_add]
  exact isExact_checked _

theorem isExact_sub (p q : Linear) : IsExact (p.polynomial - q.polynomial) (p.sub q) := by
  rw [sub_eq, polynomial, polynomial, ← IntForm.polynomial_sub]
  exact isExact_checked _

theorem isExact_neg (p : Linear) : IsExact (-p.polynomial) p.neg := by
  rw [neg_eq, polynomial, ← IntForm.polynomial_neg]
  exact isExact_checked _

theorem isExact_mul (p q : Linear) : IsExact (p.polynomial * q.polynomial) (p.mul q) := by
  rw [mul_eq, polynomial, polynomial, IntForm.mul]
  have square := IntForm.coeff_two_polynomial_mul (IntForm.ofLinear p) (IntForm.ofLinear q)
  by_cases both : (IntForm.ofLinear p).coefficient ≠ 0 ∧ (IntForm.ofLinear q).coefficient ≠ 0
  · have nonzero := square.trans_ne (mul_ne_zero both.1 both.2)
    have high : ¬ (IntForm.polynomial (.ofLinear p) * IntForm.polynomial (.ofLinear q)).natDegree ≤
        1 := fun low => nonzero (coeff_eq_zero_of_natDegree_lt (Nat.lt_succ_of_le low))
    rw [if_pos both, error_bind]
    refine ⟨iff_of_false ?_ fun fits => high fits.1, ?_, iff_of_true rfl nonzero,
      iff_of_false ?_ fun other => nonzero other.1⟩ <;> simp
  · -- Without a square the product is a form, and the one that is checked.
    have zero : (IntForm.ofLinear p).coefficient * (IntForm.ofLinear q).coefficient = 0 := by
      rwa [mul_eq_zero, or_iff_not_imp_left, ← not_and_not_right]
    rw [if_neg both, ok_bind, IntForm.polynomial_mul, zero, C_0, zero_mul, zero_add]
    exact isExact_checked _

theorem IsExact.ne_nonlinear {f : ℤ[X]} {outcome : Except EvalError Linear}
    (h : IsExact f outcome) (low : f.natDegree ≤ 1) : outcome ≠ .error .nonlinear :=
  fun nonlinear => h.nonlinear_iff.1 nonlinear
    (coeff_eq_zero_of_natDegree_lt (Nat.lt_succ_of_le low))

theorem eq_some_of_checked {word? : Option Word} {w : Word} (h : checked word? = .ok w) :
    word? = some w := by
  cases word? with
  | none => cases h
  | some v => exact congrArg some (Except.ok.inj h)

/-- The numbers on the way to a product are all words. -/
theorem exists_of_mul {p q r : Linear} (h : p.mul q = .ok r) :
    ∃ left right, p.coefficient.mul? q.constant = some left ∧
      p.constant.mul? q.coefficient = some right ∧ left.add? right = some r.coefficient ∧
        p.constant.mul? q.constant = some r.constant := by
  unfold mul at h
  split at h
  · cases h
  obtain ⟨left, first, h⟩ := bind_eq_ok_iff.1 h
  obtain ⟨right, second, h⟩ := bind_eq_ok_iff.1 h
  obtain ⟨sum, third, h⟩ := bind_eq_ok_iff.1 h
  obtain ⟨constant, fourth, h⟩ := bind_eq_ok_iff.1 h
  obtain rfl := Except.ok.inj h
  exact ⟨left, right, eq_some_of_checked first, eq_some_of_checked second,
    eq_some_of_checked third, eq_some_of_checked fourth⟩

theorem mul_comm (p q : Linear) : p.mul q = q.mul p := by
  rw [mul_eq, mul_eq, IntForm.mul_comm]

/-- Every operation but division is exact: it ends with the form that denotes the exact polynomial
if there is one, and only products of degree two have another error than an overflow. No number on
the way to a product is out of range unless one of the product is, and the factors may be
exchanged. -/
theorem operations_exact (p q : Linear) :
    (IsExact (p.polynomial + q.polynomial) (p.add q) ∧ p.add q ≠ .error .nonlinear) ∧
    (IsExact (p.polynomial - q.polynomial) (p.sub q) ∧ p.sub q ≠ .error .nonlinear) ∧
    (IsExact (-p.polynomial) p.neg ∧ p.neg ≠ .error .nonlinear) ∧
    IsExact (p.polynomial * q.polynomial) (p.mul q) ∧
    ((p.polynomial * q.polynomial).natDegree ≤ 1 →
      Word.Fits ((p.polynomial * q.polynomial).coeff 1) →
      Word.Fits ((p.polynomial * q.polynomial).coeff 0) →
      ∃ left right sum constant, p.coefficient.mul? q.constant = some left ∧
        p.constant.mul? q.coefficient = some right ∧ left.add? right = some sum ∧
          p.constant.mul? q.constant = some constant) ∧
    p.mul q = q.mul p := by
  have lowLeft : p.polynomial.natDegree ≤ 1 := IntForm.natDegree_polynomial_le _
  have lowRight : q.polynomial.natDegree ≤ 1 := IntForm.natDegree_polynomial_le _
  refine ⟨⟨isExact_add p q, (isExact_add p q).ne_nonlinear ?_⟩,
    ⟨isExact_sub p q, (isExact_sub p q).ne_nonlinear ?_⟩,
    ⟨isExact_neg p, (isExact_neg p).ne_nonlinear ?_⟩, isExact_mul p q,
    fun low coefficient constant => ?_, mul_comm p q⟩
  · exact natDegree_add_le_of_degree_le lowLeft lowRight
  · exact natDegree_sub_le_of_le lowLeft lowRight
  · rwa [natDegree_neg]
  · obtain ⟨r, product⟩ := (isExact_mul p q).ok_iff.2 ⟨low, coefficient, constant⟩
    obtain ⟨left, right, first, second, third, fourth⟩ := exists_of_mul product
    exact ⟨left, right, _, _, first, second, third, fourth⟩

end Linear

end OneUnknown
