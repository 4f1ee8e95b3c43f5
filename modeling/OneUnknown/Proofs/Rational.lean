import Mathlib.Tactic.FieldSimp
import Mathlib.Tactic.LinearCombination
import Mathlib.Tactic.Ring
import OneUnknown.Expr.Side
import OneUnknown.Proofs.Integers
import OneUnknown.Proofs.Spelling

/-!
# Values in rational numbers

Where inexact divisions are rejected, a tree with a value denotes a rational number at every
rational `x`, and that number is the value of the form at `x` (`Side.ratValue_of_value`). The places
of the numbers make no difference to it (`Side.Alike.ratValue_eq`).
-/

namespace OneUnknown

/-- The rational number that a form denotes when the unknown is `x`. -/
def IntForm.eval (x : Rat) (f : IntForm) : Rat := f.coefficient * x + f.constant

namespace Expr

variable {p : Phrase}

/-- Two factors one of which is without `x` have no product of their coefficients. -/
theorem ratApply_times_of_mul {f g r : IntForm} (h : f.mul g = .ok r) (x : Rat) :
    ratApply .times (f.eval x) (g.eval x) = some (r.eval x) := by
  rw [IntForm.mul] at h
  split at h
  · cases h
  · next both =>
    cases h
    have none : (f.coefficient : Rat) * g.coefficient = 0 := by
      rw [not_and_or, not_not, not_not] at both
      rcases both with zero | zero <;> simp [zero]
    simp only [ratApply, IntForm.eval, Int.cast_add, Int.cast_mul]
    congr 1
    linear_combination x ^ 2 * none

/-- A divisor without `x` that is not zero divides each part of the form, since nothing is cut. -/
theorem ratApply_divide_of_div {f g r : IntForm} (h : f.div .reject g = .ok r) (x : Rat) :
    ratApply .divide (f.eval x) (g.eval x) = some (r.eval x) := by
  rw [IntForm.div] at h
  split at h
  · cases h
  split at h
  · cases h
  split at h
  · cases h
  · next constant nonzero exact =>
    cases h
    rw [not_not] at constant
    obtain ⟨⟨k, coefficient⟩, ⟨m, rest⟩⟩ := not_not.1 (not_and.1 exact rfl)
    have divisor : (g.constant : Rat) ≠ 0 := Int.cast_ne_zero.2 nonzero
    simp only [ratApply, IntForm.eval, constant, coefficient, rest,
      Int.mul_tdiv_cancel_left _ nonzero, Int.cast_zero, Int.cast_mul, zero_mul, zero_add]
    rw [if_neg divisor]
    congr 1
    field_simp

/-- An operation on forms has the result of that on the numbers they denote. -/
theorem ratApply_of_apply {op : BinaryOp} {f g r : IntForm}
    (h : IntForm.apply .reject op f g = .ok r) (x : Rat) :
    ratApply op (f.eval x) (g.eval x) = some (r.eval x) := by
  cases op with
  | plus =>
    cases h
    simp only [ratApply, IntForm.eval, IntForm.add, Int.cast_add]
    congr 1
    ring
  | minus =>
    cases h
    simp only [ratApply, IntForm.eval, IntForm.sub, Int.cast_sub]
    congr 1
    ring
  | times => exact ratApply_times_of_mul h x
  | divide => exact ratApply_divide_of_div h x

theorem ratValue_of_intValue {e : Expr p} {f : IntForm} (h : e.intValue .reject = .ok f)
    (x : Rat) : e.ratValue x = some (f.eval x) := by
  induction e generalizing f with
  | number literal =>
    simp only [intValue, Except.ok.injEq] at h
    subst h
    simp only [ratValue, IntForm.ofToken]
    split <;> simp [IntForm.eval]
  | paren inner ih | bare operand ih | single operand ih | first operand ih =>
    simp only [intValue] at h
    simpa only [ratValue] using ih h
  | signed sign operand ih =>
    cases sign with
    | plus =>
      simp only [intValue] at h
      simpa only [ratValue] using ih h
    | minus =>
      simp only [intValue] at h
      obtain ⟨g, operandValue, h⟩ := bind_eq_ok_iff.1 h
      cases h
      simp only [ratValue, ih operandValue, IntForm.eval, IntForm.neg, Int.cast_neg]
      change some _ = some _
      congr 1
      ring
  | scaled left op right ihLeft ihRight | added left op right ihLeft ihRight =>
    simp only [intValue] at h
    obtain ⟨f, leftValue, h⟩ := bind_eq_ok_iff.1 h
    obtain ⟨g, rightValue, h⟩ := bind_eq_ok_iff.1 h
    simp only [ratValue, ihLeft leftValue, ihRight rightValue]
    exact ratApply_of_apply h x
  | leading sign term ih =>
    simp only [intValue] at h
    obtain ⟨g, termValue, h⟩ := bind_eq_ok_iff.1 h
    have zero : IntForm.eval x ⟨0, 0⟩ = 0 := by simp [IntForm.eval]
    simp only [ratValue, ih termValue]
    rw [← zero]
    exact ratApply_of_apply h x

/-- What a number denotes does not depend on its place. -/
theorem Alike.ratValue_eq {e e' : Expr p} (h : Alike e e') (x : Rat) :
    e.ratValue x = e'.ratValue x := by
  induction h with
  | number text =>
    simp only [ratValue, magnitude_eq_of_compactText text, unknown_mem_iff_of_compactText text]
  | paren _ ih | bare _ ih | single _ ih | first _ ih => simpa only [ratValue] using ih
  | signed sign _ ih => cases sign <;> simp only [ratValue, ih]
  | scaled _ _ _ ihLeft ihRight | added _ _ _ ihLeft ihRight =>
    simp only [ratValue, ihLeft, ihRight]
  | leading _ _ ih => simp only [ratValue, ih]

end Expr

namespace Side

theorem Alike.ratValue_eq {side side' : Side} (h : Alike side side') (x : Rat) :
    side.ratValue x = side'.ratValue x := by
  cases h with
  | blank => rfl
  | sum alike => exact alike.ratValue_eq x

theorem ratValue_of_intValue {side : Side} {f : IntForm} (h : side.intValue .reject = .ok f)
    (x : Rat) : side.ratValue x = some (f.eval x) := by
  cases side with
  | blank =>
    cases h
    simp [ratValue, IntForm.eval]
  | sum e => exact Expr.ratValue_of_intValue h x

/-- A side with a value denotes a number at every `x`, that of its form. -/
theorem ratValue_of_value {side : Side} {source : String} (parse : side.IsParseOf source)
    {v : Linear} (h : side.value .reject = .ok v) (x : Rat) :
    side.ratValue x = some ((IntForm.ofLinear v).eval x) := by
  have follows : Follows false (side.value .reject) (side.intValue .reject) := follows_value parse
  rw [h] at follows
  exact ratValue_of_intValue follows.eq_ok x

end Side

end OneUnknown
