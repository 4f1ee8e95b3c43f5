import OneUnknown.Proofs.Evaluation
import OneUnknown.Proofs.Rational

/-!
# Solving an equation

A solution tells exactly where the two sides of a line denote the same number, if inexact divisions
are rejected (`holds_iff_of_outcome_solve`). Neither side has a divisor that is zero anywhere, since
every divisor has been found to be a constant other than zero.
-/

namespace OneUnknown

namespace Solution

/-- The solution says that the number `x` is one. -/
def Holds (x : Rat) : Solution → Prop
  | exact n => x = n.toInt
  | fraction numerator denominator =>
    denominator.toInt ≠ 0 ∧ x = numerator.toInt / denominator.toInt
  | infinite => True
  | noSolution => False

theorem holds_iff_of_ofRat? {q : Rat} {s : Solution} (h : ofRat? q = some s) (x : Rat) :
    s.Holds x ↔ x = q := by
  simp only [ofRat?, Option.bind_eq_bind, Option.bind_eq_some_iff, Word.ofInt?_eq_some_iff,
    Option.pure_def, Option.some.injEq] at h
  obtain ⟨numerator, num, denominator, den, rfl⟩ := h
  have terms : (numerator.toInt : Rat) / denominator.toInt = q := by
    rw [num, den, Int.cast_natCast, Rat.num_div_den]
  split
  · next one =>
    rw [den, one, Nat.cast_one, Int.cast_one, div_one] at terms
    rw [Holds, terms]
  · rw [Holds, terms]
    refine and_iff_right ?_
    rw [den]
    exact Int.natCast_ne_zero.2 q.den_nz

theorem holds_iff_of_ofEquation {a b : Word} {s : Solution} (h : ofEquation a b = .ok s)
    (x : Rat) : s.Holds x ↔ (a.toInt : Rat) * x = b.toInt := by
  unfold ofEquation at h
  split at h
  · next zero =>
    subst zero
    cases h
    have same : (Int64.toInt 0 : Rat) * x = b.toInt ↔ b = 0 := by
      rw [Int64.toInt_zero, Int.cast_zero, zero_mul, eq_comm, Int.cast_eq_zero,
        Word.toInt_eq_zero_iff]
    rw [same]
    split
    · next zero => exact iff_of_true trivial zero
    · next nonzero => exact iff_of_false id nonzero
  · next nonzero =>
    have divisor : (a.toInt : Rat) ≠ 0 :=
      Int.cast_ne_zero.2 fun zero => nonzero (Word.toInt_eq_zero_iff.1 zero)
    cases ratio : ofRat? (Rat.divInt b.toInt a.toInt) with
    | none =>
      rw [ratio] at h
      cases h
    | some s' =>
      rw [ratio] at h
      cases h
      rw [holds_iff_of_ofRat? ratio, Rat.divInt_eq_div, eq_div_iff divisor, mul_comm]

end Solution

namespace Equation

theorem checked_eq_ok_iff {n : Int} {w : Word} :
    Linear.checked (Word.ofInt? n) = .ok w ↔ w.toInt = n := by
  rw [← Word.ofInt?_eq_some_iff, Linear.checked]
  cases Word.ofInt? n <;> simp

/-- The solutions of an equation are where its sides have the same value. -/
theorem holds_iff_eval_eq {e : Equation} {s : Solution} (h : e.solve.outcome = .ok s)
    (x : Rat) :
    s.Holds x ↔ (IntForm.ofLinear e.left).eval x = (IntForm.ofLinear e.right).eval x := by
  rw [outcome_solve, mapError_eq_ok_iff] at h
  obtain ⟨a, coefficient, h⟩ := bind_eq_ok_iff.1 h
  obtain ⟨b, constant, h⟩ := bind_eq_ok_iff.1 h
  rw [Equation.coefficient, Word.sub?, checked_eq_ok_iff] at coefficient
  rw [Equation.constant, Word.sub?, checked_eq_ok_iff] at constant
  rw [Solution.holds_iff_of_ofEquation h, coefficient, constant]
  simp only [IntForm.eval, IntForm.ofLinear, Int.cast_sub]
  constructor
  · intro same
    linear_combination same
  · intro same
    linear_combination same

/-! ### Lines -/

theorem sides_append {l : String} (h : '=' ∉ l.toList) (r : String) :
    sides (l ++ "=" ++ r) = (l, r) := by
  have before : ∀ c ∈ l.toList, decide (c ≠ '=') = true := by
    intro c hc
    rw [decide_eq_true_eq]
    rintro rfl
    exact h hc
  have text : (l ++ "=" ++ r).toList = l.toList ++ '=' :: r.toList := by
    simp
  simp only [sides, text]
  rw [List.takeWhile_append_of_pos before, List.dropWhile_append_of_pos before]
  simp

theorem equalsSigns_append {l r : String} (left : '=' ∉ l.toList) (right : '=' ∉ r.toList) :
    equalsSigns (l ++ "=" ++ r) = 1 := by
  simp only [equalsSigns, String.toList_append, List.count_append,
    List.count_eq_zero_of_not_mem left, List.count_eq_zero_of_not_mem right]
  decide

/-- A line with one equals sign has a side on its left and one on its right. -/
theorem exists_sides {line : String} (one : equalsSigns line = 1) :
    ∃ l r, line = l ++ "=" ++ r ∧ '=' ∉ l.toList ∧ '=' ∉ r.toList := by
  have inside : '=' ∈ line.toList := List.count_pos_iff.1 (by rw [← equalsSigns, one]; decide)
  obtain ⟨front, back, text, left⟩ := List.eq_append_cons_of_mem inside
  have right : '=' ∉ back := by
    rw [equalsSigns, text, List.count_append, List.count_eq_zero_of_not_mem left,
      List.count_cons_self] at one
    exact List.count_eq_zero.1 (by omega)
  refine ⟨.ofList front, .ofList back, ?_, by rwa [String.toList_ofList],
    by rwa [String.toList_ofList]⟩
  rw [← String.toList_inj, text]
  simp

/-- The sides are evaluated from left to right. -/
theorem outcome_parse_append {policy : DivisionPolicy} {l r : String} (left : '=' ∉ l.toList)
    (right : '=' ∉ r.toList) :
    (parse policy (l ++ "=" ++ r)).outcome =
      ((evaluate policy l).outcome >>= fun a => (evaluate policy r).outcome >>= fun b =>
        .ok ⟨a, b⟩).mapError .evaluation := by
  rw [outcome_parse, if_pos (equalsSigns_append left right), sides_append left]

/-- The sides of a line that is an equation. -/
theorem of_outcome_parse {policy : DivisionPolicy} {l r : String} {e : Equation}
    (h : (parse policy (l ++ "=" ++ r)).outcome = .ok e) :
    (evaluate policy l).outcome = .ok e.left ∧ (evaluate policy r).outcome = .ok e.right := by
  rw [outcome_parse] at h
  split at h
  · next one =>
    have none : '=' ∉ l.toList := by
      intro inside
      have positive := List.count_pos_iff.2 inside
      simp only [equalsSigns, String.toList_append, List.count_append] at one
      have own : "=".toList.count '=' = 1 := by decide
      omega
    rw [sides_append none] at h
    rw [mapError_eq_ok_iff] at h
    obtain ⟨left, valueLeft, h⟩ := bind_eq_ok_iff.1 h
    obtain ⟨right, valueRight, h⟩ := bind_eq_ok_iff.1 h
    cases h
    exact ⟨valueLeft, valueRight⟩
  · cases h

end Equation

/-- The value of a side that a text writes is what it denotes at every `x`. -/
theorem ratValue_of_outcome_evaluate {side : Side} {source : String} (writes : side.Writes source)
    {v : Linear} (h : (evaluate .reject source).outcome = .ok v) (x : Rat) :
    side.ratValue x = some ((IntForm.ofLinear v).eval x) := by
  obtain ⟨side', parse, alike⟩ := writes.exists_isParseOf
  rw [outcome_evaluate_of_isParseOf parse] at h
  rw [alike.ratValue_eq]
  exact Side.ratValue_of_value parse h x

/-- If a line between sides of the grammar has a solution without an inexact division, both sides
denote a number at every `x`, and they denote the same one exactly where the solution says so. -/
theorem holds_iff_of_outcome_solve {l r : String} {left right : Side} (writesLeft : left.Writes l)
    (writesRight : right.Writes r) {s : Solution}
    (h : (solve .reject (l ++ "=" ++ r)).outcome = .ok s) (x : Rat) :
    ∃ a b, left.ratValue x = some a ∧ right.ratValue x = some b ∧ (a = b ↔ s.Holds x) := by
  rw [outcome_solve] at h
  obtain ⟨e, parsed, solved⟩ := bind_eq_ok_iff.1 h
  obtain ⟨valueLeft, valueRight⟩ := Equation.of_outcome_parse parsed
  refine ⟨_, _, ratValue_of_outcome_evaluate writesLeft valueLeft x,
    ratValue_of_outcome_evaluate writesRight valueRight x, ?_⟩
  exact (Equation.holds_iff_eval_eq solved x).symm

/-- The tree of `x`. -/
def loneUnknown : Expr .sum :=
  .first (.single (.bare (.number ⟨.number, .ofList ['x'], ⟨0, 1⟩⟩)))

theorem wellFormed_loneUnknown : loneUnknown.WellFormed := by decide

theorem solve_two_minus_three_unknown :
    (solve .reject ("2 - 3*x" ++ "=" ++ "x")).outcome = .ok (.fraction 1 2) ∧
      ∃ a, (Side.sum twoMinusThreeUnknown).ratValue (1 / 2) = some a ∧
        (Side.sum loneUnknown).ratValue (1 / 2) = some a := by
  have solved : (solve .reject ("2 - 3*x" ++ "=" ++ "x")).outcome = .ok (.fraction 1 2) := by
    decide +kernel
  have writesLeft : (Side.sum twoMinusThreeUnknown).Writes "2 - 3*x" :=
    ⟨isParseOf_twoMinusThreeUnknown.1, isParseOf_twoMinusThreeUnknown.2.1⟩
  have writesRight : (Side.sum loneUnknown).Writes "x" := by
    refine ⟨wellFormed_loneUnknown, ?_⟩
    simp only [loneUnknown, Expr.spelling]
  have half : Solution.Holds (1 / 2) (.fraction 1 2) := by
    refine ⟨by decide, ?_⟩
    rw [show (1 : Word).toInt = 1 from rfl, show (2 : Word).toInt = 2 from rfl]
    norm_num
  obtain ⟨a, b, valueLeft, valueRight, same⟩ :=
    holds_iff_of_outcome_solve writesLeft writesRight solved (1 / 2)
  obtain rfl := same.2 half
  exact ⟨solved, a, valueLeft, valueRight⟩

end OneUnknown
