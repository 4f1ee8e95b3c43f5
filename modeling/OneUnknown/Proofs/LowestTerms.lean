import OneUnknown.Proofs.Machine.Solving

/-!
# Solutions in lowest terms

The solution of `a·x = b` is the ratio of `b` to `a`, which is `n / d` in lowest terms for exactly
one `n` and one positive `d` (`LowestTerms.existsUnique`). It is a whole number if `d` is one and
otherwise the fraction of these two terms, and it overflows exactly where one of them is no word
(`Equation.outcome_solve_cases`). A machine finds it in words, without an operation that leaves
them.
-/

namespace OneUnknown

open Machine (Run)

/-! ### Ratios of integers -/

/-- The ratio of `b` to `a` is `n / d` in lowest terms. -/
structure LowestTerms (b a n d : Int) : Prop where
  positive : 0 < d
  coprime : n.gcd d = 1
  ratio : n * a = b * d

namespace LowestTerms

variable {a b n d : Int}

theorem divInt_eq (h : LowestTerms b a n d) (nonzero : a ≠ 0) : Rat.divInt b a = n / d := by
  have left : (a : Rat) ≠ 0 := Int.cast_ne_zero.2 nonzero
  have right : (d : Rat) ≠ 0 := Int.cast_ne_zero.2 h.positive.ne'
  rw [Rat.divInt_eq_div, div_eq_div_iff left right]
  exact_mod_cast h.ratio.symm

theorem num_eq (h : LowestTerms b a n d) (nonzero : a ≠ 0) : (Rat.divInt b a).num = n := by
  rw [h.divInt_eq nonzero]
  exact Rat.num_div_eq_of_coprime h.positive h.coprime

theorem den_eq (h : LowestTerms b a n d) (nonzero : a ≠ 0) : ((Rat.divInt b a).den : Int) = d := by
  rw [h.divInt_eq nonzero]
  exact Rat.den_div_eq_of_coprime h.positive h.coprime

theorem num_den (b : Int) (nonzero : a ≠ 0) :
    LowestTerms b a (Rat.divInt b a).num (Rat.divInt b a).den where
  positive := Int.natCast_pos.2 (Rat.divInt b a).den_pos
  coprime := (Rat.divInt b a).reduced
  ratio := by
    have left : (a : Rat) ≠ 0 := Int.cast_ne_zero.2 nonzero
    have right : ((Rat.divInt b a).den : Rat) ≠ 0 := Nat.cast_ne_zero.2 (Rat.divInt b a).den_nz
    have same := (Rat.num_div_den (Rat.divInt b a)).trans (Rat.divInt_eq_div b a)
    rw [div_eq_div_iff right left] at same
    exact_mod_cast same

theorem existsUnique (b : Int) (nonzero : a ≠ 0) :
    ∃! terms : Int × Int, LowestTerms b a terms.1 terms.2 := by
  refine ⟨⟨(Rat.divInt b a).num, (Rat.divInt b a).den⟩, num_den b nonzero, ?_⟩
  rintro ⟨n, d⟩ terms
  exact Prod.ext (terms.num_eq nonzero).symm (terms.den_eq nonzero).symm

end LowestTerms

/-! ### Words -/

namespace Word

theorem exists_of_fits {n : Int} (h : Fits n) : ∃ w, ofInt? n = some w ∧ w.toInt = n :=
  ⟨Int64.ofInt n, ofInt?_eq_some_iff.2 (toInt_ofInt h), toInt_ofInt h⟩

/-- The greatest common divisor of two words is a word, if the one does not divide the other. -/
theorem fits_gcd {a b : Int} (fits : Fits a ∧ Fits b) (nonzero : a ≠ 0) (proper : ¬ a ∣ b) :
    Fits (b.gcd a) := by
  obtain ⟨v, -, rfl⟩ := exists_of_fits fits.1
  obtain ⟨w, -, rfl⟩ := exists_of_fits fits.2
  exact Machine.Word.fits_of_lt_natAbs (Machine.gcd_lt (mt toInt_eq_zero_iff.2 nonzero) proper)

end Word

/-! ### Solutions -/

namespace Solution

variable {a b : Word} {n d : Int}

theorem ofEquation_of_lowestTerms (nonzero : a ≠ 0) (terms : LowestTerms b.toInt a.toInt n d) :
    ofEquation a b = ((Word.ofInt? n).bind fun p => (Word.ofInt? d).map fun q =>
      if d = 1 then exact p else fraction p q).elim (.error .overflow) .ok := by
  have other : a.toInt ≠ 0 := fun zero => nonzero (Word.toInt_eq_zero_iff.1 zero)
  have one : (Rat.divInt b.toInt a.toInt).den = 1 ↔ d = 1 := by
    rw [← terms.den_eq other]
    omega
  rw [ofEquation, if_neg nonzero, ofRat?, terms.num_eq other, terms.den_eq other]
  simp only [one]
  cases Word.ofInt? n <;> cases Word.ofInt? d <;> rfl

/-- A ratio whose terms are words is the solution in lowest terms. -/
theorem ofEquation_of_fits (nonzero : a ≠ 0) (terms : LowestTerms b.toInt a.toInt n d)
    (fitsNum : Word.Fits n) (fitsDen : Word.Fits d) :
    ∃ p q : Word, p.toInt = n ∧ q.toInt = d ∧
      ofEquation a b = .ok (if d = 1 then exact p else fraction p q) := by
  obtain ⟨p, num, left⟩ := Word.exists_of_fits fitsNum
  obtain ⟨q, den, right⟩ := Word.exists_of_fits fitsDen
  refine ⟨p, q, left, right, ?_⟩
  rw [ofEquation_of_lowestTerms nonzero terms, num, den]
  rfl

theorem ofEquation_eq_overflow_iff (nonzero : a ≠ 0) (terms : LowestTerms b.toInt a.toInt n d) :
    ofEquation a b = .error .overflow ↔ ¬ (Word.Fits n ∧ Word.Fits d) := by
  constructor
  · rintro failed ⟨fitsNum, fitsDen⟩
    obtain ⟨p, q, -, -, solved⟩ := ofEquation_of_fits nonzero terms fitsNum fitsDen
    rw [failed] at solved
    cases solved
  · intro unfit
    rw [ofEquation_of_lowestTerms nonzero terms]
    by_cases fitsNum : Word.Fits n
    · have none := Word.ofInt?_eq_none_iff.2 fun fitsDen => unfit ⟨fitsNum, fitsDen⟩
      rw [none]
      cases Word.ofInt? n <;> rfl
    · rw [Word.ofInt?_eq_none_iff.2 fitsNum]
      rfl

theorem lowest_of_ofEquation {p q : Word} (h : ofEquation a b = .ok (fraction p q)) :
    2 ≤ q.toInt ∧ p.toInt.gcd q.toInt = 1 := by
  have nonzero : a ≠ 0 := by
    rintro rfl
    rw [ofEquation, if_pos rfl] at h
    split at h <;> cases h
  have terms := LowestTerms.num_den b.toInt fun zero => nonzero (Word.toInt_eq_zero_iff.1 zero)
  have fits : Word.Fits (Rat.divInt b.toInt a.toInt).num ∧
      Word.Fits (Rat.divInt b.toInt a.toInt).den := by
    by_contra unfit
    rw [(ofEquation_eq_overflow_iff nonzero terms).2 unfit] at h
    cases h
  obtain ⟨p', q', num, den, solved⟩ := ofEquation_of_fits nonzero terms fits.1 fits.2
  rw [h] at solved
  split at solved
  · cases solved
  · next proper =>
    cases solved
    rw [num, den]
    have positive := terms.positive
    exact ⟨by omega, terms.coprime⟩

end Solution

/-! ### Equations -/

namespace Equation

/-- The number that the equation has before the unknown on its left, in integers of any size. -/
def exactCoefficient (e : Equation) : Int := e.left.coefficient.toInt - e.right.coefficient.toInt

/-- The number that the equation has on its right, in integers of any size. -/
def exactConstant (e : Equation) : Int := e.right.constant.toInt - e.left.constant.toInt

variable {e : Equation}

theorem coefficient_eq (e : Equation) :
    e.coefficient = Linear.checked (Word.ofInt? e.exactCoefficient) := rfl

theorem constant_eq (e : Equation) :
    e.constant = Linear.checked (Word.ofInt? e.exactConstant) := rfl

theorem solve_of_not_fits (unfit : ¬ (Word.Fits e.exactCoefficient ∧ Word.Fits e.exactConstant)) :
    e.solve = Logged.ofExcept (.error (.evaluation .overflow)) := by
  rw [solve, coefficient_eq, constant_eq]
  by_cases fits : Word.Fits e.exactCoefficient
  · obtain ⟨v, left, -⟩ := Word.exists_of_fits fits
    rw [left, Word.ofInt?_eq_none_iff.2 fun other => unfit ⟨fits, other⟩]
    rfl
  · rw [Word.ofInt?_eq_none_iff.2 fits]
    rfl

theorem solve_of_fits (fits : Word.Fits e.exactCoefficient ∧ Word.Fits e.exactConstant) :
    ∃ a b : Word, a.toInt = e.exactCoefficient ∧ b.toInt = e.exactConstant ∧
      e.solve = ⟨[.solving a b], (Solution.ofEquation a b).mapError .evaluation⟩ := by
  obtain ⟨a, left, valueLeft⟩ := Word.exists_of_fits fits.1
  obtain ⟨b, right, valueRight⟩ := Word.exists_of_fits fits.2
  refine ⟨a, b, valueLeft, valueRight, ?_⟩
  rw [solve, coefficient_eq, constant_eq, left, right]
  rfl

theorem outcome_solve_of_not_fits
    (unfit : ¬ (Word.Fits e.exactCoefficient ∧ Word.Fits e.exactConstant)) :
    e.solve.outcome = .error (.evaluation .overflow) := by
  rw [solve_of_not_fits unfit]
  rfl

theorem outcome_solve_of_fits (fits : Word.Fits e.exactCoefficient ∧ Word.Fits e.exactConstant) :
    ∃ a b : Word, a.toInt = e.exactCoefficient ∧ b.toInt = e.exactConstant ∧
      e.solve.outcome = (Solution.ofEquation a b).mapError .evaluation := by
  obtain ⟨a, b, left, right, solved⟩ := solve_of_fits fits
  exact ⟨a, b, left, right, solved ▸ rfl⟩

theorem outcome_solve_of_exactCoefficient_eq_zero
    (fits : Word.Fits e.exactCoefficient ∧ Word.Fits e.exactConstant)
    (zero : e.exactCoefficient = 0) :
    e.solve.outcome = .ok (if e.exactConstant = 0 then .infinite else .noSolution) := by
  obtain ⟨a, b, left, right, solved⟩ := outcome_solve_of_fits fits
  have none : a = 0 := Word.toInt_eq_zero_iff.1 (left.trans zero)
  rw [solved, Solution.ofEquation, if_pos none, ← right]
  simp only [Word.toInt_eq_zero_iff]
  rfl

theorem outcome_solve_of_lowestTerms
    (fits : Word.Fits e.exactCoefficient ∧ Word.Fits e.exactConstant)
    (unknown : e.exactCoefficient ≠ 0) {n d : Int}
    (terms : LowestTerms e.exactConstant e.exactCoefficient n d) :
    (Word.Fits n ∧ Word.Fits d → ∃ p q : Word, p.toInt = n ∧ q.toInt = d ∧
      e.solve.outcome = .ok (if d = 1 then .exact p else .fraction p q)) ∧
    (e.solve.outcome = .error (.evaluation .overflow) ↔ ¬ (Word.Fits n ∧ Word.Fits d)) := by
  obtain ⟨a, b, left, right, solved⟩ := outcome_solve_of_fits fits
  rw [← left] at unknown terms
  rw [← right] at terms
  have nonzero : a ≠ 0 := fun zero => unknown (Word.toInt_eq_zero_iff.2 zero)
  rw [solved]
  refine ⟨fun words => ?_, ?_⟩
  · obtain ⟨p, q, num, den, solution⟩ := Solution.ofEquation_of_fits nonzero terms words.1 words.2
    rw [solution]
    exact ⟨p, q, num, den, rfl⟩
  · rw [← Solution.ofEquation_eq_overflow_iff nonzero terms]
    cases Solution.ofEquation a b <;> simp

theorem lowest_of_outcome_solve {p q : Word} (h : e.solve.outcome = .ok (.fraction p q)) :
    2 ≤ q.toInt ∧ p.toInt.gcd q.toInt = 1 := by
  by_cases fits : Word.Fits e.exactCoefficient ∧ Word.Fits e.exactConstant
  · obtain ⟨a, b, -, -, solved⟩ := outcome_solve_of_fits fits
    rw [solved, mapError_eq_ok_iff] at h
    exact Solution.lowest_of_ofEquation h
  · rw [outcome_solve_of_not_fits fits] at h
    cases h

/-- How every equation `a·x = b` is solved. Its numbers `a` and `b` have to be words. Without an
unknown, all numbers solve it or none does. Otherwise the solution is the ratio in lowest terms, a
whole number if the denominator is one, and it overflows exactly where a term is no word. A machine,
which computes in words alone, comes to the same outcome without a fault, and the common divisor by
which it reduces a fraction is always a word. -/
theorem outcome_solve_cases (e : Equation) :
    let a := e.exactCoefficient
    let b := e.exactConstant
    let outcome := e.solve.outcome
    (¬ (Word.Fits a ∧ Word.Fits b) → outcome = .error (.evaluation .overflow)) ∧
    (Word.Fits a ∧ Word.Fits b → a = 0 → outcome = .ok (if b = 0 then .infinite else .noSolution)) ∧
    (Word.Fits a ∧ Word.Fits b → a ≠ 0 →
      (∃! terms : Int × Int, LowestTerms b a terms.1 terms.2) ∧
      ∀ n d, LowestTerms b a n d →
        (Word.Fits n ∧ Word.Fits d → ∃ p q : Word, p.toInt = n ∧ q.toInt = d ∧
          outcome = .ok (if d = 1 then .exact p else .fraction p q)) ∧
        (outcome = .error (.evaluation .overflow) ↔ ¬ (Word.Fits n ∧ Word.Fits d))) ∧
    (∀ p q, outcome = .ok (.fraction p q) → 2 ≤ q.toInt ∧ p.toInt.gcd q.toInt = 1) ∧
    Run.mapError SolveError.evaluation (do
      let left ← Run.sound e.coefficient
      let right ← Run.sound e.constant
      Machine.classify left right) = Run.sound outcome ∧
    (Word.Fits a ∧ Word.Fits b → a ≠ 0 → ¬ a ∣ b → Word.Fits (b.gcd a)) :=
  ⟨outcome_solve_of_not_fits, outcome_solve_of_exactCoefficient_eq_zero,
    fun fits unknown => ⟨LowestTerms.existsUnique _ unknown, fun _ _ terms =>
      outcome_solve_of_lowestTerms fits unknown terms⟩,
    fun _ _ => lowest_of_outcome_solve, Machine.solveEquation_eq e, Word.fits_gcd⟩

/-- A denominator of `2^63` is no word, although all numbers of the equation are. -/
example : (Equation.mk ⟨-9223372036854775808, 0⟩ ⟨0, 1⟩).solve.outcome =
    .error (.evaluation .overflow) := by
  decide +kernel

end Equation

end OneUnknown
