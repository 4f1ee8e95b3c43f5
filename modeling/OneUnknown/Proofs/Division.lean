import OneUnknown.Proofs.Machine.Evaluation
import OneUnknown.Proofs.Rejection

/-!
# Division by a constant

The quotient that is rounded toward zero and its remainder are determined by their sizes and signs
(`Word.truncates_iff`). A form has both, field by field, for every constant but zero, and the
quotient is a form of words unless the least word is divided by minus one. Where nothing is left,
division undoes multiplication, whatever the policy; where something is left, the policies part
(`Linear.div_ofConstant_cases`).
-/

namespace OneUnknown

/-! ### Integers -/

namespace Word

/-- To divide `a` by `n` and to round toward zero gives `q` and leaves `m`. -/
structure Truncates (a n q m : Int) : Prop where
  split : a = q * n + m
  small : m.natAbs < n.natAbs
  sign : m = 0 ∨ m.sign = a.sign

variable {a n q m : Int}

theorem truncates_tdiv_tmod (a : Int) (nonzero : n ≠ 0) :
    Truncates a n (a.tdiv n) (a.tmod n) where
  split := (Int.tdiv_mul_add_tmod a n).symm
  small := by
    rw [Int.natAbs_tmod]
    exact Nat.mod_lt _ (Int.natAbs_pos.2 nonzero)
  sign := by
    by_cases divides : n ∣ a
    · exact Or.inl (Int.tmod_eq_zero_of_dvd divides)
    · exact Or.inr ((Int.sign_tmod a n).trans (if_neg divides))

theorem truncates_iff (nonzero : n ≠ 0) : Truncates a n q m ↔ q = a.tdiv n ∧ m = a.tmod n := by
  constructor
  · rintro ⟨split, small, sign⟩
    have whole : m + n * q = a := by
      rw [split, Int.mul_comm, Int.add_comm]
    -- The two signs of the dividend bound the remainder from different sides.
    rcases Int.le_total 0 a with nonneg | nonpos
    · have low : 0 ≤ m := by
        rcases sign with rfl | same
        · exact Int.le_refl 0
        · rwa [← Int.sign_nonneg_iff, same, Int.sign_nonneg_iff]
      obtain ⟨quotient, remainder⟩ :=
        (Int.tdiv_tmod_unique nonneg nonzero).2 ⟨whole, low, by omega⟩
      exact ⟨quotient.symm, remainder.symm⟩
    · have high : m ≤ 0 := by
        rcases sign with rfl | same
        · exact Int.le_refl 0
        · rwa [← Int.sign_nonpos_iff, same, Int.sign_nonpos_iff]
      obtain ⟨quotient, remainder⟩ :=
        (Int.tdiv_tmod_unique' nonpos nonzero).2 ⟨whole, by omega, high⟩
      exact ⟨quotient.symm, remainder.symm⟩
  · rintro ⟨rfl, rfl⟩
    exact truncates_tdiv_tmod a nonzero

theorem eq_mul_iff (nonzero : n ≠ 0) : a = q * n ↔ q = a.tdiv n ∧ n ∣ a := by
  constructor
  · rintro rfl
    exact ⟨(Int.mul_tdiv_cancel q nonzero).symm, Int.dvd_mul_left q n⟩
  · rintro ⟨rfl, divides⟩
    exact (Int.tdiv_mul_cancel divides).symm

end Word

/-! ### Forms over the integers -/

namespace IntForm

variable {f g q m : IntForm} {n : Int}

/-- The product of a form with a constant. -/
def scale (n : Int) (f : IntForm) : IntForm := ⟨f.coefficient * n, f.constant * n⟩

/-- The quotient of a form by a constant, each field rounded toward zero. -/
def quotient (n : Int) (f : IntForm) : IntForm := ⟨f.coefficient.tdiv n, f.constant.tdiv n⟩

/-- What is left of both fields when a form is divided by a constant. -/
def remainder (n : Int) (f : IntForm) : IntForm := ⟨f.coefficient.tmod n, f.constant.tmod n⟩

/-- To divide both fields by `n` and to round toward zero gives those of `q` and leaves those of
`m`. -/
structure Truncates (f : IntForm) (n : Int) (q m : IntForm) : Prop where
  coefficient : Word.Truncates f.coefficient n q.coefficient m.coefficient
  constant : Word.Truncates f.constant n q.constant m.constant

theorem truncates_iff (nonzero : n ≠ 0) :
    f.Truncates n q m ↔ q = f.quotient n ∧ m = f.remainder n := by
  constructor
  · rintro ⟨coefficient, constant⟩
    obtain ⟨first, left⟩ := (Word.truncates_iff nonzero).1 coefficient
    obtain ⟨second, right⟩ := (Word.truncates_iff nonzero).1 constant
    exact ⟨IntForm.ext first second, IntForm.ext left right⟩
  · rintro ⟨rfl, rfl⟩
    exact ⟨Word.truncates_tdiv_tmod _ nonzero, Word.truncates_tdiv_tmod _ nonzero⟩

theorem existsUnique_truncates (f : IntForm) (nonzero : n ≠ 0) :
    ∃! parts : IntForm × IntForm, f.Truncates n parts.1 parts.2 := by
  refine ⟨(f.quotient n, f.remainder n), (truncates_iff nonzero).2 ⟨rfl, rfl⟩, ?_⟩
  rintro ⟨q, m⟩ truncates
  obtain ⟨rfl, rfl⟩ := (truncates_iff nonzero).1 truncates
  rfl

theorem eq_scale_iff (nonzero : n ≠ 0) :
    f = g.scale n ↔ g = f.quotient n ∧ n ∣ f.coefficient ∧ n ∣ f.constant := by
  simp only [IntForm.ext_iff, scale, quotient, Word.eq_mul_iff nonzero]
  tauto

theorem checked_eq_overflow_iff : f.checked = .error .overflow ↔ ¬ f.Fits := by
  refine ⟨fun failed fits => ?_, checked_of_not_fits⟩
  obtain ⟨p, form⟩ := toLinear?_of_fits fits
  rw [checked, form] at failed
  cases failed

theorem exists_of_checked_ne_overflow (h : f.checked ≠ .error .overflow) :
    ∃ p, f.checked = .ok p ∧ ofLinear p = f := by
  rw [Ne, checked_eq_overflow_iff, not_not] at h
  obtain ⟨p, form⟩ := toLinear?_of_fits h
  have same := toLinear?_eq_some_iff.1 form
  exact ⟨p, checked_eq_ok_iff.2 same, same⟩

end IntForm

/-! ### Forms of words -/

namespace Linear

open IntForm (ofLinear)

variable {p r : Linear} {k : Word}

theorem mul_ofConstant (r : Linear) (k : Word) :
    r.mul (ofConstant k) = ((ofLinear r).scale k.toInt).checked := by
  have constant : ¬ ((ofLinear r).coefficient ≠ 0 ∧ (ofLinear (ofConstant k)).coefficient ≠ 0) :=
    fun both => both.2 Int64.toInt_zero
  have product : (⟨(ofLinear r).coefficient * (ofLinear (ofConstant k)).constant +
      (ofLinear r).constant * (ofLinear (ofConstant k)).coefficient,
        (ofLinear r).constant * (ofLinear (ofConstant k)).constant⟩ : IntForm) =
      (ofLinear r).scale k.toInt := by
    refine IntForm.ext ?_ rfl
    simp only [ofLinear, ofConstant, Int64.toInt_zero, Int.mul_zero, Int.add_zero, IntForm.scale]
  rw [mul_eq, IntForm.mul, if_neg constant, ok_bind, product]

theorem div_truncate_ofConstant (p : Linear) (nonzero : k ≠ 0) :
    p.div .truncate (ofConstant k) = ((ofLinear p).quotient k.toInt).checked := by
  have constant : ¬ (ofLinear (ofConstant k)).coefficient ≠ 0 := not_not.2 Int64.toInt_zero
  have other : (ofLinear (ofConstant k)).constant ≠ 0 := mt Word.toInt_eq_zero_iff.1 nonzero
  rw [div_eq, IntForm.div, if_neg constant, if_neg other, if_neg (by simp), ok_bind]
  rfl

theorem div_truncate_eq_ok_iff (nonzero : k ≠ 0) :
    p.div .truncate (ofConstant k) = .ok r ↔ ofLinear r = (ofLinear p).quotient k.toInt := by
  rw [div_truncate_ofConstant p nonzero, IntForm.checked_eq_ok_iff]

/-- A quotient is out of range only if the least word is divided by minus one. -/
theorem div_truncate_eq_overflow_iff (nonzero : k ≠ 0) :
    p.div .truncate (ofConstant k) = .error .overflow ↔
      k = -1 ∧ (p.coefficient = Int64.minValue ∨ p.constant = Int64.minValue) := by
  have field (a : Word) :
      Word.Fits (a.toInt.tdiv k.toInt) ↔ ¬ (a = Int64.minValue ∧ k = -1) :=
    Machine.Word.hasQuotient_iff.symm
  rw [div_truncate_ofConstant p nonzero, IntForm.checked_eq_overflow_iff]
  simp only [IntForm.Fits, IntForm.quotient, ofLinear, field]
  tauto

/-- A division by minus one leaves nothing. -/
theorem divisible_neg_one (p : Linear) : p.Divisible (-1) :=
  ⟨Int.neg_dvd.2 (Int.one_dvd _), Int.neg_dvd.2 (Int.one_dvd _)⟩

theorem divisible_iff_remainder :
    p.Divisible k ↔ ¬ (((ofLinear p).remainder k.toInt).coefficient ≠ 0 ∨
      ((ofLinear p).remainder k.toInt).constant ≠ 0) := by
  simp only [Divisible, Int.dvd_iff_tmod_eq_zero, IntForm.remainder, ofLinear, not_or, not_not]

theorem div_reject_of_divisible (h : p.Divisible k) :
    p.div .reject (ofConstant k) = p.div .truncate (ofConstant k) := by
  have exact : p.Divisible (ofConstant k).constant := h
  simp only [div_reject, if_pos exact]
  exact bind_ok _

theorem div_reject_eq_inexact_iff (nonzero : k ≠ 0) :
    p.div .reject (ofConstant k) = .error .inexactDivision ↔ ¬ p.Divisible k := by
  constructor
  · intro inexact exact
    rw [div_reject_of_divisible exact] at inexact
    exact apply_truncate_ne_inexact .divide p (ofConstant k) inexact
  · intro inexact
    have inside : p.div .truncate (ofConstant k) ≠ .error .overflow := by
      intro overflow
      obtain ⟨rfl, -⟩ := (div_truncate_eq_overflow_iff nonzero).1 overflow
      exact inexact (divisible_neg_one p)
    rw [div_truncate_ofConstant p nonzero] at inside
    obtain ⟨q, value, -⟩ := IntForm.exists_of_checked_ne_overflow inside
    rw [div_reject, div_truncate_ofConstant p nonzero, value, ok_bind]
    exact if_neg inexact

theorem div_reject_eq_ok_iff (nonzero : k ≠ 0) :
    p.div .reject (ofConstant k) = .ok r ↔
      p.div .truncate (ofConstant k) = .ok r ∧ p.Divisible k := by
  by_cases exact : p.Divisible k
  · rw [div_reject_of_divisible exact]
    exact (and_iff_left exact).symm
  · rw [(div_reject_eq_inexact_iff nonzero).2 exact]
    exact iff_of_false nofun fun both => exact both.2

/-- A quotient without a remainder is what gives the dividend when it is multiplied again. -/
theorem div_reject_eq_ok_iff_mul (nonzero : k ≠ 0) :
    p.div .reject (ofConstant k) = .ok r ↔ r.mul (ofConstant k) = .ok p := by
  have other : k.toInt ≠ 0 := mt Word.toInt_eq_zero_iff.1 nonzero
  rw [div_reject_eq_ok_iff nonzero, div_truncate_eq_ok_iff nonzero, mul_ofConstant,
    IntForm.checked_eq_ok_iff, IntForm.eq_scale_iff other]
  rfl

/-- How every form is divided by a constant other than zero. To reject inexact quotients makes
division the inverse of multiplication, and where it gives a quotient, rounding gives the same one.
Rounding overflows exactly where the least word is divided by minus one. Otherwise it gives the
quotient that is rounded toward zero in both fields, and the other policy fails exactly where one
of the two remainders is not zero. -/
theorem div_ofConstant_cases (p : Linear) {k : Word} (nonzero : k ≠ 0) :
    let c := ofConstant k
    let overflows := k = -1 ∧ (p.coefficient = Int64.minValue ∨ p.constant = Int64.minValue)
    (∀ r, p.div .reject c = .ok r ↔ r.mul c = .ok p) ∧
    (∀ r, p.div .reject c = .ok r → p.div .truncate c = .ok r) ∧
    (p.div .truncate c = .error .overflow ↔ overflows) ∧
    (∃! parts : IntForm × IntForm, (ofLinear p).Truncates k.toInt parts.1 parts.2) ∧
    ∀ q m, (ofLinear p).Truncates k.toInt q m →
      (¬ overflows → ∃ r, p.div .truncate c = .ok r ∧ ofLinear r = q) ∧
      (p.div .reject c = .error .inexactDivision ↔ m.coefficient ≠ 0 ∨ m.constant ≠ 0) ∧
      (¬ (m.coefficient ≠ 0 ∨ m.constant ≠ 0) → p.div .reject c = p.div .truncate c) := by
  intro c overflows
  have other : k.toInt ≠ 0 := mt Word.toInt_eq_zero_iff.1 nonzero
  refine ⟨fun r => div_reject_eq_ok_iff_mul nonzero,
    fun r exact => ((div_reject_eq_ok_iff nonzero).1 exact).1,
    div_truncate_eq_overflow_iff nonzero, IntForm.existsUnique_truncates _ other, ?_⟩
  rintro q m truncates
  obtain ⟨rfl, rfl⟩ := (IntForm.truncates_iff other).1 truncates
  refine ⟨fun inside => ?_, ?_, fun exact => ?_⟩
  · have inside := mt (div_truncate_eq_overflow_iff nonzero).1 inside
    rw [div_truncate_ofConstant p nonzero] at inside ⊢
    exact IntForm.exists_of_checked_ne_overflow inside
  · rw [div_reject_eq_inexact_iff nonzero, divisible_iff_remainder, not_not]
  · exact div_reject_of_divisible (divisible_iff_remainder.2 exact)

/-- The first field leaves a remainder of its own sign, and the second one leaves none. -/
theorem div_minus_seven_unknown_plus_eight :
    (-2 : Word) ≠ 0 ∧ (ofLinear ⟨-7, 8⟩).Truncates (-2) ⟨3, -4⟩ ⟨-1, 0⟩ ∧
      (∃ r, div .truncate ⟨-7, 8⟩ (ofConstant (-2)) = .ok r ∧ ofLinear r = ⟨3, -4⟩) ∧
      div .reject ⟨-7, 8⟩ (ofConstant (-2)) = .error .inexactDivision := by
  have nonzero : (-2 : Word) ≠ 0 := by decide
  have truncates : (ofLinear ⟨-7, 8⟩).Truncates (-2) ⟨3, -4⟩ ⟨-1, 0⟩ :=
    ⟨⟨by decide, by decide, by decide⟩, ⟨by decide, by decide, by decide⟩⟩
  obtain ⟨-, -, -, -, parts⟩ := div_ofConstant_cases ⟨-7, 8⟩ nonzero
  obtain ⟨rounded, rejected, -⟩ := parts _ _ truncates
  exact ⟨nonzero, truncates, rounded (by decide), rejected.2 (Or.inl (by decide))⟩

end Linear

end OneUnknown
