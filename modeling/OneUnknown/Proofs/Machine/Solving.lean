import OneUnknown.Machine.Solution
import OneUnknown.Proofs.Machine.Evaluation
import OneUnknown.Proofs.Solving

/-!
# Solving on a machine

A machine finds the solutions of an equation without a fault (`classify_eq`). It divides words only
after the remainder was found to be defined, and brings a fraction to lowest terms only where its
denominator does not divide its numerator: their greatest common divisor is then less than the
denominator, so it is a word (`gcd_lt`), and the quotients by it are the terms of the rational
number (`isLowest_div_gcd`). A line is cut at its equals sign, which is one byte long.
-/

namespace OneUnknown.Machine

open Run

variable {ε : Type} {policy : DivisionPolicy}

/-! ### Numbers of a fixed size -/

theorem bounded_eq {size n : Nat} (h : n < size) : (bounded size n : Run ε _) = .ok n := by
  rw [bounded, ensure_of h]
  rfl

theorem quotient_eq (a : Nat) {b : Nat} (h : b ≠ 0) : (quotient a b : Run ε _) = .ok (a / b) := by
  rw [quotient, ensure_of h]
  rfl

theorem remainder_eq (a : Nat) {b : Nat} (h : b ≠ 0) :
    (remainder a b : Run ε _) = .ok ⟨a % b, Nat.mod_lt a (Nat.pos_of_ne_zero h)⟩ :=
  dif_neg h

/-! ### Lowest terms -/

theorem gcd_eq (a b : Nat) : (gcd a b : Run ε _) = .ok (a.gcd b) := by
  induction b using Nat.strongRecOn generalizing a with
  | ind b ih =>
    rw [gcd]
    split
    · next zero =>
      rw [zero, Nat.gcd_zero_right]
      rfl
    · next nonzero =>
      rw [remainder_eq a nonzero, ok_bind, ih (a % b) (Nat.mod_lt a (Nat.pos_of_ne_zero nonzero)),
        Nat.gcd_comm b, ← Nat.gcd_rec, Nat.gcd_comm]

namespace Word

variable {a b : Word}

theorem exists_ofNat {n : Nat} (h : Word.Fits n) :
    ∃ w : Word, (ofNat n : Run ε _) = .ok w ∧ w.toInt = n :=
  ⟨Int64.ofInt n, by rw [ofNat, ensure_of h]; rfl, Word.toInt_ofInt h⟩

theorem fits_of_lt_natAbs {n : Nat} (h : n < a.toInt.natAbs) : Word.Fits n := by
  have range := Word.fits_toInt a
  unfold Word.Fits at range ⊢
  omega

theorem hasQuotient_of_pos (h : 0 < b.toInt) : HasQuotient a b := by
  rintro ⟨-, rfl⟩
  exact absurd h (by decide)

theorem div_eq_of_pos (h : 0 < b.toInt) : (div a b : Run ε _) = .ok (a / b) :=
  div_eq (fun zero => h.ne' (Word.toInt_eq_zero_iff.2 zero)) (hasQuotient_of_pos h)

theorem mul_toInt_div (quotient : HasQuotient a b) (whole : b.toInt ∣ a.toInt) :
    b.toInt * (a / b).toInt = a.toInt := by
  rw [toInt_div quotient, Int.mul_tdiv_cancel' whole]

end Word

/-- A number that does not divide another is no common divisor of both. -/
theorem gcd_lt {a b : Word} (nonzero : a ≠ 0) (h : ¬ a.toInt ∣ b.toInt) :
    b.toInt.natAbs.gcd a.toInt.natAbs < a.toInt.natAbs := by
  have positive : 0 < a.toInt.natAbs :=
    Int.natAbs_pos.2 fun zero => nonzero (Word.toInt_eq_zero_iff.1 zero)
  refine (Nat.gcd_le_right _ positive).lt_of_ne fun same => h ?_
  exact Int.natAbs_dvd_natAbs.1 (same ▸ Nat.gcd_dvd_left _ _)

theorem ofRat?_intCast (k : Int) : Solution.ofRat? k = (Word.ofInt? k).map .exact := by
  have one : Word.ofInt? ((1 : Nat) : Int) = some 1 := by decide
  rw [Solution.ofRat?, Rat.num_intCast, Rat.den_intCast, one]
  cases Word.ofInt? k <;> rfl

/-- A ratio in lowest terms that is no integer. -/
theorem ofRat?_of_coprime {p q : Int} (large : 1 < q) (coprime : p.natAbs.Coprime q.natAbs) :
    Solution.ofRat? (p / q) =
      (Word.ofInt? p).bind fun n => (Word.ofInt? q).map fun d => .fraction n d := by
  have num := Rat.num_div_eq_of_coprime (by omega) coprime
  have den := Rat.den_div_eq_of_coprime (by omega) coprime
  have proper : (p / q : Rat).den ≠ 1 := by omega
  rw [Solution.ofRat?, num, den]
  simp only [if_neg proper]
  cases Word.ofInt? p <;> cases Word.ofInt? q <;> rfl

/-- The ratio `n / d` is `b / a` in lowest terms, and it is no integer. -/
structure IsLowest (b a n d : Word) : Prop where
  coprime : n.toInt.natAbs.Coprime d.toInt.natAbs
  large : 1 < d.toInt.natAbs
  ratio : Rat.divInt b.toInt a.toInt = n.toInt / d.toInt

/-- Two words divided by their greatest common divisor. -/
theorem isLowest_div_gcd {a b w : Word} (nonzero : a ≠ 0) (h : ¬ a.toInt ∣ b.toInt)
    (value : w.toInt = b.toInt.natAbs.gcd a.toInt.natAbs) (positive : 0 < w.toInt) :
    IsLowest b a (b / w) (a / w) := by
  have size : w.toInt.natAbs = b.toInt.natAbs.gcd a.toInt.natAbs := by
    rw [value, Int.natAbs_natCast]
  have left : w.toInt ∣ b.toInt := value ▸ Int.natCast_dvd.2 (Nat.gcd_dvd_left _ _)
  have right : w.toInt ∣ a.toInt := value ▸ Int.natCast_dvd.2 (Nat.gcd_dvd_right _ _)
  have numerator := Word.mul_toInt_div (Word.hasQuotient_of_pos positive) left
  have denominator := Word.mul_toInt_div (Word.hasQuotient_of_pos positive) right
  constructor
  case coprime =>
    have scaled : w.toInt.natAbs * (b / w).toInt.natAbs.gcd (a / w).toInt.natAbs =
        w.toInt.natAbs * 1 := by
      rw [← Nat.gcd_mul_left, ← Int.natAbs_mul, ← Int.natAbs_mul, numerator, denominator, size,
        Nat.mul_one]
    exact Nat.eq_of_mul_eq_mul_left (Int.natAbs_pos.2 positive.ne') scaled
  case large =>
    have proper := gcd_lt nonzero h
    rw [← size, ← denominator, Int.natAbs_mul] at proper
    exact lt_of_mul_lt_mul_left (by rwa [Nat.mul_one]) (Nat.zero_le w.toInt.natAbs)
  case ratio =>
    rw [← numerator, ← denominator, Rat.divInt_eq_div, Int.cast_mul, Int.cast_mul]
    exact mul_div_mul_left _ _ (Int.cast_ne_zero.2 positive.ne')

/-- The sign of a ratio in lowest terms is moved to its numerator, which may leave no word. -/
theorem ofEquation_of_isLowest {a b n d : Word} (nonzero : a ≠ 0) (h : IsLowest b a n d) :
    Solution.ofEquation a b =
      if d.toInt < 0 then do return .fraction (← Linear.checked n.neg?) (← Linear.checked d.neg?)
      else .ok (.fraction n d) := by
  have large := h.large
  rw [Solution.ofEquation, if_neg nonzero, h.ratio]
  split
  · next negative =>
    have turned : (n.toInt / d.toInt : Rat) = (-n.toInt : Int) / (-d.toInt : Int) := by
      rw [Int.cast_neg, Int.cast_neg, neg_div_neg_eq]
    rw [turned, ofRat?_of_coprime (by omega) (by simpa using h.coprime), Word.neg?, Word.neg?]
    cases Word.ofInt? (-n.toInt) <;> cases Word.ofInt? (-d.toInt) <;> rfl
  · rw [ofRat?_of_coprime (by omega) h.coprime, Word.ofInt?_toInt, Word.ofInt?_toInt]
    rfl

theorem fraction_eq {a b : Word} (nonzero : a ≠ 0) (h : ¬ a.toInt ∣ b.toInt) :
    fraction b a = sound (Solution.ofEquation a b) := by
  have proper := gcd_lt nonzero h
  have common : 0 < b.toInt.natAbs.gcd a.toInt.natAbs :=
    Nat.gcd_pos_of_pos_right _ (Nat.zero_lt_of_lt proper)
  obtain ⟨w, divisor, value⟩ := Word.exists_ofNat (ε := EvalError) (Word.fits_of_lt_natAbs proper)
  have positive : 0 < w.toInt := value ▸ Int.natCast_pos.2 common
  rw [ofEquation_of_isLowest nonzero (isLowest_div_gcd nonzero h value positive), fraction, gcd_eq,
    ok_bind, divisor, ok_bind, Word.div_eq_of_pos positive, ok_bind, Word.div_eq_of_pos positive,
    ok_bind]
  split
  · simp only [sound_bind]
    rfl
  · rfl

theorem classify_eq (a b : Word) : classify a b = sound (Solution.ofEquation a b) := by
  by_cases zero : a = 0
  · rw [classify, Solution.ofEquation, if_pos zero, if_pos zero]
    rfl
  rw [classify, if_neg zero]
  by_cases quotient : Word.HasQuotient b a
  · rw [Word.rem?, if_pos ⟨zero, quotient⟩]
    dsimp only
    by_cases divides : a.toInt ∣ b.toInt
    · have divisor : (a.toInt : Rat) ≠ 0 :=
        Int.cast_ne_zero.2 fun none => zero (Word.toInt_eq_zero_iff.1 none)
      have ratio : Rat.divInt b.toInt a.toInt = (b / a).toInt := by
        rw [Rat.divInt_eq_div, div_eq_iff divisor, mul_comm, ← Int.cast_mul,
          Word.mul_toInt_div quotient divides]
      rw [if_pos (Word.mod_eq_zero_iff.2 divides), Word.div_eq zero quotient, Solution.ofEquation,
        if_neg zero, ratio, ofRat?_intCast, Word.ofInt?_toInt]
      rfl
    · rw [if_neg fun whole => divides (Word.mod_eq_zero_iff.1 whole), fraction_eq zero divides]
  · obtain ⟨rfl, rfl⟩ := not_not.1 quotient
    decide +kernel

/-! ### Lines -/

theorem exists_dropWhile_equals {s : List Char} (h : '=' ∈ s) :
    ∃ right, s.dropWhile (· ≠ '=') = '=' :: right := by
  induction s with
  | nil => cases h
  | cons c s ih =>
    by_cases equals : c = '='
    · exact ⟨s, by simp [equals]⟩
    · have tail : '=' ∈ s := (List.mem_cons.1 h).resolve_left (Ne.symm equals)
      obtain ⟨right, text⟩ := ih tail
      exact ⟨right, by simpa [equals] using text⟩

theorem parse_eq (line : String) :
    parse policy line = sound (Equation.parse policy line).outcome := by
  rw [Equation.outcome_parse]
  by_cases one : Equation.equalsSigns line = 1
  · have inside : '=' ∈ line.toList := List.one_le_count_iff.1 (Nat.le_of_eq one.symm)
    obtain ⟨right, text⟩ := exists_dropWhile_equals inside
    have cut := splitAt_append (ε := EvalError) (line.toList.takeWhile (· ≠ '='))
      (line.toList.dropWhile (· ≠ '='))
    rw [List.takeWhile_append_dropWhile, text] at cut
    have behind : StandsBefore ('=' :: right) 1 right := (StandsBefore.start _).past_char
    rw [if_pos one, parse, findEquals?, if_pos inside, one]
    simp only [cut, ok_bind, behind.rest_eq, evaluate_eq, Equation.sides, text]
    rw [← mapError_sound]
    simp only [sound_bind]
    rfl
  · rw [if_neg one, parse]
    split
    · next same => exact absurd same one
    · rfl

theorem solveEquation_eq (e : Equation) :
    mapError SolveError.evaluation (do
      let a ← sound e.coefficient
      let b ← sound e.constant
      classify a b) = sound e.solve.outcome := by
  rw [Equation.outcome_solve, ← mapError_sound, sound_bind]
  simp only [sound_bind, ← classify_eq]

theorem solve_eq (line : String) :
    solve policy line = sound (OneUnknown.solve policy line).outcome := by
  rw [solve, parse_eq, outcome_solve, sound_bind]
  congr 1
  funext e
  exact solveEquation_eq e

end OneUnknown.Machine
