import Mathlib.Data.Rat.Floor
import Mathlib.Tactic.FieldSimp
import Mathlib.Tactic.NormNum
import Mathlib.Tactic.Ring
import OneUnknown.Solution
import OneUnknown.Text.Numeral

/-!
# Rounding

The decimal of a fraction is its value to the given number of places, rounded to the nearest and
away from zero where two are as near (`Solution.format_fraction`). Long division keeps what is left
below the divisor and loses nothing (`appendPlaces_expand`), and the increment of the last place
adds one to all digits read as one number, also where it runs through nines into the whole
(`appendPlaces_increment`).
-/

namespace OneUnknown

namespace Decimal

/-! ### Long division -/

/-- The number that the digits of `n` denote with the places behind them. -/
def appendPlaces (n : Nat) (places : List Nat) : Nat :=
  places.foldl (fun n digit => 10 * n + digit) n

variable {divisor : Nat}

theorem appendPlaces_expand (divisor count whole remainder : Nat) :
    divisor * appendPlaces whole (expand divisor count remainder).1 +
      (expand divisor count remainder).2 = (divisor * whole + remainder) * 10 ^ count := by
  induction count generalizing whole remainder with
  | zero => simp [expand, appendPlaces]
  | succ count ih =>
    let digit := 10 * remainder / divisor
    let rest := 10 * remainder % divisor
    have division : divisor * digit + rest = 10 * remainder := Nat.div_add_mod _ _
    calc divisor * appendPlaces whole (expand divisor (count + 1) remainder).1 +
          (expand divisor (count + 1) remainder).2
        = (divisor * (10 * whole + digit) + rest) * 10 ^ count := ih (10 * whole + digit) rest
      _ = (10 * (divisor * whole) + (divisor * digit + rest)) * 10 ^ count := by ring
      _ = (10 * (divisor * whole) + 10 * remainder) * 10 ^ count := by rw [division]
      _ = (divisor * whole + remainder) * 10 ^ (count + 1) := by ring

theorem increment_cons (digit : Nat) (places : List Nat) :
    increment (digit :: places) =
      if !(increment places).2 then (digit :: (increment places).1, false)
      else if digit = 9 then (0 :: (increment places).1, true)
      else ((digit + 1) :: (increment places).1, false) :=
  rfl

theorem length_increment (places : List Nat) : (increment places).1.length = places.length := by
  induction places with
  | nil => rfl
  | cons digit places ih =>
    rw [increment_cons]
    split
    · exact congrArg Nat.succ ih
    split <;> exact congrArg Nat.succ ih

theorem digit_increment_lt {places : List Nat} (h : ∀ digit ∈ places, digit < 10) :
    ∀ digit ∈ (increment places).1, digit < 10 := by
  induction places with
  | nil => exact nofun
  | cons digit places ih =>
    have later := ih fun d member => h d (List.mem_cons_of_mem _ member)
    have first := h digit List.mem_cons_self
    rw [increment_cons]
    split
    · exact List.forall_mem_cons.2 ⟨first, later⟩
    split
    · exact List.forall_mem_cons.2 ⟨by decide, later⟩
    · exact List.forall_mem_cons.2 ⟨by omega, later⟩

/-- A carry out of the first place counts as one. -/
theorem appendPlaces_increment (whole : Nat) (places : List Nat) :
    appendPlaces (if (increment places).2 then whole + 1 else whole) (increment places).1 =
      appendPlaces whole places + 1 := by
  induction places generalizing whole with
  | nil => rfl
  | cons digit places ih =>
    have next := ih (10 * whole + digit)
    rw [increment_cons]
    cases carry : (increment places).2 with
    | false =>
      rw [carry] at next
      exact next
    | true =>
      rw [carry] at next
      split
      · contradiction
      split
      · next nine =>
        subst nine
        exact next
      · exact next

theorem remainder_expand_lt {remainder : Nat} (h : remainder < divisor) (count : Nat) :
    (expand divisor count remainder).2 < divisor := by
  induction count generalizing remainder with
  | zero => exact h
  | succ count ih => exact ih (Nat.mod_lt _ (Nat.zero_lt_of_lt h))

theorem digit_expand_lt {remainder : Nat} (h : remainder < divisor) (count : Nat) :
    ∀ digit ∈ (expand divisor count remainder).1, digit < 10 := by
  induction count generalizing remainder with
  | zero => exact nofun
  | succ count ih =>
    intro digit member
    rcases List.mem_cons.1 member with rfl | member
    · exact Nat.div_lt_of_lt_mul (by omega)
    · exact ih (Nat.mod_lt _ (Nat.zero_lt_of_lt h)) digit member

theorem length_expand (divisor count remainder : Nat) :
    (expand divisor count remainder).1.length = count := by
  induction count generalizing remainder with
  | zero => rfl
  | succ count ih => exact congrArg Nat.succ (ih _)

/-- The number that all digits denote, without the point. -/
def scaled (d : Decimal) : Nat := appendPlaces d.whole d.places

/-- A decimal of `count` places that is `dividend / divisor` rounded to the nearest, and away from
zero where two are as near. -/
structure IsRounded (d : Decimal) (count dividend divisor : Nat) : Prop where
  length : d.places.length = count
  digits : ∀ digit ∈ d.places, digit < 10
  scaled : d.scaled = (2 * (dividend * 10 ^ count) + divisor) / (2 * divisor)

theorem ofQuotient_eq (count dividend divisor : Nat) :
    ofQuotient count dividend divisor =
      let expansion := expand divisor count (dividend % divisor)
      if 2 * expansion.2 < divisor then ⟨false, dividend / divisor, expansion.1⟩
      else ⟨false, if (increment expansion.1).2 then dividend / divisor + 1 else dividend / divisor,
        (increment expansion.1).1⟩ :=
  rfl

/-- A number `k` with the remainder `last` is rounded up exactly from half a divisor on. -/
theorem eq_rounded_of_divMod {k last dividend : Nat} (exact : divisor * k + last = dividend)
    (small : last < divisor) :
    (if 2 * last < divisor then k else k + 1) = (2 * dividend + divisor) / (2 * divisor) := by
  have multiple (k : Nat) : k * (2 * divisor) = 2 * (divisor * k) := by ring
  symm
  split
  · apply Nat.div_eq_of_lt_le
    · rw [multiple]
      omega
    · rw [multiple, Nat.mul_succ]
      omega
  · apply Nat.div_eq_of_lt_le
    · rw [multiple, Nat.mul_succ]
      omega
    · rw [multiple, Nat.mul_succ, Nat.mul_succ]
      omega

theorem isRounded_ofQuotient (count dividend : Nat) (positive : 0 < divisor) :
    (ofQuotient count dividend divisor).IsRounded count dividend divisor := by
  have start : dividend % divisor < divisor := Nat.mod_lt _ positive
  have digits := digit_expand_lt start count
  have length := length_expand divisor count (dividend % divisor)
  have exact := appendPlaces_expand divisor count (dividend / divisor) (dividend % divisor)
  rw [Nat.div_add_mod] at exact
  have rounded := eq_rounded_of_divMod exact (remainder_expand_lt start count)
  rw [ofQuotient_eq]
  dsimp only
  split
  · next below =>
    rw [if_pos below] at rounded
    exact ⟨length, digits, rounded⟩
  · next above =>
    rw [if_neg above] at rounded
    exact ⟨(length_increment _).trans length, digit_increment_lt digits,
      (appendPlaces_increment _ _).trans rounded⟩

/-! ### Texts -/

theorem head?_toDigits_ne_zero {n : Nat} (positive : 0 < n) :
    (Nat.toDigits 10 n).head? ≠ some '0' := by
  induction n using Nat.strongRecOn with
  | ind n ih =>
    by_cases small : n < 10
    · rw [Nat.toDigits_of_lt_base small, List.head?_cons, Ne, Option.some.injEq,
        Nat.digitChar_eq_zero]
      exact positive.ne'
    · rw [Nat.toDigits_of_base_le (by decide) (Nat.not_lt.1 small),
        List.head?_append_of_ne_nil _ Nat.toDigits_ne_nil]
      exact ih (n / 10) (by omega) (by omega)

theorem ofDigitChars_map_digitChar {places : List Nat} (h : ∀ digit ∈ places, digit < 10)
    (n : Nat) : Nat.ofDigitChars 10 (places.map Nat.digitChar) n = appendPlaces n places := by
  induction places generalizing n with
  | nil => exact Nat.ofDigitChars_nil
  | cons digit places ih =>
    rw [List.map_cons, Nat.ofDigitChars_cons_digitChar_of_lt_ten (h digit List.mem_cons_self)]
    exact ih (fun d member => h d (List.mem_cons_of_mem _ member)) _

theorem isDigit_of_mem_digits {d : Decimal} (h : ∀ digit ∈ d.places, digit < 10) :
    ∀ c ∈ Nat.toDigits 10 d.whole ++ d.places.map Nat.digitChar, c.isDigit := by
  intro c member
  rcases List.mem_append.1 member with whole | place
  · exact Nat.isDigit_of_mem_toDigits (by decide) (by decide) whole
  · obtain ⟨digit, digitMember, rfl⟩ := List.mem_map.1 place
    simpa using h digit digitMember

/-- The characters of the whole and of the places are read as the number they denote. -/
theorem natural?_digits {d : Decimal} (h : ∀ digit ∈ d.places, digit < 10) :
    Text.natural? (Nat.toDigits 10 d.whole ++ d.places.map Nat.digitChar) = some d.scaled := by
  have numeral : Nat.toDigits 10 d.whole ++ d.places.map Nat.digitChar ≠ [] ∧
      (Nat.toDigits 10 d.whole ++ d.places.map Nat.digitChar).all Char.isDigit :=
    ⟨by simp [Nat.toDigits_ne_nil], List.all_eq_true.2 (isDigit_of_mem_digits h)⟩
  rw [Text.natural?, if_pos numeral, Nat.ofDigitChars_append, Nat.ofDigitChars_ten_toDigits,
    ofDigitChars_map_digitChar h, scaled]

theorem toList_toString (d : Decimal) :
    d.toString.toList = (if d.negative then ['-'] else []) ++ Nat.toDigits 10 d.whole ++
      if d.places = [] then [] else '.' :: d.places.map Nat.digitChar := by
  obtain ⟨negative, whole, places⟩ := d
  cases negative <;> cases places <;> simp [toString]

end Decimal

/-! ### Solutions -/

/-- The floor of a fraction to `count` places and a half, in natural numbers. -/
theorem floor_eq (n : Int) {d : Nat} (positive : 0 < d) (count : Nat) :
    ⌊|(n : Rat)| * 10 ^ count / d + 1 / 2⌋ =
      ((2 * (n.natAbs * 10 ^ count) + d) / (2 * d) : Nat) := by
  have nonzero : (d : Rat) ≠ 0 := Nat.cast_ne_zero.2 positive.ne'
  have fraction : |(n : Rat)| * 10 ^ count / d + 1 / 2 =
      (2 * (n.natAbs * 10 ^ count) + d : Nat) / (2 * d : Nat) := by
    push_cast
    rw [Nat.cast_natAbs, Int.cast_abs]
    field_simp
  rw [fraction, Rat.floor_natCast_div_natCast]
  rfl

/-- A fraction is written with a minus sign exactly if its numerator is negative, then the whole
without zeros in front, and then the places that are asked for, six by default, behind a point if
there are any. Read without the point, its digits are the magnitude in units of the last place,
rounded half away from zero. -/
theorem Solution.format_fraction (n : Word) {d : Word} (positive : 0 < d.toInt)
    (precision? : Option Nat) :
    let count := precision?.getD 6
    ∃ (whole places : List Char) (scaled : Nat),
      ((fraction n d).format precision?).toList =
        ['x', ' ', '=', ' '] ++ (if n.toInt < 0 then ['-'] else []) ++ whole ++
          (if count = 0 then [] else '.' :: places) ∧
      whole ≠ [] ∧ (whole = ['0'] ∨ whole.head? ≠ some '0') ∧ places.length = count ∧
      (∀ c ∈ whole ++ places, c.isDigit) ∧ Text.natural? (whole ++ places) = some scaled ∧
      scaled = ⌊|(n.toInt : Rat)| * 10 ^ count / d.toInt + 1 / 2⌋ := by
  intro count
  have other : 0 < d.toInt.natAbs := Int.natAbs_pos.2 positive.ne'
  have rounded := Decimal.isRounded_ofQuotient count n.toInt.natAbs other
  let decimal := Decimal.ofFraction count n.toInt d.toInt
  have digits : ∀ digit ∈ decimal.places, digit < 10 := rounded.digits
  have empty : decimal.places = [] ↔ count = 0 := by
    rw [← List.length_eq_zero_iff]
    exact iff_of_eq (congrArg (· = 0) rounded.length)
  refine ⟨Nat.toDigits 10 decimal.whole, decimal.places.map Nat.digitChar, decimal.scaled, ?_,
    Nat.toDigits_ne_nil, ?_, (List.length_map _).trans rounded.length,
    Decimal.isDigit_of_mem_digits digits, Decimal.natural?_digits digits, ?_⟩
  · have text : ((fraction n d).format precision?).toList =
        ['x', ' ', '=', ' '] ++ decimal.toString.toList := String.toList_append ..
    have sign : decimal.negative = decide (n.toInt < 0) := rfl
    rw [text, Decimal.toList_toString]
    simp only [sign, decide_eq_true_eq, empty, List.append_assoc]
  · by_cases zero : decimal.whole = 0
    · rw [zero]
      exact Or.inl (Nat.toDigits_zero 10)
    · exact Or.inr (Decimal.head?_toDigits_ne_zero (Nat.pos_of_ne_zero zero))
  · have divisor : (d.toInt.natAbs : Rat) = d.toInt := by
      rw [Nat.cast_natAbs, abs_of_pos positive]
    rw [← divisor, floor_eq _ other]
    exact congrArg Nat.cast rounded.scaled

/-- The carry of a nine reaches the whole. -/
theorem Solution.format_minus_nine_nines :
    0 < (2000 : Word).toInt ∧ (fraction (-19999) 2000).format (some 1) = "x = -10.0" ∧
      ∃ whole places : List Char,
        ((fraction (-19999) 2000).format (some 1)).toList =
          ['x', ' ', '=', ' '] ++ ['-'] ++ whole ++ '.' :: places ∧
        places.length = 1 ∧ Text.natural? (whole ++ places) = some 100 := by
  have positive : 0 < (2000 : Word).toInt := by decide
  obtain ⟨whole, places, scaled, text, -, -, length, -, digits, value⟩ :=
    format_fraction (-19999) positive (some 1)
  have rounded : scaled = 100 := by
    have floor :
        ⌊|((-19999 : Word).toInt : Rat)| * 10 ^ 1 / (2000 : Word).toInt + 1 / 2⌋ = 100 := by
      rw [show (-19999 : Word).toInt = -19999 by decide, show (2000 : Word).toInt = 2000 by decide,
        Int.floor_eq_iff]
      norm_num
    exact Int.natCast_inj.1 (value.trans floor)
  subst rounded
  exact ⟨positive, by decide +kernel, whole, places, text, length, digits⟩

end OneUnknown
