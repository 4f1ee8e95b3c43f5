/-!
# Words

A word is a signed integer of 64 bits, the only numbers a linear form may hold. Arithmetic on
words is checked: an operation computes the exact integer and answers it if it is a word.

`ofInt?_eq_some_iff` says which word an integer becomes, and `ofInt?_eq_none_iff` when it becomes
none; everything known of a checked operation follows from these two.
-/

namespace OneUnknown

/-- A signed integer of 64 bits. -/
abbrev Word := Int64

namespace Word

/-- The integers that are words, from `-2^63` to `2^63 - 1`. -/
def Fits (n : Int) : Prop := -9223372036854775808 ≤ n ∧ n ≤ 9223372036854775807

instance (n : Int) : Decidable (Fits n) := inferInstanceAs (Decidable (_ ∧ _))

/-- The word that denotes `n`, if `n` is in range. -/
def ofInt? (n : Int) : Option Word :=
  if Fits n then some (Int64.ofInt n) else none

theorem fits_toInt (w : Word) : Fits w.toInt := ⟨w.le_toInt, Int.le_of_lt_add_one w.toInt_lt⟩

theorem toInt_ofInt {n : Int} (h : Fits n) : (Int64.ofInt n).toInt = n :=
  Int64.toInt_ofInt_of_le h.1 (Int.lt_add_one_of_le h.2)

theorem ofInt?_eq_some_iff {n : Int} {w : Word} : ofInt? n = some w ↔ w.toInt = n := by
  unfold ofInt?
  split
  · next h =>
    rw [Option.some.injEq]
    exact ⟨fun e => e ▸ toInt_ofInt h, fun e => Int64.toInt_inj.1 ((toInt_ofInt h).trans e.symm)⟩
  · next h => exact ⟨nofun, fun e => absurd (e ▸ fits_toInt w) h⟩

theorem ofInt?_eq_none_iff {n : Int} : ofInt? n = none ↔ ¬ Fits n := by
  unfold ofInt?
  split <;> simp_all

@[simp] theorem ofInt?_toInt (w : Word) : ofInt? w.toInt = some w :=
  ofInt?_eq_some_iff.2 rfl

/-! ### Checked operations -/

/-- The sum, if it is a word. -/
def add? (a b : Word) : Option Word := ofInt? (a.toInt + b.toInt)

/-- The difference, if it is a word. -/
def sub? (a b : Word) : Option Word := ofInt? (a.toInt - b.toInt)

/-- The product, if it is a word. -/
def mul? (a b : Word) : Option Word := ofInt? (a.toInt * b.toInt)

/-- The negation, if it is a word: all words but the least have one. -/
def neg? (a : Word) : Option Word := ofInt? (-a.toInt)

/-- The quotient rounded toward zero, if it is a word. The quotient by zero is zero. -/
def quot? (a b : Word) : Option Word := ofInt? (a.toInt.tdiv b.toInt)

/-- The decimal numeral of a word, with a minus sign if it is negative. -/
def numeral (w : Word) : String := toString w.toInt

end Word

end OneUnknown
