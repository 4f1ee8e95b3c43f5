/-!
# Numerals

A natural numeral is a non-empty run of ASCII digits, read in base ten; leading zeros are allowed.
A signed numeral may have one sign in front. `natural?_toDigits` says that the digits of a number
are read back as that number.
-/

namespace OneUnknown.Text

/-- The number that a text denotes, if the text is a natural numeral. -/
def natural? (s : List Char) : Option Nat :=
  if s ≠ [] ∧ s.all Char.isDigit then some (Nat.ofDigitChars 10 s 0) else none

/-- The integer that a text denotes, if the text is a natural numeral after at most one sign. -/
def integer? : List Char → Option Int
  | '-' :: s => (natural? s).map fun n => -n
  | '+' :: s => (natural? s).map fun n => n
  | s => (natural? s).map fun n => n

theorem natural?_eq_none_iff {s : List Char} :
    natural? s = none ↔ s = [] ∨ ∃ c ∈ s, c.isDigit = false := by
  by_cases h : s = [] <;> simp [natural?, h]

theorem natural?_toDigits (n : Nat) : natural? (Nat.toDigits 10 n) = some n := by
  have digits : ∀ c ∈ Nat.toDigits 10 n, c.isDigit :=
    fun _ hc => Nat.isDigit_of_mem_toDigits (by decide) (by decide) hc
  simp [natural?, Nat.toDigits_ne_nil, List.all_eq_true.2 digits]

/-- A text without a sign in front is a signed numeral if it is a natural one. -/
theorem integer?_eq_natural? {s : List Char} (minus : s.head? ≠ some '-')
    (plus : s.head? ≠ some '+') : integer? s = (natural? s).map fun n => n := by
  unfold integer?
  split <;> simp_all

end OneUnknown.Text
