/-!
# Blanks

A blank is a character with the property `White_Space` of the character standard. Blanks carry no
meaning in an expression; `compact` deletes them and `trim` deletes those at both ends of a text.
-/

namespace OneUnknown.Text

/-- The code points with the property `White_Space`, as inclusive ranges in increasing order. -/
def blankRanges : List (Nat × Nat) :=
  [(0x9, 0xD), (0x20, 0x20), (0x85, 0x85), (0xA0, 0xA0), (0x1680, 0x1680), (0x2000, 0x200A),
    (0x2028, 0x2029), (0x202F, 0x202F), (0x205F, 0x205F), (0x3000, 0x3000)]

/-- Whether a character is a blank. -/
def isBlank (c : Char) : Bool :=
  blankRanges.any fun range => range.1 ≤ c.toNat && c.toNat ≤ range.2

/-- A text without its blanks. -/
def compact (s : List Char) : List Char := s.filter fun c => !isBlank c

/-- A text without the blanks at its two ends. -/
def trim (s : String) : String :=
  .ofList ((s.toList.dropWhile isBlank).reverse.dropWhile isBlank).reverse

theorem isBlank_of_isWhitespace {c : Char} (h : c.isWhitespace) : isBlank c := by
  simp only [Char.isWhitespace, Bool.or_eq_true, decide_eq_true_eq] at h
  rcases h with ((rfl | rfl) | rfl) | rfl <;> decide

example : (blankRanges.map fun range => range.2 + 1 - range.1).sum = 25 := by decide

theorem not_isBlank_of_isDigit {c : Char} (h : c.isDigit) : isBlank c = false := by
  simp only [Char.isDigit, Bool.and_eq_true, decide_eq_true_eq, ge_iff_le,
    UInt32.le_iff_toNat_le] at h
  simp only [isBlank, blankRanges, List.any_cons, List.any_nil, Char.toNat]
  grind

@[simp] theorem compact_append (s t : List Char) : compact (s ++ t) = compact s ++ compact t :=
  List.filter_append ..

theorem not_isBlank_of_mem_compact {s : List Char} {c : Char} (h : c ∈ compact s) :
    isBlank c = false := by
  simpa using (List.mem_filter.1 h).2

theorem compact_eq_self {s : List Char} (h : ∀ c ∈ s, isBlank c = false) : compact s = s :=
  List.filter_eq_self.2 fun c hc => by simp [h c hc]

@[simp] theorem compact_compact (s : List Char) : compact (compact s) = compact s :=
  compact_eq_self fun _ hc => not_isBlank_of_mem_compact hc

end OneUnknown.Text
