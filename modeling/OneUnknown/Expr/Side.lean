import OneUnknown.Expr.Value

/-!
# Sides

A side of an equation is blank, which stands for zero, or a sum. `Side.Writes` ties it to a text by
the grammar alone, blanks aside; `Side.IsParseOf` gives its numbers their places in the text too.
-/

namespace OneUnknown

inductive Side where
  | blank
  | sum (e : Expr .sum)

namespace Side

/-- The text is one of the side. -/
def Writes : Side → String → Prop
  | blank, source => Text.compact source.toList = []
  | sum e, source => e.WellFormed ∧ e.spelling = Text.compact source.toList

instance : (side : Side) → (source : String) → Decidable (side.Writes source)
  | blank, _ => inferInstanceAs (Decidable (_ = _))
  | sum _, _ => inferInstanceAs (Decidable (_ ∧ _))

/-- The side is that of the text, with its numbers at their places. -/
def IsParseOf : Side → String → Prop
  | blank, source => Text.compact source.toList = []
  | sum e, source => e.IsParseOf source

/-- The value in words. -/
def value (policy : DivisionPolicy) : Side → Except EvalError Linear
  | blank => .ok .zero
  | sum e => e.value policy false

/-- The value in integers of any size. -/
def intValue (policy : DivisionPolicy) : Side → Except EvalError IntForm
  | blank => .ok ⟨0, 0⟩
  | sum e => e.intValue policy

/-- The rational number that the side denotes when the unknown is `x`, if no divisor is zero. -/
def ratValue (x : Rat) : Side → Option Rat
  | blank => some 0
  | sum e => e.ratValue x

end Side

end OneUnknown
