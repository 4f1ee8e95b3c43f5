/-!
# Options

What a user may choose: how divisions round, and to how many places an answer is printed.
-/

namespace OneUnknown

/-- What to do with a division whose quotient is not whole. -/
inductive DivisionPolicy where
  /-- Round it toward zero. -/
  | truncate
  /-- Fail. -/
  | reject
  deriving DecidableEq

structure Options where
  policy : DivisionPolicy := .truncate
  /-- The number of places after the decimal point of a fractional answer. -/
  precision : Nat := 6
  deriving DecidableEq

end OneUnknown
