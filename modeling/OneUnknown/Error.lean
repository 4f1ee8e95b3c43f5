import OneUnknown.Span

/-!
# Errors

Three stages can fail: reading the text of one side, evaluating what was read, and solving the
equation of two sides. Each stage has its own type of causes, and a cause of an earlier stage is
carried along unchanged, so its message stays the same at every stage.
-/

namespace OneUnknown

/-- Why the text of a side could not be read. -/
inductive ReadError where
  /-- A character that no expression contains, at the byte where it stands. -/
  | unsupported (character : Char) (index : Nat)
  /-- A literal that denotes no word, without its blanks and with the sign that it was read with. -/
  | outOfRange (text : String) (span : Span)
  deriving DecidableEq

/-- Why a side has no value. -/
inductive EvalError where
  | read (cause : ReadError)
  /-- Operators and operands do not combine to a single value. -/
  | malformed
  | divisionByVariable
  | divisionByZero
  /-- A quotient is not whole, and such quotients are rejected. -/
  | inexactDivision
  /-- A product has a term of degree two. -/
  | nonlinear
  | overflow
  deriving DecidableEq

/-- Why an equation has no answer. -/
inductive SolveError where
  /-- The line has `equalsSigns` equals signs instead of one. -/
  | notAnEquation (equalsSigns : Nat)
  | evaluation (cause : EvalError)
  deriving DecidableEq

def ReadError.message : ReadError → String
  | .unsupported character index => s!"Unsupported operator, \"{character}\", at index {index}"
  | .outOfRange text _ => s!"The number \"{text}\" is too large"

def EvalError.message : EvalError → String
  | .read cause => cause.message
  | .malformed => "Malformed expression"
  | .divisionByVariable => "Unable to divide by an expression containing x"
  | .divisionByZero => "Division by zero"
  | .inexactDivision => "The division doesn't give a whole number"
  | .nonlinear => "The equation isn't linear"
  | .overflow => "The numbers are too large"

def SolveError.message : SolveError → String
  | .notAnEquation _ => "Not a valid equation"
  | .evaluation cause => cause.message

end OneUnknown
