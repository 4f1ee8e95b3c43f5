import OneUnknown.Linear
import OneUnknown.Text.Blank
import OneUnknown.Text.Numeral

/-!
# Tokens

A token is a number, a parenthesis or an operator together with the text it was read from and the
place of that text. A number token is a literal: a numeral for a constant, or a numeral before an
`x` for a multiple of the unknown. `Token.literal` reads it, with or without a minus sign in front;
since the sign is read together with the digits, the least word can be written.
-/

namespace OneUnknown

/-- An operator that waits for its operands. -/
inductive Operator where
  | binary (op : BinaryOp)
  /-- The minus sign of a single operand. -/
  | negate
  deriving DecidableEq

/-- Operators of a higher priority are applied first. -/
def Operator.priority : Operator → Nat
  | .binary .plus | .binary .minus => 1
  | .binary .times | .binary .divide => 2
  | .negate => 3

inductive Kind where
  | number
  | openParen
  | closeParen
  | operator (operator : Operator)
  deriving DecidableEq

structure Token where
  kind : Kind
  text : String
  span : Span
  deriving DecidableEq

namespace Token

/-- The sign that a literal is read with. -/
def foldedSign (negated : Bool) : List Char := if negated then ['-'] else []

/-- The text of a literal without its blanks and with the sign it is read with. -/
def signedText (negated : Bool) (t : Token) : List Char :=
  foldedSign negated ++ Text.compact t.text.toList

/-- The word that a numeral of the literal denotes. An error tells of the whole literal. -/
def word (negated : Bool) (t : Token) (numeral : List Char) : Except ReadError Word :=
  ((Text.integer? numeral).bind Word.ofInt?).elim
    (.error (.outOfRange (.ofList (t.signedText negated)) t.span)) .ok

/-- The value of a literal. A final `x` makes it a multiple of the unknown, by one if nothing but
the folded sign is before the `x`. -/
def literal (negated : Bool) (t : Token) : Except ReadError Linear :=
  let text := t.signedText negated
  if text.getLast? = some 'x' then
    let factor := text.dropLast
    (⟨·, 0⟩) <$> t.word negated (if factor = foldedSign negated then factor ++ ['1'] else factor)
  else
    .ofConstant <$> t.word negated text

end Token

end OneUnknown
