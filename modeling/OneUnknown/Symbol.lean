import OneUnknown.Token.Sign

/-!
# Symbols

Symbols are what the evaluation of a side reads, one after the other: tokens, with each minus sign
that stands directly before a number made part of that literal. A difference `a - 5` is then the sum
`a + (-5)`.
-/

namespace OneUnknown

inductive Symbol where
  /-- A number token, with a minus sign in front if it is `negated`. -/
  | literal (negated : Bool) (number : Token)
  | operator (operator : Operator)
  | openParen
  | closeParen
  deriving DecidableEq

namespace Symbol

/-- The symbol of a token that stands alone. -/
def ofToken (t : Token) : Symbol :=
  match t.kind with
  | .number => .literal false t
  | .operator o => .operator o
  | .openParen => .openParen
  | .closeParen => .closeParen

/-- Puts a symbol before others; a minus sign before a number becomes part of it. -/
def attach : Symbol → List Symbol → List Symbol
  | .operator (.binary .minus), .literal false number :: rest =>
    .operator (.binary .plus) :: .literal true number :: rest
  | .operator .negate, .literal false number :: rest => .literal true number :: rest
  | symbol, rest => symbol :: rest

/-- The symbols of a sequence of tokens. -/
def ofTokens (ts : List Token) : List Symbol :=
  ts.foldr (fun t rest => attach (ofToken t) rest) []

end Symbol

end OneUnknown
