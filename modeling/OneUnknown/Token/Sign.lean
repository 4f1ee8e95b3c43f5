import OneUnknown.Token.Lexer

/-!
# Signs

A plus or minus is an operator between two operands where an operand stands before it. Elsewhere it
is a sign: at the start of an expression, or after an opening parenthesis, a zero is put before it,
which makes it an operator again; after an operator a minus negates the operand that follows, and a
plus is left out.
-/

namespace OneUnknown

/-- What stands before a token. -/
inductive Place where
  /-- The start of an expression, or an opening parenthesis. -/
  | opening
  | operator
  | operand
  deriving DecidableEq

/-- The place after a token. -/
def Kind.placeAfter : Kind → Place
  | .number | .closeParen => .operand
  | .openParen => .opening
  | .operator _ => .operator

namespace Token

/-- The zero that is put before a sign at byte `start`. -/
def zeroAt (start : Nat) : Token := ⟨.number, "0", ⟨start, start⟩⟩

/-- Settles the role of every plus and minus in tokens that stand at the given place. -/
def settleSigns (place : Place) : List Token → List Token
  | [] => []
  | t :: ts =>
    match place, t.kind with
    | .opening, .operator (.binary .plus) | .opening, .operator (.binary .minus) =>
      zeroAt t.span.start :: t :: settleSigns .operator ts
    | .operator, .operator (.binary .plus) => settleSigns .operator ts
    | .operator, .operator (.binary .minus) =>
      { t with kind := .operator .negate } :: settleSigns .operator ts
    | _, kind => t :: settleSigns kind.placeAfter ts

/-- The tokens of one side of an equation. -/
def tokenize (source : String) : Except ReadError (List Token) :=
  settleSigns .opening <$> lex 0 source.toList

end Token

end OneUnknown
