import OneUnknown.Token

/-!
# Expressions

The trees of the texts that a side of an equation may be. A sum is a chain of terms, a term a chain
of factors, both associate to the left; a factor is a primary after any number of signs, and a
primary is a number or a sum in parentheses. A sum may start with a sign; without one its first
term has no sign of its own, so every text has at most one tree.

`IsParseOf` ties a tree to a text: the two are spelled alike up to blanks, and the numbers of the
tree are those of the text, each at its place.
-/

namespace OneUnknown

inductive Phrase where
  | primary
  | factor
  | term
  | sum
  deriving DecidableEq

/-- A sign between terms or in front of an operand. -/
inductive Sign where
  | plus
  | minus
  deriving DecidableEq

/-- A sign between factors. -/
inductive Scale where
  | times
  | divide
  deriving DecidableEq

def Sign.op : Sign → BinaryOp
  | .plus => .plus
  | .minus => .minus

def Scale.op : Scale → BinaryOp
  | .times => .times
  | .divide => .divide

inductive Expr : Phrase → Type where
  | number (literal : Token) : Expr .primary
  | paren (inner : Expr .sum) : Expr .primary
  | bare (operand : Expr .primary) : Expr .factor
  | signed (sign : Sign) (operand : Expr .factor) : Expr .factor
  | single (factor : Expr .factor) : Expr .term
  | scaled (left : Expr .term) (op : Scale) (right : Expr .factor) : Expr .term
  | first (term : Expr .term) : Expr .sum
  | leading (sign : Sign) (term : Expr .term) : Expr .sum
  | added (left : Expr .sum) (sign : Sign) (right : Expr .term) : Expr .sum

namespace Expr

variable {p : Phrase}

/-- The text of a tree, without blanks. -/
def spelling : {p : Phrase} → Expr p → List Char
  | _, number literal => Text.compact literal.text.toList
  | _, paren inner => '(' :: inner.spelling ++ [')']
  | _, bare operand => operand.spelling
  | _, signed sign operand => sign.op.sign :: operand.spelling
  | _, single factor => factor.spelling
  | _, scaled left op right => left.spelling ++ op.op.sign :: right.spelling
  | _, first term => term.spelling
  | _, leading sign term => sign.op.sign :: term.spelling
  | _, added left sign right => left.spelling ++ sign.op.sign :: right.spelling

/-- The numbers of a tree from left to right. -/
def numbers : {p : Phrase} → Expr p → List Token
  | _, number literal => [literal]
  | _, paren inner => inner.numbers
  | _, bare operand => operand.numbers
  | _, signed _ operand => operand.numbers
  | _, single factor => factor.numbers
  | _, scaled left _ right => left.numbers ++ right.numbers
  | _, first term => term.numbers
  | _, leading _ term => term.numbers
  | _, added left _ right => left.numbers ++ right.numbers

/-- The phrase does not start with a sign. -/
def Unsigned : {p : Phrase} → Expr p → Prop
  | _, number _ | _, paren _ => True
  | _, bare operand => operand.Unsigned
  | _, signed .. | _, leading .. => False
  | _, single factor => factor.Unsigned
  | _, scaled left .. => left.Unsigned
  | _, first term => term.Unsigned
  | _, added left .. => left.Unsigned

instance decidableUnsigned : {p : Phrase} → (e : Expr p) → Decidable e.Unsigned
  | _, number _ | _, paren _ => isTrue trivial
  | _, bare operand => operand.decidableUnsigned
  | _, signed .. | _, leading .. => isFalse id
  | _, single factor => factor.decidableUnsigned
  | _, scaled left .. => left.decidableUnsigned
  | _, first term => term.decidableUnsigned
  | _, added left .. => left.decidableUnsigned

/-- Each sum without a sign in front starts with a factor without one. -/
def Proper : {p : Phrase} → Expr p → Prop
  | _, number _ => True
  | _, paren inner => inner.Proper
  | _, bare operand => operand.Proper
  | _, signed _ operand => operand.Proper
  | _, single factor => factor.Proper
  | _, scaled left _ right => left.Proper ∧ right.Proper
  | _, first term => term.Unsigned ∧ term.Proper
  | _, leading _ term => term.Proper
  | _, added left _ right => left.Proper ∧ right.Proper

instance decidableProper : {p : Phrase} → (e : Expr p) → Decidable e.Proper
  | _, number _ => isTrue trivial
  | _, paren inner => inner.decidableProper
  | _, bare operand => operand.decidableProper
  | _, signed _ operand => operand.decidableProper
  | _, single factor => factor.decidableProper
  | _, scaled left _ right => @instDecidableAnd _ _ left.decidableProper right.decidableProper
  | _, first term => @instDecidableAnd _ _ term.decidableUnsigned term.decidableProper
  | _, leading _ term => term.decidableProper
  | _, added left _ right => @instDecidableAnd _ _ left.decidableProper right.decidableProper

/-- The text of a number: digits, digits before an `x`, or an `x`. -/
def IsNumeral (s : List Char) : Prop :=
  ∃ digits : List Char, (∀ c ∈ digits, c.isDigit) ∧ (s = digits ∧ digits ≠ [] ∨ s = digits ++ ['x'])

theorem isNumeral_iff {s : List Char} :
    IsNumeral s ↔ s.all Char.isDigit ∧ s ≠ [] ∨
      s.dropLast.all Char.isDigit ∧ s.getLast? = some 'x' := by
  simp only [List.all_eq_true]
  constructor
  · rintro ⟨digits, all, ⟨rfl, nonempty⟩ | rfl⟩
    · exact Or.inl ⟨all, nonempty⟩
    · exact Or.inr ⟨by rwa [List.dropLast_concat], List.getLast?_concat⟩
  · rintro (⟨all, nonempty⟩ | ⟨all, last⟩)
    · exact ⟨s, all, Or.inl ⟨rfl, nonempty⟩⟩
    · obtain ⟨digits, rfl⟩ := List.getLast?_eq_some_iff.1 last
      exact ⟨digits, by rwa [List.dropLast_concat] at all, Or.inr rfl⟩

instance (s : List Char) : Decidable (IsNumeral s) := decidable_of_iff _ isNumeral_iff.symm

/-- A character that may stand in a number. -/
def IsNumberChar (c : Char) : Prop := c.isDigit ∨ c = 'x'

instance (c : Char) : Decidable (IsNumberChar c) := inferInstanceAs (Decidable (_ ∨ _))

/-- The numbers stand at their places in a text that starts at byte `start`: each begins and ends
with a character of a number, and no such character stands between two of them. -/
inductive Placed : Nat → List Char → List Token → Prop
  | nil {start : Nat} {s : List Char} (others : ∀ c ∈ s, ¬ IsNumberChar c) : Placed start s []
  | cons {start : Nat} {gap text tail : List Char} {ns : List Token}
    (others : ∀ c ∈ gap, ¬ IsNumberChar c) (head : ∃ c ∈ text.head?, IsNumberChar c)
    (last : ∃ c ∈ text.getLast?, IsNumberChar c)
    (rest : Placed (start + utf8Length gap + utf8Length text) tail ns) :
    Placed start (gap ++ text ++ tail)
      (⟨.number, .ofList text,
          ⟨start + utf8Length gap, start + utf8Length gap + utf8Length text⟩⟩ :: ns)

/-- The tree is one of a text that the grammar derives. -/
def WellFormed (e : Expr p) : Prop :=
  e.Proper ∧ ∀ literal ∈ e.numbers, IsNumeral (Text.compact literal.text.toList)

instance (e : Expr p) : Decidable e.WellFormed := inferInstanceAs (Decidable (_ ∧ _))

/-- The tree is that of the given text, with its numbers at their places. -/
def IsParseOf (e : Expr .sum) (source : String) : Prop :=
  e.WellFormed ∧ e.spelling = Text.compact source.toList ∧ Placed 0 source.toList e.numbers

end Expr

end OneUnknown
