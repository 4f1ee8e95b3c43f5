import OneUnknown.Machine.Fault
import OneUnknown.Token.Sign

/-!
# Reading a text by bytes

A machine keeps a text as bytes and its place in the text as an offset. It may cut a text only where
a character starts or where the text ends, and looks at a character by cutting the text before it.
Tokens are read by moving the offset over their characters, one by one, and by cutting the text at
both ends of each token.
-/

namespace OneUnknown.Machine

open Run

/-- A text in two parts, the first of `n` bytes, if no character stands across their border. -/
def splitAt? : List Char → Nat → Option (List Char × List Char)
  | s, 0 => some ([], s)
  | [], _ + 1 => none
  | c :: s, n + 1 =>
    if c.utf8Size ≤ n + 1 then
      (splitAt? s (n + 1 - c.utf8Size)).map fun parts => (c :: parts.1, parts.2)
    else none

section Cursor

variable {ε : Type} (source : List Char)

/-- The text in two parts, the first of `n` bytes. -/
def splitAt (n : Nat) : Run ε (List Char × List Char) :=
  (splitAt? source n).elim (fault .slice) .ok

/-- The text of a span. -/
def slice (span : Span) : Run ε (List Char) := do
  let (front, _) ← splitAt source span.stop
  let (_, text) ← splitAt front span.start
  return text

/-- The text from the offset `cursor` on. -/
def rest (cursor : Nat) : Run ε (List Char) := do
  let (_, text) ← splitAt source cursor
  return text

/-- The character at the offset `cursor`, unless the text ends there. -/
def peek (cursor : Nat) : Run ε (Option Char) := do
  return (← rest source cursor).head?

/-- The first character from the offset `cursor` on that is no blank. -/
def peekPastBlanks (cursor : Nat) : Run ε (Option Char) := do
  return (← rest source cursor).find? fun c => !Text.isBlank c

/-- The offset behind the character at `cursor`, unless the text ends there. An offset need not
reach beyond the end of the text. -/
def advance (cursor : Nat) : Run ε (Option Nat) := do
  match ← peek source cursor with
  | none => return none
  | some c =>
    ensure (cursor + c.utf8Size ≤ utf8Length source) .overflow
    return some (cursor + c.utf8Size)

/-- Moves the offset step by step until `step` has no more to go. Each step has to move it forward
within the text. -/
def loop (step : Nat → Run ε (Option Nat)) (cursor : Nat) : Run ε Nat := do
  match ← step cursor with
  | none => return cursor
  | some next =>
    if cursor < next ∧ next ≤ utf8Length source then loop step next else fault .endless
termination_by utf8Length source - cursor

/-- The offset behind the character at `cursor`, if `p` holds for it. -/
def takeIf (p : Char → Bool) (cursor : Nat) : Run ε (Option Nat) := do
  if (← peek source cursor).any p then advance source cursor else return none

/-- The offset behind the characters at `cursor` that `p` holds for. How far it is from `cursor` is
computed too. -/
def skipWhile (p : Char → Bool) (cursor : Nat) : Run ε Nat := do
  let stop ← loop source (takeIf source p) cursor
  ensure (cursor ≤ stop) .overflow
  return stop

/-- The offset behind the blanks at `cursor` and the character after them, if `p` holds for it. -/
def takePastBlanks (p : Char → Bool) (cursor : Nat) : Run ε (Option Nat) := do
  if (← peekPastBlanks source cursor).any p then
    let next ← skipWhile source Text.isBlank cursor
    return some ((← advance source next).getD next)
  else
    return none

/-- The offset behind a number at `start`: digits, and an `x` that may end them. -/
def numberEnd (start : Nat) : Run ε Nat := do
  let stop ← loop source (takePastBlanks source Char.isDigit) start
  return (← takePastBlanks source (· = 'x') stop).getD stop

end Cursor

/-! ### Tokens -/

variable (source : List Char)

/-- The token of the given kind and span. -/
def tokenAt {ε : Type} (kind : Kind) (span : Span) : Run ε Token := do
  return ⟨kind, .ofList (← slice source span), span⟩

/-- The first token from the offset `cursor` on, if there is one. -/
def nextToken (cursor : Nat) : Run ReadError (Option Token) := do
  let start ← skipWhile source Text.isBlank cursor
  match ← peek source start with
  | none => return none
  | some c =>
    if c.isDigit ∨ c = 'x' then
      let stop ← numberEnd source start
      some <$> tokenAt source .number ⟨start, stop⟩
    else
      match Kind.ofChar? c with
      | some kind =>
        match ← advance source start with
        | some stop => some <$> tokenAt source kind ⟨start, stop⟩
        | none => return none
      | none => .error (.error (.unsupported c start))

/-- The tokens from the offset `cursor` on. -/
def tokens (cursor : Nat) : Run ReadError (List Token) := do
  match ← nextToken source cursor with
  | none => return []
  | some t =>
    if cursor < t.span.stop ∧ t.span.stop ≤ utf8Length source then
      (t :: ·) <$> tokens t.span.stop
    else fault .endless
termination_by utf8Length source - cursor

/-- The tokens of one side of an equation. -/
def tokenize (source : String) : Run ReadError (List Token) :=
  Token.settleSigns .opening <$> tokens source.toList 0

end OneUnknown.Machine
