import OneUnknown.Token

/-!
# Splitting a text into tokens

Blanks separate nothing: those between tokens are dropped, and those inside a number stay in its
text without a meaning. A number is the longest run of digits, with or without blanks between them,
and one `x` may end it. Every other token is a single character, and a character that is no part of
any token is an error.
-/

namespace OneUnknown

/-- The kind of a token that is the single character `c`. -/
def Kind.ofChar? : Char → Option Kind
  | '(' => some .openParen
  | ')' => some .closeParen
  | '+' => some (.operator (.binary .plus))
  | '-' => some (.operator (.binary .minus))
  | '*' => some (.operator (.binary .times))
  | '/' => some (.operator (.binary .divide))
  | _ => none

/-- Splits a text after the digits and the `x` at its head. Blanks belong to that head only where
more of it follows. -/
def splitNumber : List Char → List Char × List Char
  | [] => ([], [])
  | c :: s =>
    if c = 'x' then ([c], s)
    else if c.isDigit then
      let tail := splitNumber s
      (c :: tail.1, tail.2)
    else if Text.isBlank c then
      let tail := splitNumber s
      if tail.1 = [] then ([], c :: s) else (c :: tail.1, tail.2)
    else ([], c :: s)

theorem splitNumber_append (s : List Char) : (splitNumber s).1 ++ (splitNumber s).2 = s := by
  fun_induction splitNumber s <;> simp_all +zetaDelta

theorem splitNumber_ne_nil {c : Char} (h : c.isDigit ∨ c = 'x') (s : List Char) :
    (splitNumber (c :: s)).1 ≠ [] := by
  grind [splitNumber]

theorem length_splitNumber_lt {c : Char} (h : c.isDigit ∨ c = 'x') (s : List Char) :
    (splitNumber (c :: s)).2.length < (c :: s).length := by
  have split := congrArg List.length (splitNumber_append (c :: s))
  have head := List.length_pos_iff.2 (splitNumber_ne_nil h s)
  rw [List.length_append] at split
  omega

namespace Token

/-- The tokens of a text that starts at byte `start`. -/
def lex (start : Nat) : List Char → Except ReadError (List Token)
  | [] => .ok []
  | c :: s =>
    if Text.isBlank c then lex (start + c.utf8Size) s
    else if number : c.isDigit ∨ c = 'x' then
      have := length_splitNumber_lt number s
      let parts := splitNumber (c :: s)
      let stop := start + utf8Length parts.1
      (⟨.number, .ofList parts.1, ⟨start, stop⟩⟩ :: ·) <$> lex stop parts.2
    else
      match Kind.ofChar? c with
      | some kind =>
        let stop := start + c.utf8Size
        (⟨kind, .ofList [c], ⟨start, stop⟩⟩ :: ·) <$> lex stop s
      | none => .error (.unsupported c start)
termination_by s => s.length
decreasing_by
  · exact Nat.lt_succ_self _
  · exact this
  · exact Nat.lt_succ_self _

end Token

end OneUnknown
