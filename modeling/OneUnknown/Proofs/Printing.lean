import OneUnknown.Proofs.Blanks
import OneUnknown.Proofs.Solving

/-!
# Printed forms

The text of a form is that of a sum with at most two terms (`Linear.spelling_toExpr`), and the value
of this sum is the form (`Linear.value_toExpr`). A negative number is written as its magnitude after
a minus sign; since the sign is folded into the number, the least word is read back too. So reading
undoes printing for every form, alone (`Linear.outcome_evaluate_of_compact_eq`) or as a side of a
line (`evaluate_and_parse_toString`).
-/

namespace OneUnknown

open Text Token

variable {policy : DivisionPolicy}

/-! ### Trees without places -/

/-- A literal is read alike wherever it stands. -/
theorem Token.literal_unplaced_eq {t u : Token} (text : t.compactText = u.compactText)
    (negated : Bool) :
    (t.literal negated).mapError ReadError.unplaced =
      (u.literal negated).mapError ReadError.unplaced := by
  have same : stripped { t with kind := .number } = stripped { u with kind := .number } :=
    stripped_eq_iff.2 ⟨rfl, text⟩
  have left := literal_stripped negated { t with kind := .number }
  rw [same, literal_stripped] at left
  exact left.symm

namespace Expr

variable {p : Phrase}

theorem Alike.startsWithNumber_eq {e e' : Expr p} (h : Alike e e') :
    e.startsWithNumber = e'.startsWithNumber := by
  induction h with
  | number | paren | first | leading | added => rfl
  | bare _ ih | single _ ih | scaled _ _ _ ih => exact ih
  | signed sign _ ih =>
    cases sign with
    | plus => exact ih
    | minus => rfl

theorem Alike.addTo_eq {e e' : Expr .term} (h : Alike e e')
    (values : ∀ negated, (e.value policy negated).mapError EvalError.unplaced =
      (e'.value policy negated).mapError EvalError.unplaced) (sign : Sign) (l : Linear) :
    (e.addTo policy sign l).mapError EvalError.unplaced =
      (e'.addTo policy sign l).mapError EvalError.unplaced := by
  cases sign with
  | plus => simp only [addTo, mapError_bind, values]
  | minus =>
    simp only [addTo, h.startsWithNumber_eq]
    split <;> simp only [mapError_bind, values]

/-- Trees that are alike have the same value, and the same error up to places. -/
theorem Alike.value_eq {e e' : Expr p} (h : Alike e e') (negated : Bool) :
    (e.value policy negated).mapError EvalError.unplaced =
      (e'.value policy negated).mapError EvalError.unplaced := by
  induction h generalizing negated with
  | number text => simp only [value, mapError_read_unplaced, literal_unplaced_eq text]
  | paren _ ih | bare _ ih | single _ ih | first _ ih => simpa only [value] using ih _
  | signed sign operand ih =>
    cases sign with
    | plus => simpa only [value] using ih negated
    | minus =>
      simp only [value, operand.startsWithNumber_eq]
      split
      · exact ih true
      · simp only [mapError_bind, ih]
  | scaled _ _ _ ihLeft ihRight => simp only [value, mapError_bind, ihLeft, ihRight]
  | leading sign term ih =>
    rw [value_leading, value_leading]
    exact term.addTo_eq ih sign .zero
  | added sign _ right ihLeft ihRight =>
    simp only [value_added, mapError_bind, ihLeft, right.addTo_eq ihRight]

end Expr

/-- The value of what a text writes is that of the text, wherever its numbers stand, and an error is
the same up to places. -/
theorem outcome_evaluate_unplaced_of_writes {side : Side} {source : String}
    (writes : side.Writes source) :
    (evaluate policy source).outcome.mapError EvalError.unplaced =
      (side.value policy).mapError EvalError.unplaced := by
  obtain ⟨side', parse, alike⟩ := writes.exists_isParseOf
  rw [outcome_evaluate_of_isParseOf parse]
  cases alike with
  | blank => rfl
  | sum alike => exact (alike.value_eq false).symm

theorem outcome_evaluate_of_writes {side : Side} {source : String} (writes : side.Writes source)
    {v : Linear} (value : side.value policy = .ok v) :
    (evaluate policy source).outcome = .ok v :=
  eq_ok_of_mapError_eq (outcome_evaluate_unplaced_of_writes writes).symm value

/-! ### Terms of a printed form -/

/-- The multiple of one or of the unknown by an integer. -/
def IntForm.monomial (unknown : Bool) (n : Int) : IntForm := if unknown then ⟨n, 0⟩ else ⟨0, n⟩

/-- The multiple of one or of the unknown by a word. -/
def Linear.monomial (unknown : Bool) (w : Word) : Linear := if unknown then ⟨w, 0⟩ else ⟨0, w⟩

theorem ofLinear_monomial (unknown : Bool) (w : Word) :
    IntForm.ofLinear (.monomial unknown w) = .monomial unknown w.toInt := by
  cases unknown <;> rfl

namespace Linear

theorem zero_add (p : Linear) : zero.add p = .ok p := by
  rw [add_eq, IntForm.checked_eq_ok_iff]
  refine IntForm.ext ?_ ?_
  · exact (Int.zero_add _).symm
  · exact (Int.zero_add _).symm

theorem monomial_add_monomial (a b : Word) :
    (monomial true a).add (monomial false b) = .ok ⟨a, b⟩ := by
  rw [add_eq, IntForm.checked_eq_ok_iff]
  refine IntForm.ext ?_ ?_
  · exact (Int.add_zero _).symm
  · exact (Int.zero_add _).symm

end Linear

namespace Token

/-- The text of a term. A factor of one before the unknown is left out. -/
def termText (unknown : Bool) (n : Nat) : List Char :=
  (if unknown ∧ n = 1 then [] else Nat.toDigits 10 n) ++ if unknown then ['x'] else []

/-- The number token of a term. -/
def ofTerm (unknown : Bool) (n : Nat) : Token := ⟨.number, .ofList (termText unknown n), ⟨0, 0⟩⟩

theorem isDigit_of_mem_toDigits {n : Nat} {c : Char} (h : c ∈ Nat.toDigits 10 n) : c.isDigit :=
  Nat.isDigit_of_mem_toDigits (by decide) (by decide) h

theorem isNumeral_termText (unknown : Bool) (n : Nat) : Expr.IsNumeral (termText unknown n) := by
  cases unknown with
  | false =>
    refine ⟨Nat.toDigits 10 n, fun _ => isDigit_of_mem_toDigits, Or.inl ⟨?_, Nat.toDigits_ne_nil⟩⟩
    simp [termText]
  | true =>
    refine ⟨if n = 1 then [] else Nat.toDigits 10 n, fun c hc => ?_, Or.inr (by simp [termText])⟩
    split at hc
    · cases hc
    · exact isDigit_of_mem_toDigits hc

theorem compact_termText (unknown : Bool) (n : Nat) :
    compact (termText unknown n) = termText unknown n :=
  compact_eq_self fun _ hc => ((isNumeral_termText unknown n).isNumberChar hc).not_isBlank

theorem compactText_ofTerm (unknown : Bool) (n : Nat) :
    (ofTerm unknown n).compactText = termText unknown n := by
  rw [ofTerm, compactText_ofList, compact_termText]

theorem ofToken_ofTerm (unknown : Bool) (n : Nat) :
    IntForm.ofToken (ofTerm unknown n) = .monomial unknown n := by
  have digits : ∀ c ∈ Nat.toDigits 10 n, c.isDigit := fun _ => isDigit_of_mem_toDigits
  have text := compactText_ofTerm unknown n
  cases unknown with
  | false =>
    have all : (ofTerm false n).compactText = Nat.toDigits 10 n := by simpa [termText] using text
    rw [ofToken_of_digits digits Nat.toDigits_ne_nil all, Nat.ofDigitChars_ten_toDigits]
    rfl
  | true =>
    by_cases one : n = 1
    · subst one
      rw [@ofToken_of_unknown _ [] (by simp) text]
      rfl
    · have all : (ofTerm true n).compactText = Nat.toDigits 10 n ++ ['x'] := by
        simpa [termText, one] using text
      rw [ofToken_of_unknown digits all, if_neg Nat.toDigits_ne_nil, Nat.ofDigitChars_ten_toDigits]
      rfl

theorem isNumeral_ofTerm (unknown : Bool) (n : Nat) :
    Expr.IsNumeral (ofTerm unknown n).compactText := by
  rw [compactText_ofTerm]
  exact isNumeral_termText unknown n

/-- A term is read as the word that it and the sign before it denote. -/
theorem literal_ofTerm (unknown : Bool) {n : Nat} {negated : Bool} {w : Word}
    (same : w.toInt = if negated then -(n : Int) else n) :
    (ofTerm unknown n).literal negated = .ok (.monomial unknown w) := by
  rw [literal_eq_ok_iff (isNumeral_ofTerm unknown n), ofLinear_monomial, ofToken_ofTerm, same]
  cases negated <;> cases unknown <;> rfl

end Token

/-! ### The sum of a printed form -/

namespace Expr

/-- The term that writes a magnitude. -/
def ofTerm (unknown : Bool) (n : Nat) : Expr .term := .single (.bare (.number (.ofTerm unknown n)))

/-- The sum that writes an integer, with its sign in front if it is negative. -/
def ofInt (unknown : Bool) (n : Int) : Expr .sum :=
  if n < 0 then .leading .minus (ofTerm unknown n.natAbs) else .first (ofTerm unknown n.natAbs)

/-- The sum that goes on with an integer. -/
def plusInt (e : Expr .sum) (n : Int) : Expr .sum :=
  .added e (if n < 0 then .minus else .plus) (ofTerm false n.natAbs)

theorem value_ofTerm (unknown : Bool) {n : Nat} {negated : Bool} {w : Word}
    (same : w.toInt = if negated then -(n : Int) else n) :
    (ofTerm unknown n).value policy negated = .ok (.monomial unknown w) := by
  simp only [ofTerm, value, literal_ofTerm unknown same, mapError_ok]

/-- A sign before the magnitude of a word adds the word. -/
theorem addTo_ofTerm (unknown : Bool) (w : Word) (l : Linear) :
    (ofTerm unknown w.toInt.natAbs).addTo policy (if w.toInt < 0 then .minus else .plus) l =
      l.add (.monomial unknown w) := by
  by_cases negative : w.toInt < 0
  · have same : w.toInt = -(w.toInt.natAbs : Int) := by omega
    rw [if_pos negative]
    have number : (ofTerm unknown w.toInt.natAbs).startsWithNumber := rfl
    simp only [addTo]
    rw [if_pos number, @value_ofTerm _ unknown _ true w same, ok_bind]
  · have same : w.toInt = (w.toInt.natAbs : Int) := by omega
    rw [if_neg negative]
    simp only [addTo]
    rw [@value_ofTerm _ unknown _ false w same, ok_bind]

theorem value_ofInt (unknown : Bool) (w : Word) :
    (ofInt unknown w.toInt).value policy false = .ok (.monomial unknown w) := by
  by_cases negative : w.toInt < 0
  · have sum : (ofTerm unknown w.toInt.natAbs).addTo policy (if w.toInt < 0 then .minus else .plus)
        .zero = Linear.zero.add (.monomial unknown w) := addTo_ofTerm unknown w .zero
    rw [if_pos negative, Linear.zero_add] at sum
    rw [ofInt, if_pos negative, value_leading, sum]
  · have same : w.toInt = if false then -(w.toInt.natAbs : Int) else w.toInt.natAbs := by
      rw [if_neg Bool.false_ne_true]
      omega
    rw [ofInt, if_neg negative]
    simp only [value, value_ofTerm unknown same]

theorem value_plusInt {e : Expr .sum} {l : Linear} (value : e.value policy false = .ok l)
    (w : Word) : (e.plusInt w.toInt).value policy false = l.add (.monomial false w) := by
  rw [plusInt, value_added, value, ok_bind, addTo_ofTerm]

theorem wellFormed_ofInt (unknown : Bool) (n : Int) : (ofInt unknown n).WellFormed := by
  have numerals : ∀ t ∈ (ofTerm unknown n.natAbs).numbers, IsNumeral t.compactText := by
    intro t ht
    obtain rfl := List.mem_singleton.1 ht
    exact isNumeral_ofTerm unknown n.natAbs
  unfold ofInt
  split
  · exact ⟨trivial, numerals⟩
  · exact ⟨⟨trivial, trivial⟩, numerals⟩

theorem wellFormed_plusInt {e : Expr .sum} (h : e.WellFormed) (n : Int) :
    (e.plusInt n).WellFormed := by
  refine ⟨⟨h.1, trivial⟩, fun t ht => ?_⟩
  rcases List.mem_append.1 ht with left | right
  · exact h.2 t left
  · obtain rfl := List.mem_singleton.1 right
    exact isNumeral_ofTerm false n.natAbs

theorem spelling_ofTerm (unknown : Bool) (n : Nat) :
    (ofTerm unknown n).spelling = termText unknown n :=
  compactText_ofTerm unknown n

theorem spelling_ofInt (unknown : Bool) (n : Int) :
    (ofInt unknown n).spelling = (if n < 0 then ['-'] else []) ++ termText unknown n.natAbs := by
  unfold ofInt
  split
  · simp only [spelling, spelling_ofTerm]
    rfl
  · simp only [spelling, spelling_ofTerm]
    rfl

theorem spelling_plusInt (e : Expr .sum) (n : Int) :
    (e.plusInt n).spelling =
      e.spelling ++ (if n < 0 then '-' else '+') :: termText false n.natAbs := by
  simp only [plusInt, spelling, spelling_ofTerm]
  split <;> rfl

end Expr

/-! ### The text of a form -/

theorem termText_false (n : Nat) : termText false n = Nat.toDigits 10 n := by
  simp [termText]

theorem compact_spelling_ofInt (unknown : Bool) (n : Int) :
    compact (Expr.ofInt unknown n).spelling = (Expr.ofInt unknown n).spelling := by
  rw [Expr.spelling_ofInt, compact_append, compact_termText]
  split <;> rfl

theorem Word.toList_numeral (w : Word) :
    w.numeral.toList = (if w.toInt < 0 then ['-'] else []) ++ Nat.toDigits 10 w.toInt.natAbs := by
  rw [numeral, Int.toString_eq_repr]
  cases w.toInt with
  | ofNat n => exact Nat.toList_repr
  | negSucc n =>
    change ("-" ++ n.succ.repr).toList = _
    rw [String.toList_append, Nat.toList_repr, if_pos (Int.negSucc_lt_zero n)]
    rfl

namespace Linear

/-- The sum that writes a form. -/
def toExpr (p : Linear) : Expr .sum :=
  if p.coefficient = 0 then .ofInt false p.constant.toInt
  else if p.constant = 0 then .ofInt true p.coefficient.toInt
  else (Expr.ofInt true p.coefficient.toInt).plusInt p.constant.toInt

theorem value_toExpr (p : Linear) : p.toExpr.value policy false = .ok p := by
  obtain ⟨a, b⟩ := p
  unfold toExpr
  dsimp only
  split
  · next zero =>
    rw [Expr.value_ofInt, zero]
    rfl
  split
  · next zero =>
    rw [Expr.value_ofInt, zero]
    rfl
  · rw [Expr.value_plusInt (Expr.value_ofInt true a), monomial_add_monomial]

theorem wellFormed_toExpr (p : Linear) : p.toExpr.WellFormed := by
  unfold toExpr
  split
  · exact Expr.wellFormed_ofInt _ _
  split
  · exact Expr.wellFormed_ofInt _ _
  · exact Expr.wellFormed_plusInt (Expr.wellFormed_ofInt _ _) _

/-- The text of the part of a form with the unknown. -/
theorem toList_first (a : Word) :
    (if a = 1 then "x" else if a = -1 then "-x" else a.numeral ++ "x").toList =
      (Expr.ofInt true a.toInt).spelling := by
  rw [Expr.spelling_ofInt]
  split
  · next one =>
    subst one
    decide
  split
  · next minusOne =>
    subst minusOne
    decide
  · next one minusOne =>
    have other : a.toInt.natAbs ≠ 1 := by
      intro h
      rcases Int.natAbs_eq a.toInt with same | same
      · exact one (Int64.toInt_inj.1 (same.trans (by rw [h]; rfl)))
      · exact minusOne (Int64.toInt_inj.1 (same.trans (by rw [h]; rfl)))
    simp [Word.toList_numeral, termText, other]

theorem spelling_toExpr (p : Linear) : p.toExpr.spelling = compact p.toString.toList := by
  obtain ⟨a, b⟩ := p
  unfold toExpr toString
  dsimp only
  split
  · have text : (Expr.ofInt false b.toInt).spelling = b.numeral.toList := by
      rw [Expr.spelling_ofInt, termText_false, Word.toList_numeral]
    rw [← text, compact_spelling_ofInt]
  split
  · next zero =>
    subst zero
    rw [if_neg (by decide), if_neg (by decide), toList_first, compact_spelling_ofInt]
  · next nonzero =>
    have nonzero : b.toInt ≠ 0 := fun h => nonzero (Word.toInt_eq_zero_iff.1 h)
    rw [Expr.spelling_plusInt, termText_false]
    have digits : compact (Nat.toDigits 10 b.toInt.natAbs) = Nat.toDigits 10 b.toInt.natAbs := by
      rw [← termText_false, compact_termText]
    by_cases positive : 0 < b.toInt
    · have sign : ¬ b.toInt < 0 := by omega
      rw [if_pos positive, if_neg sign, String.toList_append, String.toList_append, toList_first,
        compact_append, compact_append, compact_spelling_ofInt, Word.toList_numeral, if_neg sign,
        List.nil_append, digits, List.append_assoc]
      rfl
    · have sign : b.toInt < 0 := by omega
      rw [if_neg positive, if_pos sign, if_pos sign, String.toList_append, String.toList_append,
        toList_first, compact_append, compact_append, compact_spelling_ofInt, Nat.toList_repr,
        digits, List.append_assoc]
      rfl

/-- A text that is the printed form, blanks aside, writes its sum. -/
theorem writes_toExpr {p : Linear} {source : String}
    (text : compact source.toList = compact p.toString.toList) :
    (Side.sum p.toExpr).Writes source :=
  ⟨p.wellFormed_toExpr, p.spelling_toExpr.trans text.symm⟩

/-- A printed form is read back, wherever blanks are put into it. -/
theorem outcome_evaluate_of_compact_eq {p : Linear} {source : String}
    (text : compact source.toList = compact p.toString.toList) :
    (evaluate policy source).outcome = .ok p :=
  outcome_evaluate_of_writes (writes_toExpr text) p.value_toExpr

end Linear

/-! ### Lines of printed forms -/

namespace Token

theorem Shaped.known_of_mem {t : Token} (h : t.Shaped) {c : Char} (inside : c ∈ t.compactText) :
    Expr.IsNumberChar c ∨ ∃ kind, Kind.ofChar? c = some kind := by
  unfold Shaped at h
  split at h
  · exact Or.inl (h.isNumberChar inside)
  · rw [h, List.mem_singleton] at inside
    exact Or.inr ⟨_, inside ▸ Expr.ofChar?_openParen⟩
  · rw [h, List.mem_singleton] at inside
    exact Or.inr ⟨_, inside ▸ Expr.ofChar?_closeParen⟩
  · rw [h, List.mem_singleton] at inside
    exact Or.inr ⟨_, inside ▸ Expr.ofChar?_sign _⟩
  · exact h.elim

/-- A character of a text that can be lexed is a blank or part of a token. -/
theorem IsLexed.known_of_mem {s : List Char} {ts : List Token} (h : IsLexed s ts) {c : Char}
    (inside : c ∈ s) :
    isBlank c ∨ Expr.IsNumberChar c ∨ ∃ kind, Kind.ofChar? c = some kind := by
  cases blank : isBlank c with
  | true => exact Or.inl rfl
  | false =>
    have kept : c ∈ ts.flatMap compactText := by
      rw [h.text]
      exact List.mem_filter.2 ⟨inside, by simp [blank]⟩
    obtain ⟨t, mem, inside⟩ := List.mem_flatMap.1 kept
    exact Or.inr ((h.shaped t mem).known_of_mem inside)

end Token

theorem equals_not_mem_of_outcome_evaluate {source : String} {v : Linear}
    (h : (evaluate policy source).outcome = .ok v) : '=' ∉ source.toList := by
  rw [outcome_evaluate] at h
  obtain ⟨ts, lexed, -⟩ := bind_eq_ok_iff.1 h
  rw [mapError_eq_ok_iff] at lexed
  intro inside
  rcases (isLexed_of_lex lexed).known_of_mem inside with blank | number | ⟨kind, known⟩
  · exact absurd blank (by decide)
  · exact absurd number (by decide)
  · cases known

/-- The equation between two texts that have a value. -/
theorem Equation.outcome_parse_of_outcome_evaluate {l r : String} {a b : Linear}
    (left : (evaluate policy l).outcome = .ok a) (right : (evaluate policy r).outcome = .ok b) :
    (parse policy (l ++ "=" ++ r)).outcome = .ok ⟨a, b⟩ := by
  rw [outcome_parse_append (equals_not_mem_of_outcome_evaluate left)
    (equals_not_mem_of_outcome_evaluate right), left, right]
  rfl

/-- Reading undoes printing under all options: the text of a form evaluates to that form, in
particular where it is read under the default options, and the texts of two forms with an equals
sign between them are read as the equation between the two. -/
theorem evaluate_and_parse_toString (options : Options) :
    (∀ p : Linear, (evaluate options.policy p.toString).outcome = .ok p) ∧
      (∀ p : Linear, (Linear.ofText p.toString).outcome = .ok p) ∧
        ∀ l r : Linear,
          (Equation.parse options.policy (l.toString ++ " = " ++ r.toString)).outcome =
            .ok ⟨l, r⟩ := by
  refine ⟨fun p => Linear.outcome_evaluate_of_compact_eq rfl,
    fun p => Linear.outcome_evaluate_of_compact_eq rfl, fun l r => ?_⟩
  have line :
      l.toString ++ " = " ++ r.toString = l.toString ++ " " ++ "=" ++ (" " ++ r.toString) := by
    simp only [String.append_assoc]
    rfl
  have blank : compact " ".toList = [] := by decide
  rw [line]
  refine Equation.outcome_parse_of_outcome_evaluate ?_ ?_
  · refine Linear.outcome_evaluate_of_compact_eq ?_
    rw [String.toList_append, compact_append, blank, List.append_nil]
  · refine Linear.outcome_evaluate_of_compact_eq ?_
    rw [String.toList_append, compact_append, blank, List.nil_append]

end OneUnknown
