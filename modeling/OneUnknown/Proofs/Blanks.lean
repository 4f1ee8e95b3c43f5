import OneUnknown.Proofs.Evaluation

/-!
# Blanks

Blanks carry no meaning wherever they stand: between tokens, inside a number or around an equals
sign. Only places in a text tell how many there are, and only errors tell of places. So a token is
stripped of its blanks and its place, and an error of its place (`unplaced`). Every stage from the
tokens on has the same outcome for stripped tokens, less its places (`read_stripped`), and the
stripped tokens of a text are those of the text without blanks (`strip_lex_compact`). Therefore two
texts that differ in blanks only have the same outcomes up to places (`outcomes_eq_of_compact_eq`).
-/

namespace OneUnknown

open Text

/-! ### Errors without places -/

/-- The error without the place it tells of. -/
def ReadError.unplaced : ReadError → ReadError
  | .unsupported character _ => .unsupported character 0
  | .outOfRange text _ => .outOfRange text ⟨0, 0⟩

/-- The error without the place it tells of. -/
def EvalError.unplaced : EvalError → EvalError
  | .read cause => .read cause.unplaced
  | other => other

/-- The error without the place it tells of. -/
def SolveError.unplaced : SolveError → SolveError
  | .evaluation cause => .evaluation cause.unplaced
  | other => other

theorem mapError_read_unplaced {α : Type} (x : Except ReadError α) :
    (x.mapError .read).mapError EvalError.unplaced = (x.mapError .unplaced).mapError .read := by
  cases x <;> rfl

theorem mapError_evaluation_unplaced {α : Type} (x : Except EvalError α) :
    (x.mapError .evaluation).mapError SolveError.unplaced =
      (x.mapError .unplaced).mapError .evaluation := by
  cases x <;> rfl

/-! ### Stripped tokens -/

namespace Token

/-- The token without its blanks and its place. -/
def stripped (t : Token) : Token := ⟨t.kind, .ofList t.compactText, ⟨0, 0⟩⟩

@[simp] theorem kind_stripped (t : Token) : t.stripped.kind = t.kind := rfl

@[simp] theorem compactText_stripped (t : Token) : t.stripped.compactText = t.compactText := by
  simp [stripped, compactText]

@[simp] theorem start_span_stripped (t : Token) : t.stripped.span.start = 0 := rfl

theorem stripped_ofList (kind : Kind) (s : List Char) (span : Span) :
    stripped ⟨kind, .ofList s, span⟩ = ⟨kind, .ofList (compact s), ⟨0, 0⟩⟩ := by
  rw [stripped, compactText_ofList]

theorem stripped_eq_iff {t u : Token} :
    t.stripped = u.stripped ↔ t.kind = u.kind ∧ t.compactText = u.compactText := by
  simp [stripped, String.ofList_inj]

theorem signedText_stripped (negated : Bool) (t : Token) :
    t.stripped.signedText negated = t.signedText negated :=
  congrArg (foldedSign negated ++ ·) (compactText_stripped t)

theorem word_stripped (negated : Bool) (t : Token) (numeral : List Char) :
    t.stripped.word negated numeral = (t.word negated numeral).mapError .unplaced := by
  rw [word, word, signedText_stripped]
  cases (integer? numeral).bind Word.ofInt? <;> rfl

theorem literal_stripped (negated : Bool) (t : Token) :
    t.stripped.literal negated = (t.literal negated).mapError .unplaced := by
  simp only [literal, signedText_stripped, word_stripped]
  split <;> exact (mapError_map _ _ _).symm

theorem stripped_zeroAt (start : Nat) : (zeroAt start).stripped = zeroAt 0 := by
  simp only [stripped, compactText, zeroAt]
  decide

/-- Which sign is an operator does not depend on blanks and places. -/
theorem settleSigns_stripped (place : Place) (ts : List Token) :
    settleSigns place (ts.map stripped) = (settleSigns place ts).map stripped := by
  induction place, ts using settleSigns.induct with
  | case1 place => rfl
  | case2 t ts kind ih | case3 t ts kind ih =>
    simp [settleSigns, kind, stripped_zeroAt, ih]
  | case4 t ts kind ih => simp [settleSigns, kind, ih]
  | case5 t ts kind ih =>
    simp only [settleSigns, List.map_cons, kind_stripped, kind, ih]
    rfl
  | case6 place t ts _ _ _ _ ih => simp [settleSigns, ih]

end Token

namespace Symbol

/-- The symbol with a stripped token. -/
def stripped : Symbol → Symbol
  | .literal negated number => .literal negated number.stripped
  | other => other

theorem ofTokens_stripped (ts : List Token) :
    ofTokens (ts.map Token.stripped) = (ofTokens ts).map stripped := by
  have same : stripped = mapToken Token.stripped := by
    funext u
    cases u <;> rfl
  rw [same]
  exact ofTokens_map Token.kind_stripped ts

end Symbol

/-! ### Reading stripped symbols -/

variable {policy : DivisionPolicy}

/-- Checking a word tells of no place. -/
theorem checked_unplaced (w? : Option Word) :
    (Linear.checked w?).mapError EvalError.unplaced = Linear.checked w? := by
  cases w? <;> rfl

theorem Linear.neg_unplaced (p : Linear) : p.neg.mapError EvalError.unplaced = p.neg := by
  simp only [neg, mapError_bind, checked_unplaced]
  rfl

theorem Linear.apply_unplaced (op : BinaryOp) (p q : Linear) :
    (apply policy op p q).mapError EvalError.unplaced = apply policy op p q := by
  cases op with
  | plus | minus =>
    simp only [apply, add, sub, mapError_bind, checked_unplaced]
    rfl
  | times =>
    simp only [apply, mul]
    split
    · rfl
    · simp only [mapError_bind, checked_unplaced]
      rfl
  | divide =>
    simp only [apply, div]
    split
    · rfl
    split
    · rfl
    simp only [mapError_bind, checked_unplaced]
    split <;> rfl

theorem Operator.applyTo_unplaced (operator : Operator) (operands : List Linear) :
    (operator.applyTo policy operands).outcome.mapError EvalError.unplaced =
      (operator.applyTo policy operands).outcome := by
  match operator, operands with
  | .negate, [] | .binary _, [] | .binary _, [_] => rfl
  | .negate, operand :: rest =>
    rw [outcome_applyTo_negate, mapError_bind, Linear.neg_unplaced]
    rfl
  | .binary op, right :: left :: rest =>
    rw [outcome_applyTo_binary, mapError_bind, Linear.apply_unplaced]
    rfl

namespace Stacks

theorem settle_unplaced (least : Nat) (s : Stacks) :
    (settle policy least s).mapError EvalError.unplaced = settle policy least s := by
  obtain ⟨operands, operators⟩ := s
  induction operators generalizing operands with
  | nil => simp
  | cons top waiting ih =>
    match top with
    | .openParen => simp
    | .operator o =>
      by_cases low : o.priority < least
      · simp [settle_of_lt policy low]
      · simp only [settle_of_le policy (Nat.not_lt.1 low), mapError_bind, o.applyTo_unplaced, ih]

theorem close_unplaced (s : Stacks) : (close s).mapError EvalError.unplaced = close s := by
  unfold close
  split <;> rfl

theorem result_unplaced (s : Stacks) : (result s).mapError EvalError.unplaced = result s := by
  unfold result
  split <;> rfl

/-- Only literals tell of places. -/
theorem outcome_step_stripped (s : Stacks) (u : Symbol) :
    (step policy s u.stripped).outcome = (step policy s u).outcome.mapError .unplaced := by
  match u with
  | .literal negated number =>
    simp only [Symbol.stripped, outcome_step_literal, Token.literal_stripped, mapError_bind,
      mapError_read_unplaced, mapError_ok]
  | .openParen => simp only [Symbol.stripped, outcome_step_openParen, mapError_ok]
  | .closeParen =>
    simp only [Symbol.stripped, outcome_step_closeParen, mapError_bind, settle_unplaced,
      close_unplaced]
  | .operator .negate => simp only [Symbol.stripped, outcome_step_negate, mapError_ok]
  | .operator (.binary op) =>
    simp only [Symbol.stripped, outcome_step_binary, mapError_bind, settle_unplaced, mapError_ok]

theorem read_stripped (s : Stacks) (us : List Symbol) :
    read policy s (us.map Symbol.stripped) = (read policy s us).mapError .unplaced := by
  induction us generalizing s with
  | nil => rfl
  | cons u us ih =>
    simp only [List.map_cons, read_cons, outcome_step_stripped, mapError_bind, ih]

end Stacks

theorem outcome_evaluateSymbols_stripped (us : List Symbol) :
    (evaluateSymbols policy (us.map Symbol.stripped)).outcome =
      (evaluateSymbols policy us).outcome.mapError .unplaced := by
  simp only [outcome_evaluateSymbols, mapError_bind, Stacks.read_stripped,
    Stacks.settle_unplaced, Stacks.result_unplaced]

/-- Stripped tokens have the same value, and the same error up to places. -/
theorem outcome_evaluateTokens_stripped (ts : List Token) :
    (evaluateTokens policy (ts.map Token.stripped)).outcome =
      (evaluateTokens policy ts).outcome.mapError .unplaced := by
  by_cases blank : ts = []
  · subst blank
    rfl
  · rw [evaluateTokens_of_ne_nil blank, evaluateTokens_of_ne_nil (by simpa using blank),
      Symbol.ofTokens_stripped, outcome_evaluateSymbols_stripped]

/-! ### Stripped tokens of a text -/

namespace Token

/-- An outcome of lexing with stripped tokens, and without the place of an error. -/
def strip (x : Except ReadError (List Token)) : Except ReadError (List Token) :=
  (List.map stripped <$> x).mapError .unplaced

theorem strip_cons (t : Token) (x : Except ReadError (List Token)) :
    strip ((t :: ·) <$> x) = (t.stripped :: ·) <$> strip x := by
  cases x <;> rfl

/-- The text alone, less its blanks, determines the stripped tokens. -/
theorem strip_lex_compact (start start' : Nat) (s : List Char) :
    strip (lex start s) = strip (lex start' (compact s)) := by
  induction start, s using lex.induct generalizing start' with
  | case1 start =>
    rw [lex_nil]
    exact congrArg strip (lex_nil start').symm
  | case2 start c s blank ih =>
    rw [lex_cons_of_blank blank, compact_cons_of_blank blank]
    exact ih start'
  | case3 start c s blank number shorter parts stop =>
    rename_i ih
    have split := splitNumber_compact (c :: s)
    rw [compact_cons_of_not_blank (Expr.IsNumberChar.not_isBlank number)] at split ⊢
    rw [lex_cons_of_number number, lex_cons_of_number number, strip_cons, strip_cons, split, ← ih]
    simp only [stripped_ofList, compact_compact]
    rfl
  | case4 start c s blank number kind known stop =>
    rename_i ih
    rw [lex_cons_of_kind known, compact_cons_of_not_blank (Kind.not_isBlank_of_ofChar? known),
      lex_cons_of_kind known, strip_cons, strip_cons, ← ih]
    simp only [stripped_ofList]
    rfl
  | case5 start c s blank number unknown =>
    have kept : isBlank c = false := by simpa using blank
    rw [compact_cons_of_not_blank kept, lex_cons_of_unknown kept number unknown,
      lex_cons_of_unknown kept number unknown]
    rfl

/-- Nothing but a character can stop the lexing of a text, and no blank does. -/
theorem exists_unsupported_of_lex {start : Nat} {s : List Char} {e : ReadError}
    (h : lex start s = .error e) : ∃ c i, e = .unsupported c i ∧ isBlank c = false := by
  induction start, s using lex.induct with
  | case1 start =>
    rw [lex_nil] at h
    cases h
  | case2 start c s blank ih =>
    rw [lex_cons_of_blank blank] at h
    exact ih h
  | case3 start c s blank number shorter parts stop =>
    rename_i ih
    rw [lex_cons_of_number number, map_eq_error_iff] at h
    exact ih h
  | case4 start c s blank number kind known stop =>
    rename_i ih
    rw [lex_cons_of_kind known, map_eq_error_iff] at h
    exact ih h
  | case5 start c s blank number unknown =>
    have kept : isBlank c = false := by simpa using blank
    rw [lex_cons_of_unknown kept number unknown] at h
    cases h
    exact ⟨c, start, rfl, kept⟩

theorem strip_tokenize (source : String) :
    strip (tokenize source) = settleSigns .opening <$> strip (lex 0 source.toList) := by
  unfold tokenize
  cases lex 0 source.toList with
  | error e => rfl
  | ok ts => exact congrArg Except.ok (settleSigns_stripped .opening ts).symm

theorem exists_unsupported_of_tokenize {source : String} {e : ReadError}
    (h : tokenize source = .error e) : ∃ c i, e = .unsupported c i := by
  obtain ⟨c, i, same, -⟩ := exists_unsupported_of_lex (map_eq_error_iff.1 h)
  exact ⟨c, i, same⟩

theorem map_stripped_eq_iff {us ws : List Token} :
    us.map stripped = ws.map stripped ↔
      us.map kind = ws.map kind ∧ us.map compactText = ws.map compactText := by
  induction us generalizing ws with
  | nil => cases ws <;> simp
  | cons u us ih =>
    cases ws with
    | nil => simp
    | cons w ws =>
      simp only [List.map_cons, List.cons.injEq, ih, stripped_eq_iff]
      exact and_and_and_comm

end Token

/-! ### Texts -/

section Texts

variable {s t : String} (h : compact s.toList = compact t.toList)

/-- An evaluation is determined up to places by the stripped tokens. -/
theorem outcome_evaluate_unplaced (source : String) :
    (evaluate policy source).outcome.mapError EvalError.unplaced =
      (Token.strip (Token.lex 0 source.toList)).mapError .read >>= fun ts =>
        (evaluateTokens policy (Token.settleSigns .opening ts)).outcome := by
  rw [outcome_evaluate, mapError_bind, mapError_read_unplaced]
  cases Token.lex 0 source.toList with
  | error e => rfl
  | ok ts =>
    change _ = (evaluateTokens policy (Token.settleSigns .opening (ts.map Token.stripped))).outcome
    rw [Token.settleSigns_stripped, outcome_evaluateTokens_stripped]
    rfl

include h

theorem strip_lex_eq : Token.strip (Token.lex 0 s.toList) = Token.strip (Token.lex 0 t.toList) := by
  rw [Token.strip_lex_compact 0 0, h, ← Token.strip_lex_compact]

theorem tokenize_eq :
    (∃ us ws, Token.tokenize s = .ok us ∧ Token.tokenize t = .ok ws ∧
        us.map Token.kind = ws.map Token.kind ∧
        us.map Token.compactText = ws.map Token.compactText) ∨
      ∃ c i j, Token.tokenize s = .error (.unsupported c i) ∧
        Token.tokenize t = .error (.unsupported c j) := by
  have same : Token.strip (Token.tokenize s) = Token.strip (Token.tokenize t) := by
    rw [Token.strip_tokenize, Token.strip_tokenize, strip_lex_eq h]
  cases left : Token.tokenize s with
  | ok us =>
    cases right : Token.tokenize t with
    | ok ws =>
      rw [left, right] at same
      exact Or.inl ⟨us, ws, rfl, rfl, Token.map_stripped_eq_iff.1 (Except.ok.inj same)⟩
    | error e =>
      rw [left, right] at same
      cases same
  | error e =>
    cases right : Token.tokenize t with
    | ok ws =>
      rw [left, right] at same
      cases same
    | error e' =>
      obtain ⟨c, i, rfl⟩ := Token.exists_unsupported_of_tokenize left
      obtain ⟨d, j, rfl⟩ := Token.exists_unsupported_of_tokenize right
      rw [left, right] at same
      cases same
      exact Or.inr ⟨c, i, j, rfl, rfl⟩

theorem outcome_evaluate_unplaced_eq :
    (evaluate policy s).outcome.mapError EvalError.unplaced =
      (evaluate policy t).outcome.mapError EvalError.unplaced := by
  rw [outcome_evaluate_unplaced, outcome_evaluate_unplaced, strip_lex_eq h]

end Texts

/-! ### Lines -/

namespace Equation

theorem outcome_solve_unplaced (e : Equation) :
    e.solve.outcome.mapError SolveError.unplaced = e.solve.outcome := by
  cases solved : e.solve.outcome with
  | ok s => rfl
  | error error =>
    rw [eq_overflow_of_outcome_solve solved]
    rfl

theorem compact_takeWhile_ne (s : List Char) :
    compact (s.takeWhile (· ≠ '=')) = (compact s).takeWhile (· ≠ '=') := by
  induction s with
  | nil => rfl
  | cons c s ih =>
    by_cases equals : c = '='
    · subst equals
      rw [compact_cons_of_not_blank (by decide)]
      simp [compact]
    · cases blank : isBlank c with
      | true => simpa [compact_cons_of_blank blank, equals] using ih
      | false => simpa [compact_cons_of_not_blank blank, equals] using ih

theorem compact_drop_dropWhile_ne (s : List Char) :
    compact ((s.dropWhile (· ≠ '=')).drop 1) = ((compact s).dropWhile (· ≠ '=')).drop 1 := by
  induction s with
  | nil => rfl
  | cons c s ih =>
    by_cases equals : c = '='
    · subst equals
      rw [compact_cons_of_not_blank (by decide)]
      simp
    · cases blank : isBlank c with
      | true => simpa [compact_cons_of_blank blank, equals] using ih
      | false => simpa [compact_cons_of_not_blank blank, equals] using ih

/-- The sides of a line are split before or after its blanks are deleted. -/
theorem compact_sides (line : String) :
    compact (sides line).1.toList = (compact line.toList).takeWhile (· ≠ '=') ∧
      compact (sides line).2.toList = ((compact line.toList).dropWhile (· ≠ '=')).drop 1 := by
  simp only [sides, String.toList_ofList]
  exact ⟨compact_takeWhile_ne _, compact_drop_dropWhile_ne _⟩

theorem equalsSigns_compact (line : String) :
    equalsSigns line = (compact line.toList).count '=' :=
  (List.count_filter (by decide)).symm

theorem outcome_parse_unplaced_eq {s t : String} (h : compact s.toList = compact t.toList) :
    (parse policy s).outcome.mapError SolveError.unplaced =
      (parse policy t).outcome.mapError SolveError.unplaced := by
  have left : compact (sides s).1.toList = compact (sides t).1.toList := by
    rw [(compact_sides s).1, (compact_sides t).1, h]
  have right : compact (sides s).2.toList = compact (sides t).2.toList := by
    rw [(compact_sides s).2, (compact_sides t).2, h]
  rw [outcome_parse, outcome_parse, equalsSigns_compact, equalsSigns_compact, h]
  split
  · simp only [mapError_evaluation_unplaced, mapError_bind, mapError_ok,
      outcome_evaluate_unplaced_eq left, outcome_evaluate_unplaced_eq right]
  · rfl

end Equation

theorem outcome_solve_unplaced_eq {s t : String} (h : compact s.toList = compact t.toList) :
    (solve policy s).outcome.mapError SolveError.unplaced =
      (solve policy t).outcome.mapError SolveError.unplaced := by
  simp only [outcome_solve, mapError_bind, Equation.outcome_parse_unplaced_eq h,
    Equation.outcome_solve_unplaced]

/-- Where two texts differ in blanks only, they have tokens of the same kinds and with the same
texts, blanks aside, or the same character stops their lexing. They evaluate to the same value, and
as lines they have the same solution, or the errors differ in nothing but places. -/
theorem outcomes_eq_of_compact_eq {s t : String} (h : compact s.toList = compact t.toList)
    (policy : DivisionPolicy) :
    ((∃ us ws, Token.tokenize s = .ok us ∧ Token.tokenize t = .ok ws ∧
          us.map Token.kind = ws.map Token.kind ∧
          us.map Token.compactText = ws.map Token.compactText) ∨
        ∃ c i j, Token.tokenize s = .error (.unsupported c i) ∧
          Token.tokenize t = .error (.unsupported c j)) ∧
      (evaluate policy s).outcome.mapError EvalError.unplaced =
        (evaluate policy t).outcome.mapError EvalError.unplaced ∧
      (solve policy s).outcome.mapError SolveError.unplaced =
        (solve policy t).outcome.mapError SolveError.unplaced :=
  ⟨tokenize_eq h, outcome_evaluate_unplaced_eq h, outcome_solve_unplaced_eq h⟩

theorem outcomes_eq_minus_twelve_unknown :
    compact "- 1 2 x =\u00a03".toList = compact "-12x=3".toList ∧
      (evaluate .reject "- 1 2 x =\u00a03").outcome.mapError EvalError.unplaced =
        .error (.read (.unsupported '=' 0)) ∧
      (solve .reject "- 1 2 x =\u00a03").outcome.mapError SolveError.unplaced =
        .ok (.fraction (-1) 4) := by
  have text : compact "- 1 2 x =\u00a03".toList = compact "-12x=3".toList := by decide
  obtain ⟨-, evaluated, solved⟩ := outcomes_eq_of_compact_eq text .reject
  exact ⟨text, evaluated.trans (by decide +kernel), solved.trans (by decide +kernel)⟩

end OneUnknown
