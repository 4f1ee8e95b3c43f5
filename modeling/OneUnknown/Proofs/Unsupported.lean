import OneUnknown.Proofs.Messages

/-!
# Unsupported characters

A side may contain blanks, digits and seven other characters. The lexing of a text ends with an
error exactly if there is another character in it, and the error names the first one and its byte
(`lex_eq_unsupported_iff`). As a side is lexed to its end before anything of it is evaluated, such a
character outranks all other errors of the side; and as the right side is not looked at before the
left one has a value, each error of the left side outranks all errors of the right one
(`outcome_solve_eq_unsupported_iff`).
-/

namespace OneUnknown

open Text Token

/-- A character that a side may contain. -/
def IsSupported (c : Char) : Prop :=
  isBlank c ∨ c.isDigit ∨ c ∈ ['x', '(', ')', '+', '-', '*', '/']

instance (c : Char) : Decidable (IsSupported c) := inferInstanceAs (Decidable (_ ∨ _ ∨ _))

/-- In a text that starts at byte `start`, the first character that no side may contain is `c`, at
byte `index`. -/
def FirstUnsupported (start : Nat) (s : List Char) (c : Char) (index : Nat) : Prop :=
  ∃ front back, s = front ++ c :: back ∧ (∀ d ∈ front, IsSupported d) ∧ ¬ IsSupported c ∧
    index = start + utf8Length front

/-! ### Characters -/

theorem IsSupported.of_isNumberChar {c : Char} (h : Expr.IsNumberChar c) : IsSupported c := by
  rcases h with digit | rfl
  · exact Or.inr (Or.inl digit)
  · decide

theorem isSupported_of_ofChar? {c : Char} {kind : Kind} (h : Kind.ofChar? c = some kind) :
    IsSupported c := by
  unfold Kind.ofChar? at h
  split at h
  case h_7 => cases h
  all_goals decide

theorem not_isSupported {c : Char} (blank : isBlank c = false) (number : ¬ Expr.IsNumberChar c)
    (unknown : Kind.ofChar? c = none) : ¬ IsSupported c := by
  rintro (blank' | digit | other)
  · rw [blank] at blank'
    cases blank'
  · exact number (Or.inl digit)
  · simp only [List.mem_cons, List.not_mem_nil, or_false] at other
    rcases other with rfl | rfl | rfl | rfl | rfl | rfl | rfl
    · exact number (Or.inr rfl)
    all_goals cases unknown

theorem isSupported_of_mem_splitNumber {s : List Char} {c : Char} (h : c ∈ (splitNumber s).1) :
    IsSupported c :=
  (isNumberChar_or_isBlank_of_mem_splitNumber h).elim .of_isNumberChar Or.inl

/-! ### The first unsupported character -/

section First

variable {start index : Nat} {s : List Char} {c d : Char}

theorem not_firstUnsupported_nil : ¬ FirstUnsupported start [] c index := by
  rintro ⟨front, back, text, -⟩
  exact List.append_ne_nil_of_right_ne_nil front (List.cons_ne_nil c back) text.symm

theorem firstUnsupported_cons (h : IsSupported d) :
    FirstUnsupported start (d :: s) c index ↔
      FirstUnsupported (start + d.utf8Size) s c index := by
  constructor
  · rintro ⟨_ | ⟨e, front⟩, back, text, supported, other, place⟩
    · obtain ⟨rfl, -⟩ := List.cons.inj text
      exact absurd h other
    · obtain ⟨rfl, rest⟩ := List.cons.inj text
      refine ⟨front, back, rest, (List.forall_mem_cons.1 supported).2, other, ?_⟩
      rw [place, utf8Length_cons, Nat.add_assoc]
  · rintro ⟨front, back, rfl, supported, other, place⟩
    refine ⟨d :: front, back, rfl, List.forall_mem_cons.2 ⟨h, supported⟩, other, ?_⟩
    rw [place, utf8Length_cons, Nat.add_assoc]

theorem firstUnsupported_append {front : List Char} (h : ∀ d ∈ front, IsSupported d) :
    FirstUnsupported start (front ++ s) c index ↔
      FirstUnsupported (start + utf8Length front) s c index := by
  induction front generalizing start with
  | nil => rfl
  | cons d front ih =>
    obtain ⟨first, rest⟩ := List.forall_mem_cons.1 h
    rw [List.cons_append, firstUnsupported_cons first, ih rest, utf8Length_cons, Nat.add_assoc]

theorem firstUnsupported_cons_of_not (h : ¬ IsSupported d) :
    FirstUnsupported start (d :: s) c index ↔ d = c ∧ start = index := by
  constructor
  · rintro ⟨_ | ⟨e, front⟩, back, text, supported, other, place⟩
    · exact ⟨(List.cons.inj text).1, place.symm⟩
    · obtain ⟨rfl, -⟩ := List.cons.inj text
      exact absurd (List.forall_mem_cons.1 supported).1 h
  · rintro ⟨rfl, rfl⟩
    exact ⟨[], s, rfl, by simp, h, rfl⟩

end First

/-! ### Texts -/

/-- Lexing stops at the first character that is not supported. -/
theorem lex_eq_unsupported_iff {start : Nat} {s : List Char} {c : Char} {index : Nat} :
    lex start s = .error (.unsupported c index) ↔ FirstUnsupported start s c index := by
  induction start, s using lex.induct with
  | case1 start =>
    simp [lex_nil, not_firstUnsupported_nil]
  | case2 start d s blank ih =>
    rw [lex_cons_of_blank blank, firstUnsupported_cons (Or.inl blank)]
    exact ih
  | case3 start d s blank number shorter parts stop =>
    rename_i ih
    have supported : ∀ e ∈ (splitNumber (d :: s)).1, IsSupported e :=
      fun _ => isSupported_of_mem_splitNumber
    rw [lex_cons_of_number number, map_eq_error_iff, ← splitNumber_append (d :: s),
      firstUnsupported_append supported, splitNumber_append]
    exact ih
  | case4 start d s blank number kind known stop =>
    rename_i ih
    rw [lex_cons_of_kind known, map_eq_error_iff,
      firstUnsupported_cons (isSupported_of_ofChar? known)]
    exact ih
  | case5 start d s blank number unknown =>
    have kept : isBlank d = false := by simpa using blank
    rw [lex_cons_of_unknown kept number unknown,
      firstUnsupported_cons_of_not (not_isSupported kept number unknown)]
    simp

/-! ### Sides and lines -/

variable {policy : DivisionPolicy} {c : Char} {index : Nat}

theorem Token.word_ne_unsupported (negated : Bool) (t : Token) (numeral : List Char) :
    t.word negated numeral ≠ .error (.unsupported c index) := by
  unfold word
  cases (integer? numeral).bind Word.ofInt? <;> exact nofun

theorem Token.literal_ne_unsupported (negated : Bool) (t : Token) :
    t.literal negated ≠ .error (.unsupported c index) := by
  unfold literal
  dsimp only
  split <;> exact mt map_eq_error_iff.1 (word_ne_unsupported _ _ _)

theorem outcome_evaluateTokens_ne_unsupported (ts : List Token) :
    (evaluateTokens policy ts).outcome ≠ .error (.read (.unsupported c index)) := by
  by_cases none : ts = []
  · subst none
    exact nofun
  · intro h
    rw [evaluateTokens_of_ne_nil none] at h
    obtain ⟨negated, number, -, failed⟩ := exists_literal_of_outcome_evaluateSymbols h
    exact number.literal_ne_unsupported negated failed

/-- An unsupported character outranks all other errors of a side. -/
theorem outcome_evaluate_eq_unsupported_iff {source : String} :
    (evaluate policy source).outcome = .error (.read (.unsupported c index)) ↔
      FirstUnsupported 0 source.toList c index := by
  rw [← lex_eq_unsupported_iff, outcome_evaluate, bind_eq_error_iff, mapError_eq_error_iff]
  constructor
  · rintro (⟨cause, failed, same⟩ | ⟨ts, -, h⟩)
    · rw [failed, EvalError.read.inj same]
    · exact absurd h (outcome_evaluateTokens_ne_unsupported _)
  · intro failed
    exact Or.inl ⟨_, failed, rfl⟩

theorem outcome_solve_append {l r : String} (left : '=' ∉ l.toList) (right : '=' ∉ r.toList) :
    (solve policy (l ++ "=" ++ r)).outcome =
      ((evaluate policy l).outcome >>= fun a => (evaluate policy r).outcome >>= fun b =>
        .ok (Equation.mk a b)).mapError .evaluation >>= fun e => e.solve.outcome := by
  rw [outcome_solve, Equation.outcome_parse_append left right]

/-- An error of the left side outranks all errors of the right one. -/
theorem outcome_solve_of_left {l r : String} (left : '=' ∉ l.toList) (right : '=' ∉ r.toList)
    {e : EvalError} (h : (evaluate policy l).outcome = .error e) :
    (solve policy (l ++ "=" ++ r)).outcome = .error (.evaluation e) := by
  rw [outcome_solve_append left right, h]
  rfl

theorem outcome_solve_append_eq_read_iff {l r : String} (left : '=' ∉ l.toList)
    (right : '=' ∉ r.toList) {cause : ReadError} :
    (solve policy (l ++ "=" ++ r)).outcome = .error (.evaluation (.read cause)) ↔
      (evaluate policy l).outcome = .error (.read cause) ∨
        (∃ v, (evaluate policy l).outcome = .ok v) ∧
          (evaluate policy r).outcome = .error (.read cause) := by
  rw [outcome_solve_append left right, bind_eq_error_iff]
  constructor
  · rintro (failed | ⟨e, -, failed⟩)
    · obtain ⟨e, failed, same⟩ := mapError_eq_error_iff.1 failed
      obtain rfl := SolveError.evaluation.inj same
      obtain failed | ⟨v, value, failed⟩ := bind_eq_error_iff.1 failed
      · exact Or.inl failed
      · obtain failed | ⟨w, -, failed⟩ := bind_eq_error_iff.1 failed
        · exact Or.inr ⟨⟨v, value⟩, failed⟩
        · cases failed
    · cases Equation.eq_overflow_of_outcome_solve failed
  · rintro (failed | ⟨⟨v, value⟩, failed⟩)
    · exact Or.inl (by rw [failed]; rfl)
    · exact Or.inl (by rw [value, ok_bind, failed]; rfl)

/-- A line with one equals sign ends with the error of an unsupported character exactly if it is the
first one of the left side, or the left side has a value and it is the first one of the right side.
Each side with such a character ends with the error of the first one, whatever else is wrong with
it, and each error of the left side is that of the line. -/
theorem outcome_solve_eq_unsupported_iff {line : String} (one : Equation.equalsSigns line = 1) :
    ∃ l r, line = l ++ "=" ++ r ∧ '=' ∉ l.toList ∧ '=' ∉ r.toList ∧
      ∀ options : Options,
        (∀ c index,
          (solve options.policy line).outcome =
              .error (.evaluation (.read (.unsupported c index))) ↔
            FirstUnsupported 0 l.toList c index ∨
              (∃ v, (evaluate options.policy l).outcome = .ok v) ∧
                FirstUnsupported 0 r.toList c index) ∧
        (∀ side ∈ [l, r], ∀ c index, FirstUnsupported 0 side.toList c index →
          (evaluate options.policy side).outcome = .error (.read (.unsupported c index))) ∧
        ∀ e, (evaluate options.policy l).outcome = .error e →
          (solve options.policy line).outcome = .error (.evaluation e) := by
  obtain ⟨l, r, rfl, left, right⟩ := Equation.exists_sides one
  refine ⟨l, r, rfl, left, right, fun options => ⟨fun c index => ?_, ?_, fun e failed => ?_⟩⟩
  · rw [outcome_solve_append_eq_read_iff left right, outcome_evaluate_eq_unsupported_iff,
      outcome_evaluate_eq_unsupported_iff]
  · exact fun side _ c index => outcome_evaluate_eq_unsupported_iff.2
  · exact outcome_solve_of_left left right failed

/-- A digit of another script stands behind a blank of two bytes and parentheses that are not
closed. -/
theorem outcome_solve_of_foreign_digit :
    Equation.equalsSigns "x =\u00a01 ((\u0663" = 1 ∧
      FirstUnsupported 0 "\u00a01 ((\u0663".toList '\u0663' 6 ∧
      (solve .truncate "x =\u00a01 ((\u0663").outcome =
        .error (.evaluation (.read (.unsupported '\u0663' 6))) := by
  have one : Equation.equalsSigns "x =\u00a01 ((\u0663" = 1 := by decide
  have first : FirstUnsupported 0 "\u00a01 ((\u0663".toList '\u0663' 6 :=
    ⟨['\u00a0', '1', ' ', '(', '('], [], by decide, List.forall_iff_forall_mem.1 (by decide),
      by decide, by decide⟩
  obtain ⟨l, r, text, left, -, outcomes⟩ := outcome_solve_eq_unsupported_iff one
  have sides : Equation.sides (l ++ "=" ++ r) = ("x ", "\u00a01 ((\u0663") := by
    rw [← text]
    decide
  rw [Equation.sides_append left] at sides
  obtain ⟨rfl, rfl⟩ := Prod.mk.inj sides
  have value : (evaluate .truncate "x ").outcome = .ok .unknown := by decide +kernel
  exact ⟨one, first, ((outcomes {}).1 _ _).2 (Or.inr ⟨⟨_, value⟩, first⟩)⟩

end OneUnknown
