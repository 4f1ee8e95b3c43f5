import OneUnknown.Proofs.Signs

/-!
# The value of a text

A text that the grammar derives has a tree with its numbers at their places, and evaluating the
text ends with the value of that tree, or with the same error
(`outcome_evaluate_eq_value_of_writes`).
-/

namespace OneUnknown

open Token

variable {policy : DivisionPolicy}

theorem outcome_evaluate (policy : DivisionPolicy) (source : String) :
    (evaluate policy source).outcome =
      (lex 0 source.toList).mapError .read >>= fun ts =>
        (evaluateTokens policy (settleSigns .opening ts)).outcome := by
  simp only [evaluate, tokenize, Logged.outcome_bind, Logged.outcome_ofExcept,
    Logged.outcome_note, ok_bind, Logged.outcome_pure, bind_ok]
  cases lex 0 source.toList <;> rfl

theorem evaluateTokens_of_ne_nil {ts : List Token} (h : ts ≠ []) :
    evaluateTokens policy ts = evaluateSymbols policy (Symbol.ofTokens ts) :=
  if_neg h

theorem settleSigns_ne_nil {ts : List Token} (h : ts ≠ []) : settleSigns .opening ts ≠ [] := by
  obtain ⟨t, ts, rfl⟩ := List.exists_cons_of_ne_nil h
  unfold settleSigns
  split <;> simp_all

theorem outcome_evaluate_of_lex_eq_nil {source : String} (h : lex 0 source.toList = .ok []) :
    (evaluate policy source).outcome = .ok .zero := by
  rw [outcome_evaluate, h]
  simp [settleSigns, evaluateTokens]

theorem outcome_evaluate_of_lex {source : String} {ts : List Token} (nonempty : ts ≠ [])
    (h : lex 0 source.toList = .ok ts) :
    (evaluate policy source).outcome =
      (evaluateSymbols policy ((Symbol.settled .opening ts).foldr Symbol.attach [])).outcome := by
  rw [outcome_evaluate, h, mapError_ok, ok_bind,
    evaluateTokens_of_ne_nil (settleSigns_ne_nil nonempty), Symbol.ofTokens_settleSigns]

theorem Expr.Spells.ne_nil {p : Phrase} {e : Expr p} {ts : List Token} (h : Spells e ts) :
    ts ≠ [] := by
  induction h with
  | bare _ ih | single _ ih | first _ ih => exact ih
  | number | paren | signed | scaled | leading | added => simp

theorem outcome_evaluate_of_isParseOf {side : Side} {source : String}
    (h : side.IsParseOf source) (policy : DivisionPolicy) :
    (evaluate policy source).outcome = side.value policy := by
  match side with
  | .blank => exact outcome_evaluate_of_lex_eq_nil (lex_of_compact_eq_nil h 0)
  | .sum e =>
    obtain ⟨ts, lexed, spells⟩ := Expr.IsParseOf.exists_spells h
    obtain ⟨us, settles, text⟩ := spells.settles h.1.1 []
    obtain ⟨ws, fold, yields, -⟩ := settles.attached policy
    rw [List.append_nil, Phrase.place, Symbol.settled_nil, List.append_nil] at text
    rw [outcome_evaluate_of_lex spells.ne_nil lexed, text, fold, List.append_nil]
    exact outcome_evaluateSymbols_of_yields yields

/-- A text that is blank or derived by the grammar has a tree with its numbers at their places, and
its evaluation ends with the value that words give every such tree, or with the same error. -/
theorem outcome_evaluate_eq_value_of_writes {source : String}
    (h : ∃ side : Side, side.Writes source) :
    (∃ side : Side, side.IsParseOf source) ∧
      ∀ (side : Side) (policy : DivisionPolicy), side.IsParseOf source →
        (evaluate policy source).outcome = side.value policy := by
  obtain ⟨side, writes⟩ := h
  obtain ⟨side', parse, -⟩ := writes.exists_isParseOf
  exact ⟨⟨side', parse⟩, fun _ policy parse => outcome_evaluate_of_isParseOf parse policy⟩

/-- The tree of `2 - 3*x`. -/
def twoMinusThreeUnknown : Expr .sum :=
  .added (.first (.single (.bare (.number ⟨.number, .ofList ['2'], ⟨0, 1⟩⟩)))) .minus
    (.scaled (.single (.bare (.number ⟨.number, .ofList ['3'], ⟨4, 5⟩⟩))) .times
      (.bare (.number ⟨.number, .ofList ['x'], ⟨6, 7⟩⟩)))

theorem isParseOf_twoMinusThreeUnknown : twoMinusThreeUnknown.IsParseOf "2 - 3*x" := by
  refine ⟨by decide, by decide, ?_⟩
  have third := @Expr.Placed.cons 5 ['*'] ['x'] [] _ (by simp [Expr.IsNumberChar])
    ⟨'x', rfl, by decide⟩ ⟨'x', rfl, by decide⟩ (.nil (by simp))
  have second := @Expr.Placed.cons 1 [' ', '-', ' '] ['3'] _ _ (by simp [Expr.IsNumberChar])
    ⟨'3', rfl, by decide⟩ ⟨'3', rfl, by decide⟩ third
  exact @Expr.Placed.cons 0 [] ['2'] _ _ (by simp) ⟨'2', rfl, by decide⟩ ⟨'2', rfl, by decide⟩
    second

theorem outcome_evaluate_two_minus_three_unknown :
    (Side.sum twoMinusThreeUnknown).IsParseOf "2 - 3*x" ∧
      (evaluate .reject "2 - 3*x").outcome = .ok ⟨-3, 2⟩ := by
  have parse : (Side.sum twoMinusThreeUnknown).IsParseOf "2 - 3*x" := isParseOf_twoMinusThreeUnknown
  have writes : (Side.sum twoMinusThreeUnknown).Writes "2 - 3*x" := ⟨parse.1, parse.2.1⟩
  refine ⟨parse, ?_⟩
  rw [(outcome_evaluate_eq_value_of_writes ⟨_, writes⟩).2 _ .reject parse]
  decide +kernel

end OneUnknown
