import OneUnknown.Proofs.Grammar
import OneUnknown.Proofs.Printing

/-!
# Parentheses

What stands in parentheses is evaluated on its own. The stacks below an open parenthesis are never
touched before it is closed (`Stacks.read_above`), the signs after it are settled as at the start of
a text, and no minus sign is attached across a parenthesis. So a text in parentheses with a value
may be replaced by any other with the same value whatever stands around it, derived by the grammar
or not (`outcome_evaluate_paren_toString` for the printed value).
-/

namespace OneUnknown

open OneUnknown.Symbol Text Token

variable {policy : DivisionPolicy}

/-! ### Stacks above an open parenthesis -/

theorem Operator.outcome_applyTo_append {operator : Operator} {operands operands' : List Linear}
    (h : (operator.applyTo policy operands).outcome = .ok operands') (below : List Linear) :
    (operator.applyTo policy (operands ++ below)).outcome = .ok (operands' ++ below) := by
  obtain ⟨_, _, rest, rfl, rfl, result, rfl⟩ | ⟨_, _, _, _, rest, rfl, rfl, result, rfl⟩ :=
    applyTo_cases h
  · rw [List.cons_append, outcome_applyTo_negate, result]
    rfl
  · rw [List.cons_append, List.cons_append, outcome_applyTo_binary, result]
    rfl

namespace Stacks

/-- The stacks with an open parenthesis and the stacks `below` it under them. -/
def above (s below : Stacks) : Stacks :=
  ⟨s.operands ++ below.operands, s.operators ++ .openParen :: below.operators⟩

variable {s t : Stacks}

theorem settle_above {least : Nat} (h : settle policy least s = .ok t) (below : Stacks) :
    settle policy least (s.above below) = .ok (t.above below) := by
  induction h using settle_induction with
  | stop operands waiting blocks =>
    refine settle_of_blocks policy ?_ _
    match waiting with
    | [] | .openParen :: _ => trivial
    | .operator _ :: _ => exact blocks
  | apply o operands operands' waiting t reached applied _ _ ih =>
    rw [above, List.cons_append, settle_of_le policy reached,
      Operator.outcome_applyTo_append applied, ok_bind]
    exact ih

/-- A parenthesis that is closed above is not the one below. -/
theorem close_above (h : close s = .ok t) (below : Stacks) :
    close (s.above below) = .ok (t.above below) := by
  rw [close_eq_ok_iff.1 h]
  rfl

/-- A symbol that can be read on its own touches nothing below an open parenthesis. -/
theorem step_above {u : Symbol} (h : (step policy s u).outcome = .ok t) (below : Stacks) :
    (step policy (s.above below) u).outcome = .ok (t.above below) := by
  match u with
  | .literal negated number =>
    rw [outcome_step_literal] at h ⊢
    obtain ⟨value, literal, same⟩ := bind_eq_ok_iff.1 h
    cases same
    rw [literal]
    rfl
  | .openParen =>
    rw [outcome_step_openParen] at h ⊢
    cases h
    rfl
  | .closeParen =>
    rw [outcome_step_closeParen] at h ⊢
    obtain ⟨s₁, settled, closed⟩ := bind_eq_ok_iff.1 h
    rw [settle_above settled, ok_bind, close_above closed]
  | .operator .negate =>
    rw [outcome_step_negate] at h ⊢
    cases h
    rfl
  | .operator (.binary op) =>
    rw [outcome_step_binary] at h ⊢
    obtain ⟨s₁, settled, same⟩ := bind_eq_ok_iff.1 h
    cases same
    rw [settle_above settled]
    rfl

theorem read_above {us : List Symbol} (h : read policy s us = .ok t) (below : Stacks) :
    read policy (s.above below) us = .ok (t.above below) := by
  induction us generalizing s with
  | nil =>
    cases h
    rfl
  | cons u us ih =>
    rw [read_cons] at h ⊢
    obtain ⟨s', stepped, rest⟩ := bind_eq_ok_iff.1 h
    rw [step_above stepped, ok_bind]
    exact ih rest

/-- Symbols in parentheses push the value they have on their own. -/
theorem read_paren {us : List Symbol} {v : Linear}
    (h : (evaluateSymbols policy us).outcome = .ok v) (s : Stacks) (rest : List Symbol) :
    read policy s (.openParen :: (us ++ .closeParen :: rest)) =
      read policy ⟨v :: s.operands, s.operators⟩ rest := by
  rw [outcome_evaluateSymbols] at h
  obtain ⟨s₁, reading, h⟩ := bind_eq_ok_iff.1 h
  obtain ⟨s₂, settled, final⟩ := bind_eq_ok_iff.1 h
  have inside := read_above reading s
  have outside := settle_above settled s
  rw [result_eq_ok_iff.1 final] at outside
  rw [read_openParen, read_append]
  change read policy (Stacks.empty.above s) us >>= _ = _
  rw [inside, ok_bind, read_closeParen, outside, ok_bind]
  rfl

end Stacks

/-! ### Tokens around parentheses -/

/-- The token is a parenthesis. -/
def Token.IsParen (t : Token) : Prop := t.kind = .openParen ∨ t.kind = .closeParen

namespace Token

variable {t : Token} (paren : t.IsParen) (ts : List Token)
include paren

theorem settleSigns_cons_paren (place : Place) :
    settleSigns place (t :: ts) = t :: settleSigns t.kind.placeAfter ts := by
  obtain ⟨kind, text, span⟩ := t
  rcases paren with opened | closed
  · obtain rfl : kind = .openParen := opened
    cases place <;> rfl
  · obtain rfl : kind = .closeParen := closed
    cases place <;> rfl

/-- A parenthesis settles the place of what follows it, whatever stands before. -/
theorem settleSigns_append_paren (place : Place) (us : List Token) :
    settleSigns place (us ++ t :: ts) =
      settleSigns place us ++ t :: settleSigns t.kind.placeAfter ts := by
  induction place, us using settleSigns.induct with
  | case1 place => exact settleSigns_cons_paren paren ts place
  | case2 u us kind ih | case3 u us kind ih | case4 u us kind ih | case5 u us kind ih =>
    simp [settleSigns, kind, ih]
  | case6 place u us _ _ _ _ ih => simp [settleSigns, ih]

end Token

namespace Symbol

/-- Only the next symbol matters to a sign. -/
theorem attach_append (u w : Symbol) (rest ws : List Symbol) :
    attach u (w :: rest ++ ws) = attach u (w :: rest) ++ ws := by
  match w with
  | .operator _ | .openParen | .closeParen | .literal true _ | .literal false _ =>
    rcases u with _ | (op | _) | _ | _
    case operator.binary => cases op <;> rfl
    all_goals rfl

/-- No sign is attached across a symbol that is not a number. -/
theorem foldr_attach_append {w : Symbol} (other : ∀ n, w ≠ .literal false n) (us ws : List Symbol) :
    us.foldr attach (w :: ws) = us.foldr attach [] ++ w :: ws := by
  induction us with
  | nil => rfl
  | cons u us ih =>
    rw [List.foldr_cons, List.foldr_cons, ih]
    cases us.foldr attach [] with
    | nil => rw [List.nil_append, Expr.attach_of_ne other, attach_nil, List.singleton_append]
    | cons u' rest => exact attach_append u u' rest (w :: ws)

theorem ofToken_ne_literal {t : Token} (paren : t.IsParen) (n : Token) :
    ofToken t ≠ .literal false n := by
  rcases paren with kind | kind <;> simp [ofToken, kind]

theorem ofTokens_append_paren {t : Token} (paren : t.IsParen) (us ts : List Token) :
    ofTokens (us ++ t :: ts) = ofTokens us ++ ofToken t :: ofTokens ts := by
  have map : ∀ ts, ofTokens ts = (ts.map ofToken).foldr attach [] := fun ts =>
    List.foldr_map.symm
  have alone : attach (ofToken t) (ofTokens ts) = ofToken t :: ofTokens ts := by
    rcases paren with kind | kind <;> simp [ofToken, kind, attach]
  rw [map, List.map_append, List.foldr_append, List.map_cons, List.foldr_cons, ← map ts, alone,
    foldr_attach_append (ofToken_ne_literal paren), ← map us]

end Symbol

/-- Tokens in parentheses count for their value. -/
theorem outcome_evaluateTokens_paren {ts : List Token} (nonempty : ts ≠ []) {v : Linear}
    (value : (evaluateTokens policy (settleSigns .opening ts)).outcome = .ok v) {o c : Token}
    (opened : o.kind = .openParen) (closed : c.kind = .closeParen) (us ws : List Token) :
    (evaluateTokens policy (settleSigns .opening (us ++ o :: (ts ++ c :: ws)))).outcome =
      Stacks.read policy .empty (ofTokens (settleSigns .opening us)) >>= fun s =>
        Stacks.read policy ⟨v :: s.operands, s.operators⟩
          (ofTokens (settleSigns .operand ws)) >>= fun s =>
            Stacks.settle policy 0 s >>= Stacks.result := by
  rw [evaluateTokens_of_ne_nil (settleSigns_ne_nil nonempty)] at value
  rw [evaluateTokens_of_ne_nil (settleSigns_ne_nil (by simp)),
    settleSigns_append_paren (Or.inl opened), settleSigns_append_paren (Or.inr closed), opened,
    closed, ofTokens_append_paren (Or.inl opened), ofTokens_append_paren (Or.inr closed),
    outcome_evaluateSymbols, Stacks.read_append, bind_assoc]
  have symbolOpen : ofToken o = .openParen := by rw [ofToken, opened]
  have symbolClose : ofToken c = .closeParen := by rw [ofToken, closed]
  rw [symbolOpen, symbolClose]
  simp only [Kind.placeAfter, Stacks.read_paren value]

/-! ### Texts around parentheses -/

theorem exists_not_blank_iff {s : List Char} : (∃ c ∈ s, isBlank c = false) ↔ compact s ≠ [] := by
  simp [compact, List.filter_eq_nil_iff]

theorem splitNumber_append_of_other {c : Char} (other : ¬ Expr.IsNumberChar c)
    (blank : isBlank c = false) (s t : List Char) :
    splitNumber (s ++ c :: t) = ((splitNumber s).1, (splitNumber s).2 ++ c :: t) := by
  fun_induction splitNumber s with
  | case1 =>
    simp only [Expr.IsNumberChar, not_or] at other
    simp [splitNumber, other, blank]
  | case2 s => simp [splitNumber]
  | case3 d s unknown digit tail ih =>
    rw [List.cons_append, splitNumber, if_neg unknown, if_pos digit, ih]
  | case4 d s unknown digit blank tail none ih =>
    rw [List.cons_append, splitNumber, if_neg unknown, if_neg digit, if_pos blank, ih]
    exact if_pos none
  | case5 d s unknown digit blank tail some ih =>
    rw [List.cons_append, splitNumber, if_neg unknown, if_neg digit, if_pos blank, ih]
    exact if_neg some
  | case6 d s unknown digit blank =>
    rw [List.cons_append, splitNumber, if_neg unknown, if_neg digit, if_neg blank]

namespace Token

theorem strip_eq_ok_iff {x : Except ReadError (List Token)} {ts : List Token} :
    strip x = .ok ts ↔ ∃ us : List Token, us.map stripped = ts ∧ x = .ok us := by
  rw [strip, mapError_eq_ok_iff, map_eq_ok_iff]
  simp only [and_comm]

theorem strip_lex_start (start start' : Nat) (s : List Char) :
    strip (lex start s) = strip (lex start' s) := by
  rw [strip_lex_compact start 0, ← strip_lex_compact start' 0]

/-- A token that is a single character separates the tokens before and after it. -/
theorem strip_lex_append {c : Char} {kind : Kind} (known : Kind.ofChar? c = some kind)
    (start : Nat) (s t : List Char) :
    strip (lex start (s ++ c :: t)) =
      strip (lex 0 s) >>= fun us => strip (lex 0 t) >>= fun ws =>
        .ok (us ++ ⟨kind, .ofList [c], ⟨0, 0⟩⟩ :: ws) := by
  have kept : isBlank c = false := Kind.not_isBlank_of_ofChar? known
  have other : ¬ Expr.IsNumberChar c := Kind.not_isNumberChar_of_ofChar? known
  -- A token put before those of `s` is put before all.
  have put (u : Token) (x : Except ReadError (List Token)) :
      (u :: ·) <$> (x >>= fun us => strip (lex 0 t) >>= fun ws =>
          .ok (us ++ ⟨kind, .ofList [c], ⟨0, 0⟩⟩ :: ws)) =
        (u :: ·) <$> x >>= fun us => strip (lex 0 t) >>= fun ws =>
          .ok (us ++ ⟨kind, .ofList [c], ⟨0, 0⟩⟩ :: ws) := by
    cases x <;> cases strip (lex 0 t) <;> rfl
  induction start, s using lex.induct with
  | case1 start =>
    have single : compact [c] = [c] := compact_cons_of_not_blank kept []
    rw [List.nil_append, lex_cons_of_kind known, strip_cons, stripped_ofList, single, lex_nil,
      strip_lex_start _ 0]
    cases strip (lex 0 t) <;> rfl
  | case2 start d s blank ih =>
    rw [List.cons_append, lex_cons_of_blank blank, lex_cons_of_blank blank, ih, strip_lex_start 0]
  | case3 start d s blank number shorter parts stop =>
    rename_i ih
    rw [List.cons_append, lex_cons_of_number number, lex_cons_of_number number, ← List.cons_append,
      splitNumber_append_of_other other kept, strip_cons, strip_cons, stripped_ofList,
      stripped_ofList, strip_lex_start (0 + _) 0, ← put, ← ih]
  | case4 start d s blank number kind known stop =>
    rename_i ih
    rw [List.cons_append, lex_cons_of_kind known, lex_cons_of_kind known, strip_cons, strip_cons,
      stripped_ofList, stripped_ofList, strip_lex_start (0 + _) 0, ← put, ← ih]
  | case5 start d s blank number unknown =>
    have blank : isBlank d = false := by simpa using blank
    rw [List.cons_append, lex_cons_of_unknown blank number unknown,
      lex_cons_of_unknown blank number unknown]
    rfl

/-- A text with a part in parentheses. -/
theorem strip_lex_paren (p s q : List Char) :
    strip (lex 0 (p ++ '(' :: (s ++ ')' :: q))) =
      strip (lex 0 p) >>= fun us => strip (lex 0 s) >>= fun ts => strip (lex 0 q) >>= fun ws =>
        .ok (us ++ ⟨.openParen, .ofList ['('], ⟨0, 0⟩⟩ ::
          (ts ++ ⟨.closeParen, .ofList [')'], ⟨0, 0⟩⟩ :: ws)) := by
  rw [strip_lex_append Expr.ofChar?_openParen, strip_lex_append Expr.ofChar?_closeParen]
  simp only [bind_assoc, ok_bind]

end Token

/-- The stripped tokens of a text with a value. -/
theorem exists_tokens_of_outcome_evaluate {s : String} {v : Linear}
    (nonblank : ∃ c ∈ s.toList, isBlank c = false) (value : (evaluate policy s).outcome = .ok v) :
    ∃ ts, strip (lex 0 s.toList) = .ok ts ∧ ts ≠ [] ∧
      (evaluateTokens policy (settleSigns .opening ts)).outcome = .ok v := by
  have unplaced : (evaluate policy s).outcome.mapError EvalError.unplaced = _ :=
    outcome_evaluate_unplaced s
  rw [value, mapError_ok] at unplaced
  obtain ⟨ts, lexed, result⟩ := bind_eq_ok_iff.1 unplaced.symm
  rw [mapError_eq_ok_iff] at lexed
  refine ⟨ts, lexed, ?_, result⟩
  rintro rfl
  obtain ⟨us, same, lexed⟩ := strip_eq_ok_iff.1 lexed
  obtain rfl := List.map_eq_nil_iff.1 same
  exact exists_not_blank_iff.1 nonblank (isLexed_of_lex lexed).text.symm

/-- What stands around a text in parentheses sees its value only. -/
theorem outcome_evaluate_paren {s : String} {v : Linear}
    (nonblank : ∃ c ∈ s.toList, isBlank c = false) (value : (evaluate policy s).outcome = .ok v)
    (p q : String) :
    (evaluate policy (p ++ "(" ++ s ++ ")" ++ q)).outcome.mapError EvalError.unplaced =
      (strip (lex 0 p.toList)).mapError .read >>= fun us =>
        (strip (lex 0 q.toList)).mapError .read >>= fun ws =>
          Stacks.read policy .empty (ofTokens (settleSigns .opening us)) >>= fun s =>
            Stacks.read policy ⟨v :: s.operands, s.operators⟩
              (ofTokens (settleSigns .operand ws)) >>= fun s =>
                Stacks.settle policy 0 s >>= Stacks.result := by
  obtain ⟨ts, lexed, nonempty, value⟩ := exists_tokens_of_outcome_evaluate nonblank value
  have text : (p ++ "(" ++ s ++ ")" ++ q).toList =
      p.toList ++ '(' :: (s.toList ++ ')' :: q.toList) := by
    simp
  rw [outcome_evaluate_unplaced, text, strip_lex_paren, lexed]
  simp only [ok_bind, mapError_bind, mapError_ok, bind_assoc]
  congr 1
  funext us
  congr 1
  funext ws
  exact outcome_evaluateTokens_paren nonempty value rfl rfl us ws

theorem Expr.spelling_ne_nil {p : Phrase} (e : Expr p)
    (numerals : ∀ n ∈ e.numbers, IsNumeral n.compactText) : e.spelling ≠ [] := by
  induction e with
  | number literal => exact (numerals literal List.mem_cons_self).ne_nil
  | paren | signed | leading => exact List.cons_ne_nil _ _
  | bare operand ih | single operand ih | first operand ih => exact ih numerals
  | scaled | added => exact List.append_ne_nil_of_right_ne_nil _ (List.cons_ne_nil _ _)

theorem Linear.exists_not_blank_toString (p : Linear) :
    ∃ c ∈ p.toString.toList, isBlank c = false := by
  rw [exists_not_blank_iff, ← p.spelling_toExpr]
  exact p.toExpr.spelling_ne_nil p.wellFormed_toExpr.2

/-- A text with a value may be replaced by the printed value wherever it stands in parentheses: the
outcome is the same up to places, whether or not the grammar derives what stands around them. -/
theorem outcome_evaluate_paren_toString {s : String} {v : Linear}
    (nonblank : ∃ c ∈ s.toList, isBlank c = false) (value : (evaluate policy s).outcome = .ok v)
    (p q : String) :
    (evaluate policy (p ++ "(" ++ s ++ ")" ++ q)).outcome.mapError EvalError.unplaced =
      (evaluate policy (p ++ "(" ++ v.toString ++ ")" ++ q)).outcome.mapError
        EvalError.unplaced := by
  rw [outcome_evaluate_paren nonblank value, outcome_evaluate_paren v.exists_not_blank_toString
    (Linear.outcome_evaluate_of_compact_eq rfl)]

theorem outcome_evaluate_paren_unknown_two_plus :
    (∃ c ∈ "x 2 +".toList, isBlank c = false) ∧
      (evaluate .truncate "x 2 +").outcome = .ok ⟨1, 2⟩ ∧
      (evaluate .truncate ("2*" ++ "(" ++ "x 2 +" ++ ")" ++ "- 9")).outcome.mapError
        EvalError.unplaced = .ok ⟨2, -5⟩ := by
  have nonblank : ∃ c ∈ "x 2 +".toList, isBlank c = false := ⟨'x', by decide, by decide⟩
  have value : (evaluate .truncate "x 2 +").outcome = .ok ⟨1, 2⟩ := by decide +kernel
  refine ⟨nonblank, value, ?_⟩
  exact (outcome_evaluate_paren_toString nonblank value "2*" "- 9").trans (by decide +kernel)

end OneUnknown
