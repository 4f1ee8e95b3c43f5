import OneUnknown.Proofs.Balance
import OneUnknown.Proofs.Evaluation

/-!
# The texts that have a value

Only counts are checked by the two stacks, and not for each parenthesis but at the end: `x 2 +` has
the value `x + 2` and `x(2*)` the value `2x`, although both are malformed. This file shows that
counts are enough where no two operands stand side by side. In such a text every operand adds one to
the surplus and the operator or parenthesis after it is where it should be, or the surplus ends
below one (`fitsIfBalanced_of_apart`); and tokens that each fit behind the one before are those of a
sum (`Expr.exists_spells_of_fits`). In a text of the grammar no two operands stand side by side
(`Side.Writes.not_juxtaposed`). So it is exactly these texts with a value that the grammar does not
derive (`exists_writes_iff_of_outcome_evaluate`).
-/

namespace OneUnknown

open OneUnknown.Symbol Token

/-! ### Operands side by side -/

/-- The characters end an operand and begin another one. Digits on both sides are one number. -/
def Adjoins (c d : Char) : Prop :=
  (c = 'x' ∨ c = ')') ∧ Expr.IsNumberChar d ∨ (Expr.IsNumberChar c ∨ c = ')') ∧ d = '('

/-- Two operands stand side by side in a text, blanks aside. -/
def Juxtaposed (source : String) : Prop :=
  ∃ c d, [c, d] <:+: Text.compact source.toList ∧ Adjoins c d

theorem juxtaposed_iff {source : String} :
    Juxtaposed source ↔ ¬ (Text.compact source.toList).IsChain fun c d => ¬ Adjoins c d := by
  rw [List.isChain_iff_forall_rel_of_append_cons_cons]
  constructor
  · rintro ⟨c, d, ⟨front, back, text⟩, adjoins⟩ chain
    refine @chain c d front back ?_ adjoins
    rw [← text, List.append_assoc]
    rfl
  · intro broken
    by_contra alone
    refine broken fun c d front back text adjoins => alone ⟨c, d, ⟨front, back, ?_⟩, adjoins⟩
    rw [text, List.append_assoc]
    rfl

instance (c d : Char) : Decidable (Adjoins c d) := inferInstanceAs (Decidable (_ ∨ _))

instance (source : String) : Decidable (Juxtaposed source) := decidable_of_iff' _ juxtaposed_iff

/-- The second token does not begin an operand where the first one ends one. -/
def Apart (t u : Token) : Prop :=
  t.kind.placeAfter = .operand → u.kind ≠ .number ∧ u.kind ≠ .openParen

theorem exists_getLast?_of_isNumeral {s : List Char} (h : Expr.IsNumeral s) :
    ∃ front c, s = front ++ [c] ∧ Expr.IsNumberChar c := by
  have last := List.dropLast_append_getLast h.ne_nil
  exact ⟨_, _, last.symm, h.isNumberChar (List.getLast_mem h.ne_nil)⟩

/-- The last character of a token that ends an operand. -/
theorem Token.Shaped.exists_last {t : Token} (h : t.Shaped) (ends : t.kind.placeAfter = .operand) :
    ∃ front c, t.compactText = front ++ [c] ∧
      (t.kind = .number ∧ Expr.IsNumberChar c ∨ t.kind = .closeParen ∧ c = ')') := by
  unfold Shaped at h
  split at h
  · next kind =>
    obtain ⟨front, c, text, number⟩ := exists_getLast?_of_isNumeral h
    exact ⟨front, c, text, Or.inl ⟨kind, number⟩⟩
  · next kind =>
    rw [kind] at ends
    cases ends
  · next kind => exact ⟨[], ')', h, Or.inr ⟨kind, rfl⟩⟩
  · next kind =>
    rw [kind] at ends
    cases ends
  · exact h.elim

/-- The first character of a token that begins an operand. -/
theorem Token.Shaped.exists_first {t : Token} (h : t.Shaped)
    (begins : t.kind = .number ∨ t.kind = .openParen) :
    ∃ c back, t.compactText = c :: back ∧
      (t.kind = .number ∧ Expr.IsNumberChar c ∨ t.kind = .openParen ∧ c = '(') := by
  rcases begins with kind | kind
  · rw [Shaped, kind] at h
    obtain ⟨c, back, text, number⟩ := isNumberChar_of_isNumeral h
    exact ⟨c, back, text, Or.inl ⟨kind, number⟩⟩
  · rw [Shaped, kind] at h
    exact ⟨'(', [], h, Or.inr ⟨kind, rfl⟩⟩

/-- Tokens are apart if no two operands stand side by side in their text. -/
theorem Token.IsLexed.apart {s : List Char} {ts : List Token} (h : IsLexed s ts)
    (alone : ¬ ∃ c d, [c, d] <:+: Text.compact s ∧ Adjoins c d) : ts.IsChain Apart := by
  rw [← h.text] at alone
  have shaped := h.shaped
  have maximal := h.maximal
  clear h
  induction ts with
  | nil => exact .nil
  | cons t ts ih =>
    have later : ts.IsChain Apart := by
      refine ih (fun ⟨c, d, inside, adjoins⟩ => alone ⟨c, d, ?_, adjoins⟩)
        (fun u hu => shaped u (List.mem_cons_of_mem _ hu)) maximal.tail
      exact inside.trans (List.suffix_append _ _).isInfix
    match ts with
    | [] => exact .singleton t
    | u :: ts =>
      refine .cons_cons (fun ends => ?_) later
      by_contra begins
      have begins : u.kind = .number ∨ u.kind = .openParen := by
        by_contra other
        exact begins (not_or.1 other)
      obtain ⟨front, c, textLeft, left⟩ := (shaped t (by simp)).exists_last ends
      obtain ⟨d, back, textRight, right⟩ := (shaped u (by simp)).exists_first begins
      refine alone ⟨c, d, ⟨front, back ++ ts.flatMap compactText, ?_⟩, ?_⟩
      · simp [textLeft, textRight]
      · rcases left with ⟨number, char⟩ | ⟨-, rfl⟩
        · rcases right with ⟨number', char'⟩ | ⟨-, rfl⟩
          · have last := (List.isChain_cons_cons.1 maximal).1 number number'
            rw [textLeft, List.getLast?_concat, Option.some.injEq] at last
            exact Or.inl ⟨Or.inl last, char'⟩
          · exact Or.inr ⟨Or.inl char, rfl⟩
        · rcases right with ⟨-, char'⟩ | ⟨-, rfl⟩
          · exact Or.inl ⟨Or.inr rfl, char'⟩
          · exact Or.inr ⟨Or.inr rfl, rfl⟩

/-! ### Tokens that fit -/

/-- The tokens complete an expression from the given place on, in which `depth` parentheses are
open: each fits behind the one before. -/
inductive Fits : Place → Nat → List Token → Prop
  | done : Fits .operand 0 []
  | close {depth : Nat} {t : Token} {ts : List Token} (kind : t.kind = .closeParen)
    (rest : Fits .operand depth ts) : Fits .operand (depth + 1) (t :: ts)
  | binary {depth : Nat} {t : Token} {ts : List Token} {op : BinaryOp}
    (kind : t.kind = .operator (.binary op)) (rest : Fits .operator depth ts) :
    Fits .operand depth (t :: ts)
  | number {place : Place} {depth : Nat} {t : Token} {ts : List Token} (start : place ≠ .operand)
    (kind : t.kind = .number) (rest : Fits .operand depth ts) : Fits place depth (t :: ts)
  | openParen {place : Place} {depth : Nat} {t : Token} {ts : List Token}
    (start : place ≠ .operand) (kind : t.kind = .openParen)
    (rest : Fits .opening (depth + 1) ts) : Fits place depth (t :: ts)
  | sign {place : Place} {depth : Nat} {t : Token} {ts : List Token} {sign : Sign}
    (start : place ≠ .operand) (kind : t.kind = .operator (.binary sign.op))
    (rest : Fits .operator depth ts) : Fits place depth (t :: ts)

/-- What stands before a place adds to the operands. -/
def Place.operands : Place → Int
  | .operand => 1
  | .opening | .operator => 0

theorem Place.operands_of_ne {place : Place} (h : place ≠ .operand) : place.operands = 0 := by
  cases place with
  | operand => exact absurd rfl h
  | opening | operator => rfl

theorem BinaryOp.exists_sign_or_scale (op : BinaryOp) :
    (∃ sign : Sign, op = sign.op) ∨ ∃ scale : Scale, op = scale.op := by
  cases op with
  | plus => exact Or.inl ⟨.plus, rfl⟩
  | minus => exact Or.inl ⟨.minus, rfl⟩
  | times => exact Or.inr ⟨.times, rfl⟩
  | divide => exact Or.inr ⟨.divide, rfl⟩

theorem settled_operand_of_binary {t : Token} {op : BinaryOp}
    (kind : t.kind = .operator (.binary op)) (ts : List Token) :
    settled .operand (t :: ts) = .operator (.binary op) :: settled .operator ts := by
  rcases op.exists_sign_or_scale with ⟨sign, rfl⟩ | ⟨scale, rfl⟩
  · exact settled_operand_of_sign _ kind
  · exact settled_of_scale _ _ kind

/-- A sign where no operand stands before it changes neither count. -/
theorem balance_settled_of_sign {place : Place} (start : place ≠ .operand) {t : Token} {sign : Sign}
    (kind : t.kind = .operator (.binary sign.op)) (ts : List Token) (depth : Nat) :
    surplus (settled place (t :: ts)) = surplus (settled .operator ts) ∧
      nesting depth (settled place (t :: ts)) = nesting depth (settled .operator ts) := by
  cases place with
  | operand => exact absurd rfl start
  | opening =>
    rw [settled_opening_of_sign ts kind, surplus_cons, surplus_cons]
    simp only [weight, nesting, and_true]
    omega
  | operator =>
    cases sign with
    | plus =>
      rw [settled_operator_of_plus ts kind]
      exact ⟨rfl, rfl⟩
    | minus =>
      rw [settled_operator_of_minus ts kind]
      simp [weight, nesting]

/-- The tokens add at most one operand to what stands before the place, and if there is one then and
no open parenthesis, they fit. -/
def FitsIfBalanced (place : Place) (depth : Nat) (ts : List Token) : Prop :=
  place.operands + surplus (settled place ts) ≤ 1 ∧
    (place.operands + surplus (settled place ts) = 1 →
      nesting depth (settled place ts) = some 0 → Fits place depth ts)

namespace FitsIfBalanced

variable {place : Place} {depth : Nat} {t : Token} {ts : List Token}

theorem nil (place : Place) (depth : Nat) : FitsIfBalanced place depth [] := by
  rw [FitsIfBalanced, settled_nil, surplus_nil]
  cases place with
  | operand =>
    refine ⟨Int.le_refl 1, fun _ balanced => ?_⟩
    obtain rfl : depth = 0 := by simpa [nesting] using balanced
    exact .done
  | opening | operator => exact ⟨by decide, fun one => absurd one (by decide)⟩

theorem number (start : place ≠ .operand) (kind : t.kind = .number)
    (h : FitsIfBalanced .operand depth ts) : FitsIfBalanced place depth (t :: ts) := by
  obtain ⟨most, fits⟩ := h
  rw [FitsIfBalanced, settled_of_number _ _ kind, surplus_cons, Place.operands_of_ne start,
    Int.zero_add]
  exact ⟨most, fun one balanced => .number start kind (fits one balanced)⟩

theorem openParen (start : place ≠ .operand) (kind : t.kind = .openParen)
    (h : FitsIfBalanced .opening (depth + 1) ts) : FitsIfBalanced place depth (t :: ts) := by
  obtain ⟨most, fits⟩ := h
  rw [FitsIfBalanced, settled_of_openParen _ _ kind, surplus_cons, Place.operands_of_ne start]
  simp only [weight, nesting, Int.zero_add]
  simp only [Place.operands, Int.zero_add] at most fits
  exact ⟨most, fun one balanced => .openParen start kind (fits one balanced)⟩

/-- Where no operand stands before a closing parenthesis, the surplus ends below one. -/
theorem closeParen (kind : t.kind = .closeParen) (h : FitsIfBalanced .operand (depth - 1) ts) :
    FitsIfBalanced place depth (t :: ts) := by
  obtain ⟨most, fits⟩ := h
  rw [FitsIfBalanced, settled_of_closeParen _ _ kind, surplus_cons, weight, Int.zero_add]
  simp only [Place.operands] at most fits
  by_cases start : place = .operand
  · subst start
    refine ⟨most, fun one balanced => ?_⟩
    cases depth with
    | zero => cases balanced
    | succ depth => exact .close kind (fits one balanced)
  · rw [Place.operands_of_ne start]
    exact ⟨by omega, fun one => by omega⟩

/-- Where no operand stands before it, an operator is a sign, or the surplus ends below one. -/
theorem binary {op : BinaryOp} (kind : t.kind = .operator (.binary op))
    (h : FitsIfBalanced .operator depth ts) : FitsIfBalanced place depth (t :: ts) := by
  obtain ⟨most, fits⟩ := h
  simp only [Place.operands, Int.zero_add] at most fits
  by_cases start : place = .operand
  · subst start
    rw [FitsIfBalanced, settled_operand_of_binary kind, surplus_cons]
    simp only [Place.operands, weight, nesting]
    exact ⟨by omega, fun one balanced => .binary kind (fits (by omega) balanced)⟩
  · rw [FitsIfBalanced, Place.operands_of_ne start, Int.zero_add]
    rcases op.exists_sign_or_scale with ⟨sign, rfl⟩ | ⟨scale, rfl⟩
    · obtain ⟨sameSurplus, sameNesting⟩ := balance_settled_of_sign start kind ts depth
      rw [sameSurplus, sameNesting]
      exact ⟨most, fun one balanced => .sign start kind (fits one balanced)⟩
    · rw [settled_of_scale _ _ kind, surplus_cons, weight]
      exact ⟨by omega, fun one => by omega⟩

end FitsIfBalanced

/-- Tokens that are apart fit if their counts are balanced. -/
theorem fitsIfBalanced_of_apart {ts : List Token} (shaped : ∀ t ∈ ts, t.Shaped)
    (apart : ts.IsChain Apart) (place : Place)
    (enters : place = .operand → ∀ u ∈ ts.head?, u.kind ≠ .number ∧ u.kind ≠ .openParen)
    (depth : Nat) : FitsIfBalanced place depth ts := by
  induction ts generalizing place depth with
  | nil => exact .nil place depth
  | cons t ts ih =>
    have own := shaped t List.mem_cons_self
    obtain ⟨after, apart⟩ := List.isChain_cons.1 apart
    have ih := ih (fun u hu => shaped u (List.mem_cons_of_mem _ hu)) apart
    cases kind : t.kind with
    | number =>
      have start : place ≠ .operand := fun same => (enters same t rfl).1 kind
      have leaves : t.kind.placeAfter = .operand := by rw [kind]; rfl
      exact .number start kind (ih .operand (fun _ u hu => after u hu leaves) depth)
    | openParen =>
      have start : place ≠ .operand := fun same => (enters same t rfl).2 kind
      exact .openParen start kind (ih .opening (by simp) (depth + 1))
    | closeParen =>
      have leaves : t.kind.placeAfter = .operand := by rw [kind]; rfl
      exact .closeParen kind (ih .operand (fun _ u hu => after u hu leaves) (depth - 1))
    | operator operator =>
      cases operator with
      | negate =>
        rw [Shaped, kind] at own
        exact own.elim
      | binary op => exact .binary kind (ih .operator (by simp) depth)

/-! ### The tree of tokens that fit -/

namespace Expr

/-- A sum goes on with an operator and a factor. A scale belongs to its last term. -/
theorem Spells.extend {e : Expr .sum} {us : List Token} (h : Spells e us) (proper : e.Proper)
    {t : Token} {op : BinaryOp} (kind : t.kind = .operator (.binary op)) {f : Expr .factor}
    {ws : List Token} (right : Spells f ws) (properRight : f.Proper) :
    ∃ e' : Expr .sum, Spells e' (us ++ t :: ws) ∧ e'.Proper := by
  rcases op.exists_sign_or_scale with ⟨sign, rfl⟩ | ⟨scale, rfl⟩
  · exact ⟨.added e sign (.single f), .added h kind (.single right), proper, properRight⟩
  · cases h with
    | first term =>
      exact ⟨_, .first (.scaled term kind right), proper.1, proper.2, properRight⟩
    | leading front term =>
      exact ⟨_, .leading front (.scaled term kind right), proper, properRight⟩
    | @added _ _ ls rs s _ left front term =>
      rw [List.append_assoc]
      exact ⟨_, .added left front (.scaled term kind right), proper.1, proper.2, properRight⟩

/-- The tokens go on with any sum that stands before them. -/
def Completes (ts : List Token) : Prop :=
  ∀ {e : Expr .sum} {us : List Token}, Spells e us → e.Proper →
    ∃ e' : Expr .sum, Spells e' (us ++ ts) ∧ e'.Proper

/-- The tokens go on with the sums in all open parentheses. -/
def Closes : Nat → List Token → Prop
  | 0, ts => Completes ts
  | depth + 1, ts =>
    ∃ us c rest, ts = us ++ c :: rest ∧ Completes us ∧ c.kind = .closeParen ∧ Closes depth rest

theorem completes_nil : Completes [] := by
  intro e us h proper
  rw [List.append_nil]
  exact ⟨e, h, proper⟩

theorem Completes.cons {t : Token} {op : BinaryOp} (kind : t.kind = .operator (.binary op))
    {f : Expr .factor} {us ts : List Token} (right : Spells f us) (proper : f.Proper)
    (h : Completes ts) : Completes (t :: (us ++ ts)) := by
  intro e ws spells properLeft
  obtain ⟨e', spells', proper'⟩ := spells.extend properLeft kind right proper
  obtain ⟨e'', spells'', proper''⟩ := h spells' proper'
  rw [List.append_assoc] at spells''
  exact ⟨e'', spells'', proper''⟩

theorem Closes.cons {t : Token} {op : BinaryOp} (kind : t.kind = .operator (.binary op))
    {f : Expr .factor} {us : List Token} (right : Spells f us) (proper : f.Proper) {depth : Nat}
    {ts : List Token} (h : Closes depth ts) : Closes depth (t :: (us ++ ts)) := by
  cases depth with
  | zero => exact Completes.cons kind right proper h
  | succ depth =>
    obtain ⟨ws, c, rest, rfl, completes, closed, outer⟩ := h
    exact ⟨t :: (us ++ ws), c, rest, by simp, completes.cons kind right proper, closed, outer⟩

/-- The tokens begin with a phrase for the place they stand at, and go on with the sums in all open
parentheses. -/
def Continues : Place → Nat → List Token → Prop
  | .opening, depth, ts =>
    ∃ (e : Expr .sum) (us rest : List Token),
      ts = us ++ rest ∧ Spells e us ∧ e.Proper ∧ Closes depth rest
  | .operator, depth, ts =>
    ∃ (f : Expr .factor) (us rest : List Token),
      ts = us ++ rest ∧ Spells f us ∧ f.Proper ∧ Closes depth rest
  | .operand, depth, ts => Closes depth ts

/-- An unsigned factor is all that stands at either place. -/
theorem Continues.of_primary {place : Place} (start : place ≠ .operand) {e : Expr .primary}
    {us rest : List Token} (spells : Spells e us) (proper : e.Proper) {depth : Nat}
    (closes : Closes depth rest) : Continues place depth (us ++ rest) := by
  cases place with
  | operand => exact absurd rfl start
  | opening =>
    have unsigned : e.Unsigned := by cases e <;> trivial
    exact ⟨.first (.single (.bare e)), us, rest, rfl, .first (.single (.bare spells)),
      ⟨unsigned, proper⟩, closes⟩
  | operator => exact ⟨.bare e, us, rest, rfl, .bare spells, proper, closes⟩

theorem continues_of_fits {place : Place} {depth : Nat} {ts : List Token}
    (h : Fits place depth ts) : Continues place depth ts := by
  induction h with
  | done => exact completes_nil
  | @close depth t ts kind _ ih => exact ⟨[], t, ts, rfl, completes_nil, kind, ih⟩
  | binary kind _ ih =>
    obtain ⟨f, us, rest, rfl, spells, proper, closes⟩ := ih
    exact closes.cons kind spells proper
  | number start kind _ ih => exact Continues.of_primary start (.number kind) trivial ih
  | @openParen place depth t ts start kind _ ih =>
    obtain ⟨e, us, rest, rfl, spells, proper, ws, c, rest', rfl, completes, closed, closes⟩ := ih
    obtain ⟨e', spells', proper'⟩ := completes spells proper
    have paren : Spells (.paren e') (t :: (us ++ ws) ++ [c]) := .paren kind spells' closed
    have whole := Continues.of_primary start paren proper' closes
    simpa using whole
  | @sign place depth t ts sign start kind _ ih =>
    obtain ⟨f, us, rest, rfl, spells, proper, closes⟩ := ih
    cases place with
    | operand => exact absurd rfl start
    | opening =>
      exact ⟨.leading sign (.single f), t :: us, rest, rfl, .leading kind (.single spells), proper,
        closes⟩
    | operator => exact ⟨.signed sign f, t :: us, rest, rfl, .signed kind spells, proper, closes⟩

/-- Tokens that fit from the start on are those of a sum. -/
theorem exists_spells_of_fits {ts : List Token} (h : Fits .opening 0 ts) :
    ∃ e : Expr .sum, Spells e ts ∧ e.Proper := by
  obtain ⟨e, us, rest, rfl, spells, proper, completes⟩ := continues_of_fits h
  exact completes spells proper

end Expr

/-! ### Texts that have a value -/

/-- Balanced tokens are those of a side of the text, if no two operands stand side by side in it. -/
theorem exists_isParseOf_of_balanced {source : String} {ts : List Token}
    (lexed : lex 0 source.toList = .ok ts)
    (balanced : ts = [] ∨
      surplus (settled .opening ts) = 1 ∧ nesting 0 (settled .opening ts) = some 0)
    (alone : ¬ Juxtaposed source) : ∃ side : Side, side.IsParseOf source := by
  have facts := isLexed_of_lex lexed
  obtain rfl | ⟨one, closed⟩ := balanced
  · exact ⟨.blank, facts.text.symm⟩
  · have apart : ts.IsChain Apart := facts.apart alone
    obtain ⟨-, fits⟩ := fitsIfBalanced_of_apart facts.shaped apart .opening (by simp) 0
    simp only [Place.operands, Int.zero_add] at fits
    obtain ⟨e, spells, proper⟩ := Expr.exists_spells_of_fits (fits one closed)
    exact ⟨.sum e, Expr.isParseOf_of_spells lexed spells proper⟩

/-- The symbols of a text with a value are balanced, unless the text is blank. -/
theorem balanced_of_outcome_evaluate {policy : DivisionPolicy} {source : String} {v : Linear}
    (h : (evaluate policy source).outcome = .ok v) :
    ∃ ts, lex 0 source.toList = .ok ts ∧
      (ts = [] ∨ surplus (settled .opening ts) = 1 ∧ nesting 0 (settled .opening ts) = some 0) := by
  have tokens := h
  rw [outcome_evaluate] at tokens
  obtain ⟨ts, lexed, -⟩ := bind_eq_ok_iff.1 tokens
  rw [mapError_eq_ok_iff] at lexed
  refine ⟨ts, lexed, ?_⟩
  by_cases blank : ts = []
  · exact Or.inl blank
  · rw [outcome_evaluate_of_lex blank lexed] at h
    have balanced := balanced_of_evaluateSymbols h
    rw [surplus_foldr_attach, nesting_foldr_attach] at balanced
    exact Or.inr balanced

/-! ### Operands of the grammar -/

theorem not_adjoins_of_left {c : Char} (other : ¬ Expr.IsNumberChar c) (notClosing : c ≠ ')')
    (d : Char) : ¬ Adjoins c d := by
  rintro (⟨rfl | rfl, -⟩ | ⟨number | rfl, -⟩)
  · exact other (by decide)
  · exact notClosing rfl
  · exact other number
  · exact notClosing rfl

theorem not_adjoins_of_right {d : Char} (other : ¬ Expr.IsNumberChar d) (notOpening : d ≠ '(')
    (c : Char) : ¬ Adjoins c d := by
  rintro (⟨-, number⟩ | ⟨-, rfl⟩)
  · exact other number
  · exact notOpening rfl

namespace Expr

/-- No character but the last one of a number is an `x`. -/
theorem IsNumeral.isChain {s : List Char} (h : IsNumeral s) :
    s.IsChain fun c d => ¬ Adjoins c d := by
  have front : ∀ c ∈ s.dropLast, c.isDigit := by
    rcases isNumeral_iff.1 h with ⟨all, -⟩ | ⟨all, -⟩
    · exact fun c mem => List.all_eq_true.1 all c ((List.dropLast_sublist s).subset mem)
    · exact List.all_eq_true.1 all
  rw [List.isChain_iff_forall_rel_of_append_cons_cons]
  rintro c d before after rfl
  have digit : c.isDigit := front c (by simp)
  have number : IsNumberChar d := h.isNumberChar (by simp)
  rintro (⟨rfl | rfl, -⟩ | ⟨-, rfl⟩)
  · exact absurd digit (by decide)
  · exact absurd digit (by decide)
  · exact absurd number (by decide)

/-- An operator keeps the operands before and after it apart. -/
theorem isChain_append_sign (op : BinaryOp) {s t : List Char}
    (left : s.IsChain fun c d => ¬ Adjoins c d) (right : t.IsChain fun c d => ¬ Adjoins c d) :
    (s ++ op.sign :: t).IsChain fun c d => ¬ Adjoins c d := by
  have notClosing : op.sign ≠ ')' := by cases op <;> decide
  have notOpening : op.sign ≠ '(' := by cases op <;> decide
  have after := not_adjoins_of_left (not_isNumberChar_sign op) notClosing
  refine List.isChain_append.2 ⟨left, List.isChain_cons.2 ⟨fun d _ => after d, right⟩, ?_⟩
  rintro c - d ⟨⟩
  exact not_adjoins_of_right (not_isNumberChar_sign op) notOpening c

theorem isChain_spelling {p : Phrase} (e : Expr p)
    (numerals : ∀ n ∈ e.numbers, IsNumeral n.compactText) :
    e.spelling.IsChain fun c d => ¬ Adjoins c d := by
  induction e with
  | number literal => exact (numerals literal List.mem_cons_self).isChain
  | paren inner ih =>
    have after := not_adjoins_of_left (c := '(') (by decide) (by decide)
    refine List.isChain_cons.2 ⟨fun d _ => after d, ?_⟩
    refine List.isChain_append.2 ⟨ih numerals, .singleton _, ?_⟩
    rintro c - d ⟨⟩
    exact not_adjoins_of_right (by decide) (by decide) c
  | bare operand ih | single operand ih | first operand ih => exact ih numerals
  | signed sign operand ih | leading sign operand ih =>
    exact isChain_append_sign sign.op .nil (ih numerals)
  | scaled left op right ihLeft ihRight | added left op right ihLeft ihRight =>
    exact isChain_append_sign op.op (ihLeft fun n hn => numerals n (List.mem_append_left _ hn))
      (ihRight fun n hn => numerals n (List.mem_append_right _ hn))

end Expr

theorem Side.Writes.not_juxtaposed {side : Side} {source : String} (h : side.Writes source) :
    ¬ Juxtaposed source := by
  rw [juxtaposed_iff, not_not]
  match side with
  | .blank =>
    have text : Text.compact source.toList = [] := h
    rw [text]
    exact .nil
  | .sum e =>
    obtain ⟨wellFormed, text⟩ := h
    rw [← text]
    exact e.isChain_spelling wellFormed.2

/-- A text that has a value is blank or derived by the grammar exactly if no two operands stand side
by side in it. So without such operands only texts of the grammar have values, and with them none
that has a value is one of the grammar. -/
theorem exists_writes_iff_of_outcome_evaluate {policy : DivisionPolicy} {source : String}
    {v : Linear} (h : (evaluate policy source).outcome = .ok v) :
    (∃ side : Side, side.Writes source) ↔ ¬ Juxtaposed source := by
  refine ⟨fun ⟨side, writes⟩ => writes.not_juxtaposed, fun alone => ?_⟩
  obtain ⟨ts, lexed, balanced⟩ := balanced_of_outcome_evaluate h
  obtain ⟨side, parse⟩ := exists_isParseOf_of_balanced lexed balanced alone
  exact ⟨side, parse.writes⟩

theorem exists_writes_quotient_of_difference :
    (evaluate .truncate "-(2 - 3x) / - + 2").outcome = .ok ⟨-1, 1⟩ ∧
      ¬ Juxtaposed "-(2 - 3x) / - + 2" ∧ ∃ side : Side, side.Writes "-(2 - 3x) / - + 2" := by
  have value : (evaluate .truncate "-(2 - 3x) / - + 2").outcome = .ok ⟨-1, 1⟩ := by
    decide +kernel
  have alone : ¬ Juxtaposed "-(2 - 3x) / - + 2" := by decide
  exact ⟨value, alone, (exists_writes_iff_of_outcome_evaluate value).2 alone⟩

/-- A value does not make a text one of the grammar: two operands stand before their operator. -/
theorem not_writes_unknown_two_plus :
    (evaluate .truncate "x 2 +").outcome = .ok ⟨1, 2⟩ ∧ ∀ side : Side, ¬ side.Writes "x 2 +" := by
  refine ⟨by decide +kernel, fun side writes => ?_⟩
  exact writes.not_juxtaposed (by decide)

/-- An operator in parentheses takes an operand from before them, and empty ones go unnoticed. -/
example : (evaluate .truncate "x(2*)").outcome = .ok ⟨2, 0⟩ ∧
    (evaluate .truncate "()2").outcome = .ok ⟨0, 2⟩ ∧
    ∀ side : Side, ¬ side.Writes "x(2*)" ∧ ¬ side.Writes "()2" := by
  refine ⟨by decide +kernel, by decide +kernel, fun side => ⟨fun writes => ?_, fun writes => ?_⟩⟩
  · exact writes.not_juxtaposed (by decide)
  · exact writes.not_juxtaposed (by decide)

end OneUnknown
