import OneUnknown.Proofs.Spelling

/-!
# Settled signs

In settled tokens every plus or minus stands after an operand and every negation after an operator
(`IsSettled`). Settling makes tokens settled, and where negations are written as minus signs again,
settled tokens are what their signs are settled to (`settleSigns_map_unsettled`). Written one directly
behind the other, tokens are lexed again as they are, since a number that is followed by a number
ends with an `x` (`lex_flatMap_compactText`). So the text that settled tokens write has the same
tokens, each at the place where it is written (`tokenize_rewritten`).
-/

namespace OneUnknown

open Text

/-! ### Kinds -/

/-- A plus or minus, which may be an operator between two operands or a sign of one. -/
def Kind.IsSign (k : Kind) : Prop :=
  k = .operator (.binary .plus) ∨ k = .operator (.binary .minus)

instance (k : Kind) : Decidable k.IsSign := inferInstanceAs (Decidable (_ ∨ _))

theorem Kind.IsSign.placeAfter_eq {k : Kind} (h : k.IsSign) : k.placeAfter = .operator := by
  rcases h with rfl | rfl <;> rfl

theorem Kind.IsSign.ne_number {k : Kind} (h : k.IsSign) : k ≠ .number := by
  rintro rfl
  exact absurd h (by decide)

theorem Kind.IsSign.ne_negate {k : Kind} (h : k.IsSign) : k ≠ .operator .negate := by
  rintro rfl
  exact absurd h (by decide)

theorem Kind.placeAfter_eq_operand_iff {k : Kind} :
    k.placeAfter = .operand ↔ k = .number ∨ k = .closeParen := by
  cases k <;> simp [placeAfter]

theorem Kind.placeAfter_eq_operator_iff {k : Kind} :
    k.placeAfter = .operator ↔ ∃ o, k = .operator o := by
  cases k <;> simp [placeAfter]

theorem Kind.placeAfter_eq_opening_iff {k : Kind} : k.placeAfter = .opening ↔ k = .openParen := by
  cases k <;> simp [placeAfter]

namespace Token

variable {place : Place} {t u : Token} {ts : List Token}

/-! ### Settling token by token -/

theorem settleSigns_opening_of_sign (h : t.kind.IsSign) (ts : List Token) :
    settleSigns .opening (t :: ts) =
      zeroAt t.span.start :: t :: settleSigns .operator ts := by
  obtain ⟨kind, text, span⟩ := t
  obtain rfl | rfl : kind = _ ∨ kind = _ := h <;> rfl

theorem settleSigns_operator_of_plus (h : t.kind = .operator (.binary .plus)) (ts : List Token) :
    settleSigns .operator (t :: ts) = settleSigns .operator ts := by
  obtain ⟨kind, text, span⟩ := t
  obtain rfl : kind = _ := h
  rfl

theorem settleSigns_operator_of_minus (h : t.kind = .operator (.binary .minus))
    (ts : List Token) :
    settleSigns .operator (t :: ts) =
      { t with kind := .operator .negate } :: settleSigns .operator ts := by
  obtain ⟨kind, text, span⟩ := t
  obtain rfl : kind = _ := h
  rfl

theorem settleSigns_kept (h : t.kind.IsSign → place = .operand) (ts : List Token) :
    settleSigns place (t :: ts) = t :: settleSigns t.kind.placeAfter ts := by
  obtain ⟨kind, text, span⟩ := t
  match kind with
  | .number | .openParen | .closeParen | .operator .negate | .operator (.binary .times)
  | .operator (.binary .divide) => cases place <;> rfl
  | .operator (.binary .plus) =>
    obtain rfl : place = .operand := h (Or.inl rfl)
    rfl
  | .operator (.binary .minus) =>
    obtain rfl : place = .operand := h (Or.inr rfl)
    rfl

/-- What becomes of the first token: it is kept, or it is a sign that is not expected. Then a zero is
put before it, or a plus is left out, or a minus becomes a negation. -/
theorem settleSigns_cons_cases (place : Place) (t : Token) (ts : List Token) :
    ((t.kind.IsSign → place = .operand) ∧
        settleSigns place (t :: ts) = t :: settleSigns t.kind.placeAfter ts) ∨
      (place = .opening ∧ t.kind.IsSign ∧
        settleSigns place (t :: ts) = zeroAt t.span.start :: t :: settleSigns .operator ts) ∨
      (place = .operator ∧ t.kind = .operator (.binary .plus) ∧
        settleSigns place (t :: ts) = settleSigns .operator ts) ∨
      (place = .operator ∧ t.kind = .operator (.binary .minus) ∧
        settleSigns place (t :: ts) =
          { t with kind := .operator .negate } :: settleSigns .operator ts) := by
  by_cases expected : t.kind.IsSign → place = .operand
  · exact Or.inl ⟨expected, settleSigns_kept expected ts⟩
  · obtain ⟨sign, other⟩ := Classical.not_imp.1 expected
    right
    cases place with
    | operand => exact absurd rfl other
    | opening => exact Or.inl ⟨rfl, sign, settleSigns_opening_of_sign sign ts⟩
    | operator =>
      right
      rcases sign with plus | minus
      · exact Or.inl ⟨rfl, plus, settleSigns_operator_of_plus plus ts⟩
      · exact Or.inr ⟨rfl, minus, settleSigns_operator_of_minus minus ts⟩

/-- The cases of `settleSigns_cons_cases` for all tokens. -/
@[elab_as_elim]
theorem settleSigns_induction {motive : Place → List Token → List Token → Prop}
    (nil : ∀ place, motive place [] [])
    (zero : ∀ t ts, t.kind.IsSign → motive .operator ts (settleSigns .operator ts) →
      motive .opening (t :: ts) (zeroAt t.span.start :: t :: settleSigns .operator ts))
    (dropped : ∀ t ts, t.kind = .operator (.binary .plus) →
      motive .operator ts (settleSigns .operator ts) →
        motive .operator (t :: ts) (settleSigns .operator ts))
    (negated : ∀ t ts, t.kind = .operator (.binary .minus) →
      motive .operator ts (settleSigns .operator ts) →
        motive .operator (t :: ts)
          ({ t with kind := .operator .negate } :: settleSigns .operator ts))
    (kept : ∀ place t ts, (t.kind.IsSign → place = .operand) →
      motive t.kind.placeAfter ts (settleSigns t.kind.placeAfter ts) →
        motive place (t :: ts) (t :: settleSigns t.kind.placeAfter ts))
    (place : Place) (ts : List Token) : motive place ts (settleSigns place ts) := by
  induction ts generalizing place with
  | nil => exact nil place
  | cons t ts ih =>
    rcases settleSigns_cons_cases place t ts with
      ⟨expected, settled⟩ | ⟨rfl, sign, settled⟩ | ⟨rfl, plus, settled⟩ | ⟨rfl, minus, settled⟩
    · exact settled ▸ kept place t ts expected (ih _)
    · exact settled ▸ zero t ts sign (ih _)
    · exact settled ▸ dropped t ts plus (ih _)
    · exact settled ▸ negated t ts minus (ih _)

/-! ### Settled tokens -/

/-- Every plus or minus among the tokens stands after an operand, and every negation after an
operator. -/
inductive IsSettled : Place → List Token → Prop
  | nil {place : Place} : IsSettled place []
  | negation {t : Token} {ts : List Token} (kind : t.kind = .operator .negate)
    (rest : IsSettled .operator ts) : IsSettled .operator (t :: ts)
  | kept {place : Place} {t : Token} {ts : List Token} (sign : t.kind.IsSign → place = .operand)
    (positive : t.kind ≠ .operator .negate) (rest : IsSettled t.kind.placeAfter ts) :
    IsSettled place (t :: ts)

theorem isSettled_settleSigns (place : Place) {ts : List Token}
    (positive : ∀ t ∈ ts, t.kind ≠ .operator .negate) :
    IsSettled place (settleSigns place ts) := by
  induction place, ts using settleSigns_induction with
  | nil place => exact .nil
  | zero t ts sign ih =>
    have later := ih (List.forall_mem_cons.1 positive).2
    exact .kept nofun nofun (.kept (fun _ => rfl) sign.ne_negate (sign.placeAfter_eq.symm ▸ later))
  | dropped t ts plus ih => exact ih (List.forall_mem_cons.1 positive).2
  | negated t ts minus ih => exact .negation rfl (ih (List.forall_mem_cons.1 positive).2)
  | kept place t ts expected ih =>
    obtain ⟨first, rest⟩ := List.forall_mem_cons.1 positive
    exact .kept expected first (ih rest)

/-- The token with a negation written as a minus sign. -/
def unsettled (t : Token) : Token :=
  if t.kind = .operator .negate then { t with kind := .operator (.binary .minus) } else t

theorem unsettled_of_ne (h : t.kind ≠ .operator .negate) : t.unsettled = t := if_neg h

/-- Settled tokens are what their own signs are settled to. -/
theorem IsSettled.settleSigns_map_unsettled (h : IsSettled place ts) :
    settleSigns place (ts.map unsettled) = ts := by
  induction h with
  | nil => rfl
  | @negation t ts kind _ ih =>
    rw [List.map_cons, unsettled, if_pos kind, settleSigns_operator_of_minus rfl, ih, ← kind]
  | @kept place t ts sign positive _ ih =>
    rw [List.map_cons, unsettled_of_ne positive, settleSigns_kept sign, ih]

/-- The place behind tokens that stand at the given place. -/
def placeBehind (place : Place) (ts : List Token) : Place :=
  ts.getLast?.elim place (·.kind.placeAfter)

@[simp] theorem placeBehind_nil (place : Place) : placeBehind place [] = place := rfl

@[simp] theorem placeBehind_cons (place : Place) (t : Token) (ts : List Token) :
    placeBehind place (t :: ts) = placeBehind t.kind.placeAfter ts := by
  cases ts with
  | nil => rfl
  | cons u ts => rw [placeBehind, placeBehind, List.getLast?_cons_cons, List.getLast?_cons]; rfl

theorem placeBehind_eq_iff {place place' : Place} (h : place ≠ place') {ts : List Token} :
    placeBehind place ts = place' ↔ ∃ t ∈ ts.getLast?, t.kind.placeAfter = place' := by
  unfold placeBehind
  cases ts.getLast? <;> simp [h]

theorem IsSettled.of_append {front back : List Token} (h : IsSettled place (front ++ back)) :
    IsSettled (placeBehind place front) back := by
  induction front generalizing place with
  | nil => exact h
  | cons t front ih =>
    rw [placeBehind_cons]
    cases h with
    | negation kind rest => exact ih (by rwa [kind])
    | kept _ _ rest => exact ih rest

theorem IsSettled.place_of_sign (h : IsSettled place (t :: ts)) (sign : t.kind.IsSign) :
    place = .operand := by
  cases h with
  | negation kind _ => exact absurd kind sign.ne_negate
  | kept expected _ _ => exact expected sign

theorem IsSettled.place_of_negation (h : IsSettled place (t :: ts))
    (negation : t.kind = .operator .negate) : place = .operator := by
  cases h with
  | negation => rfl
  | kept _ positive _ => exact absurd negation positive

/-- What stands before the signs and negations of an expression. -/
theorem IsSettled.follows {front back : List Token}
    (h : IsSettled .opening (front ++ t :: back)) :
    (t.kind.IsSign → ∃ u ∈ front.getLast?, u.kind = .number ∨ u.kind = .closeParen) ∧
      (t.kind = .operator .negate → ∃ u ∈ front.getLast?, ∃ o, u.kind = .operator o) := by
  simp only [← Kind.placeAfter_eq_operand_iff, ← Kind.placeAfter_eq_operator_iff]
  refine ⟨fun sign => ?_, fun negation => ?_⟩
  · exact (placeBehind_eq_iff (by decide)).1 (h.of_append.place_of_sign sign)
  · exact (placeBehind_eq_iff (by decide)).1 (h.of_append.place_of_negation negation)

/-! ### Tokens in a row -/

/-- Where both are numbers, the first of two neighbours ends with an `x`. -/
def MayMeet (t u : Token) : Prop :=
  t.kind = .number → u.kind = .number → t.compactText.getLast? = some 'x'

theorem isChain_cons_of_ne_number (h : t.kind ≠ .number) :
    (t :: ts).IsChain MayMeet ↔ ts.IsChain MayMeet := by
  cases ts with
  | nil => simp
  | cons u ts =>
    rw [List.isChain_cons_cons]
    exact and_iff_right fun number => absurd number h

/-- Settling brings no two numbers together. -/
theorem isChain_cons_settleSigns {place : Place} {ts : List Token}
    (before : t.kind.placeAfter = place) (h : (t :: ts).IsChain MayMeet) :
    (t :: settleSigns place ts).IsChain MayMeet := by
  have ne_number {t : Token} {place : Place} (behind : t.kind.placeAfter = place)
      (other : place ≠ .operand) : t.kind ≠ .number :=
    fun number => other (behind.symm.trans (Kind.placeAfter_eq_operand_iff.2 (Or.inl number)))
  induction place, ts using settleSigns_induction generalizing t with
  | nil place => exact .singleton t
  | zero s ts sign ih =>
    rw [isChain_cons_of_ne_number (ne_number before (by decide)), List.isChain_cons_cons]
    exact ⟨fun _ number => absurd number sign.ne_number, ih sign.placeAfter_eq h.tail⟩
  | dropped s ts plus ih =>
    -- What closes up over the plus is behind an operator, which is no number.
    refine ih before ?_
    rw [isChain_cons_of_ne_number (ne_number before (by decide))]
    exact h.tail.tail
  | negated s ts minus ih =>
    rw [isChain_cons_of_ne_number (ne_number before (by decide))]
    refine ih rfl ?_
    rw [isChain_cons_of_ne_number (by simp)]
    exact h.tail.tail
  | kept place s ts expected ih =>
    obtain ⟨meet, rest⟩ := List.isChain_cons_cons.1 h
    exact .cons_cons meet (ih rfl rest)

theorem isChain_settleSigns {ts : List Token} (h : ts.IsChain MayMeet) :
    (settleSigns .opening ts).IsChain MayMeet := by
  have opened : (⟨.openParen, "", ⟨0, 0⟩⟩ :: ts).IsChain MayMeet :=
    (isChain_cons_of_ne_number (by simp)).2 h
  exact (isChain_cons_settleSigns rfl opened).tail

/-- The tokens written without blanks from byte `start` on, each directly behind the one before. -/
def packed (start : Nat) : List Token → List Token
  | [] => []
  | t :: ts =>
    let stop := start + utf8Length t.compactText
    ⟨t.kind, .ofList t.compactText, ⟨start, stop⟩⟩ :: packed stop ts

theorem map_kind_packed (start : Nat) (ts : List Token) :
    (packed start ts).map kind = ts.map kind := by
  induction ts generalizing start with
  | nil => rfl
  | cons t ts ih => rw [packed, List.map_cons, List.map_cons, ih]

theorem map_compactText_packed (start : Nat) (ts : List Token) :
    (packed start ts).map compactText = ts.map compactText := by
  induction ts generalizing start with
  | nil => rfl
  | cons t ts ih =>
    rw [packed, List.map_cons, List.map_cons, ih, compactText_ofList, compactText, compact_compact]

theorem Shaped.exists_char (h : t.Shaped) (other : t.kind ≠ .number) :
    ∃ c, t.compactText = [c] ∧ Kind.ofChar? c = some t.kind := by
  obtain ⟨kind, text, span⟩ := t
  match kind with
  | .number => exact absurd rfl other
  | .openParen => exact ⟨'(', h, rfl⟩
  | .closeParen => exact ⟨')', h, rfl⟩
  | .operator (.binary op) => exact ⟨op.sign, h, Expr.ofChar?_sign op⟩
  | .operator .negate => exact h.elim

/-- Tokens written one directly behind the other are lexed as they are. -/
theorem lex_flatMap_compactText {ts : List Token} (shaped : ∀ t ∈ ts, t.Shaped)
    (meet : ts.IsChain MayMeet) (start : Nat) :
    lex start (ts.flatMap compactText) = .ok (packed start ts) := by
  induction ts generalizing start with
  | nil => exact lex_nil start
  | cons t ts ih =>
    obtain ⟨first, rest⟩ := List.forall_mem_cons.1 shaped
    have later := ih rest meet.tail
    rw [List.flatMap_cons, packed]
    by_cases number : t.kind = .number
    · have numeral : Expr.IsNumeral t.compactText := by rwa [Shaped, number] at first
      have stop (last : t.compactText.getLast? ≠ some 'x') :
          ∀ c ∈ (ts.flatMap compactText).head?, ¬ Expr.IsNumberChar c ∧ isBlank c = false := by
        cases ts with
        | nil => simp
        | cons u ts =>
          have other : u.kind ≠ .number :=
            fun same => last ((List.isChain_cons_cons.1 meet).1 number same)
          obtain ⟨c, text, known⟩ := (List.forall_mem_cons.1 rest).1.exists_char other
          rw [List.flatMap_cons, text]
          rintro _ ⟨⟩
          exact ⟨Kind.not_isNumberChar_of_ofChar? known, Kind.not_isBlank_of_ofChar? known⟩
      have split := splitNumber_numeral numeral stop
      obtain ⟨c, digits, text, digit⟩ := isNumberChar_of_isNumeral numeral
      rw [text] at split ⊢
      rw [List.cons_append] at split ⊢
      rw [lex_cons_of_number digit, split, ← text, later, number]
      rfl
    · obtain ⟨c, text, known⟩ := first.exists_char number
      rw [text, List.singleton_append, lex_cons_of_kind known, later]
      rfl

/-! ### Settled tokens in a row -/

@[simp] theorem compactText_unsettled (t : Token) : t.unsettled.compactText = t.compactText := by
  unfold unsettled
  split <;> rfl

theorem kind_unsettled_eq_number_iff : t.unsettled.kind = .number ↔ t.kind = .number := by
  unfold unsettled
  split
  · next negation => simp [negation]
  · rfl

theorem compactText_zeroAt (start : Nat) : (zeroAt start).compactText = ['0'] := by
  simp only [compactText, zeroAt]
  decide

theorem shaped_zeroAt (start : Nat) : (zeroAt start).Shaped := by
  rw [Shaped, compactText_zeroAt]
  exact (by decide : Expr.IsNumeral ['0'])

/-- A settled token has the text of a token, or the minus sign of a negation. -/
theorem shaped_unsettled_of_mem_settleSigns (place : Place) {ts : List Token}
    (shaped : ∀ t ∈ ts, t.Shaped) : ∀ t ∈ settleSigns place ts, t.unsettled.Shaped := by
  have same {t : Token} (h : t.Shaped) : t.unsettled.Shaped := by
    refine (unsettled_of_ne fun negation => ?_).symm ▸ h
    rwa [Shaped, negation] at h
  induction place, ts using settleSigns_induction with
  | nil place => simp
  | zero t ts sign ih =>
    obtain ⟨first, rest⟩ := List.forall_mem_cons.1 shaped
    exact List.forall_mem_cons.2 ⟨same (shaped_zeroAt _),
      List.forall_mem_cons.2 ⟨same first, ih rest⟩⟩
  | dropped t ts plus ih => exact ih (List.forall_mem_cons.1 shaped).2
  | negated t ts minus ih =>
    obtain ⟨first, rest⟩ := List.forall_mem_cons.1 shaped
    refine List.forall_mem_cons.2 ⟨?_, ih rest⟩
    rwa [Shaped, minus] at first
  | kept place t ts expected ih =>
    obtain ⟨first, rest⟩ := List.forall_mem_cons.1 shaped
    exact List.forall_mem_cons.2 ⟨same first, ih rest⟩

theorem packed_map_unsettled (start : Nat) (ts : List Token) :
    packed start (ts.map unsettled) = (packed start ts).map unsettled := by
  induction ts generalizing start with
  | nil => rfl
  | cons t ts ih =>
    rw [List.map_cons, packed, packed, List.map_cons, ih, compactText_unsettled]
    congr 1
    unfold unsettled
    split <;> rfl

theorem IsSettled.packed (h : IsSettled place ts) (start : Nat) :
    IsSettled place (packed start ts) := by
  induction h generalizing start with
  | nil => exact .nil
  | negation kind _ ih => exact .negation kind (ih _)
  | kept expected positive _ ih => exact .kept expected positive (ih _)

/-- What a token is written as: its text without blanks, and a minus sign for a negation. -/
def written (t : Token) : List Char :=
  if t.kind = .operator .negate then ['-'] else t.compactText

/-- The text of tokens written one directly behind the other. -/
def rewritten (ts : List Token) : String := .ofList (ts.flatMap written)

theorem written_eq (h : t.unsettled.Shaped) : t.written = t.compactText := by
  unfold written
  split
  · next negation =>
    rw [unsettled, if_pos negation] at h
    exact h.symm
  · rfl

theorem toList_rewritten (shaped : ∀ t ∈ ts, t.unsettled.Shaped) :
    (rewritten ts).toList = (ts.map unsettled).flatMap compactText := by
  rw [rewritten, String.toList_ofList, List.flatMap_map]
  simp only [compactText_unsettled]
  exact List.flatMap_congr fun t mem => written_eq (shaped t mem)

theorem exists_of_tokenize {source : String} (h : tokenize source = .ok ts) :
    ∃ us, lex 0 source.toList = .ok us ∧ settleSigns .opening us = ts := map_eq_ok_iff.1 h

theorem Shaped.ne_negate (h : t.Shaped) : t.kind ≠ .operator .negate := by
  intro negation
  rwa [Shaped, negation] at h

theorem isSettled_of_tokenize {source : String} (h : tokenize source = .ok ts) :
    IsSettled .opening ts := by
  obtain ⟨us, lexed, rfl⟩ := exists_of_tokenize h
  exact isSettled_settleSigns .opening fun t mem => ((isLexed_of_lex lexed).shaped t mem).ne_negate

theorem shaped_of_tokenize {source : String} (h : tokenize source = .ok ts) :
    ∀ t ∈ ts, t.unsettled.Shaped := by
  obtain ⟨us, lexed, rfl⟩ := exists_of_tokenize h
  exact shaped_unsettled_of_mem_settleSigns .opening (isLexed_of_lex lexed).shaped

theorem isChain_of_tokenize {source : String} (h : tokenize source = .ok ts) :
    ts.IsChain MayMeet := by
  obtain ⟨us, lexed, rfl⟩ := exists_of_tokenize h
  exact isChain_settleSigns (isLexed_of_lex lexed).maximal

/-- The tokens of a text, written without blanks, are lexed as they are but for negations. -/
theorem lex_rewritten {source : String} (h : tokenize source = .ok ts) :
    lex 0 (rewritten ts).toList = .ok ((packed 0 ts).map unsettled) := by
  have shaped := shaped_of_tokenize h
  have meet : (ts.map unsettled).IsChain MayMeet := by
    refine (List.isChain_map unsettled).2 ((isChain_of_tokenize h).imp fun t u meet => ?_)
    simpa only [MayMeet, kind_unsettled_eq_number_iff, compactText_unsettled] using meet
  rw [toList_rewritten shaped, lex_flatMap_compactText (by simpa using shaped) meet,
    packed_map_unsettled]

theorem tokenize_rewritten_eq {source : String} (h : tokenize source = .ok ts) :
    tokenize (rewritten ts) = .ok (packed 0 ts) := by
  rw [tokenize, lex_rewritten h]
  exact congrArg Except.ok ((isSettled_of_tokenize h).packed 0).settleSigns_map_unsettled

theorem flatMap_text_packed (start : Nat) (ts : List Token) :
    (packed start ts).flatMap (·.text.toList) = ts.flatMap compactText := by
  induction ts generalizing start with
  | nil => rfl
  | cons t ts ih => rw [packed, List.flatMap_cons, List.flatMap_cons, ih, String.toList_ofList]

theorem Shaped.compactText_ne_nil (h : t.Shaped) : t.compactText ≠ [] := by
  by_cases number : t.kind = .number
  · rw [Shaped, number] at h
    exact h.ne_nil
  · obtain ⟨c, text, -⟩ := h.exists_char number
    exact text ▸ List.cons_ne_nil c []

theorem start_lt_stop_of_mem_packed (nonempty : ∀ t ∈ ts, t.compactText ≠ []) (start : Nat) :
    ∀ t ∈ packed start ts, t.span.start < t.span.stop := by
  induction ts generalizing start with
  | nil => exact nofun
  | cons t ts ih =>
    obtain ⟨first, rest⟩ := List.forall_mem_cons.1 nonempty
    exact List.forall_mem_cons.2 ⟨Nat.lt_add_of_pos_right (utf8Length_pos first), ih rest _⟩

/-- The tokens of a text, written without blanks, are read as tokens of the same kinds and with the
same texts. This time settling only turns minus signs into negations: each token that is lexed is
kept at its place, none is put in, and the texts of the tokens are the whole text. In tokens of a
text a plus or minus follows an operand, and a negation follows an operator. -/
theorem tokenize_rewritten {source : String} {ts : List Token} (h : tokenize source = .ok ts) :
    (∃ ts', tokenize (rewritten ts) = .ok ts' ∧ ts'.map kind = ts.map kind ∧
      ts'.map compactText = ts.map compactText ∧
      lex 0 (rewritten ts).toList = .ok (ts'.map unsettled) ∧
      (∀ t ∈ ts', t.span.start < t.span.stop) ∧
      ts'.flatMap (·.text.toList) = (rewritten ts).toList) ∧
    ∀ front t back, ts = front ++ t :: back →
      (t.kind.IsSign → ∃ u ∈ front.getLast?, u.kind = .number ∨ u.kind = .closeParen) ∧
        (t.kind = .operator .negate → ∃ u ∈ front.getLast?, ∃ o, u.kind = .operator o) := by
  have shaped := shaped_of_tokenize h
  refine ⟨⟨packed 0 ts, tokenize_rewritten_eq h, map_kind_packed 0 ts, map_compactText_packed 0 ts,
    lex_rewritten h, ?_, ?_⟩, ?_⟩
  · refine start_lt_stop_of_mem_packed (fun t mem => ?_) 0
    rw [← compactText_unsettled]
    exact (shaped t mem).compactText_ne_nil
  · rw [flatMap_text_packed, rewritten, String.toList_ofList]
    exact List.flatMap_congr fun t mem => (written_eq (shaped t mem)).symm
  · rintro front t back rfl
    exact (isSettled_of_tokenize h).follows

/-- Numbers side by side stay apart, and a run of signs is the same negations again. -/
theorem tokenize_rewritten_signs :
    ∃ ts ts', tokenize "+ 2x x*-+-\u00a0(-1 2)" = .ok ts ∧ rewritten ts = "0+2xx*--(0-12)" ∧
      tokenize "0+2xx*--(0-12)" = .ok ts' ∧ ts'.map kind = ts.map kind ∧
        ts'.map compactText = ts.map compactText := by
  have read : rewritten <$> tokenize "+ 2x x*-+-\u00a0(-1 2)" = .ok "0+2xx*--(0-12)" := by
    decide +kernel
  obtain ⟨ts, tokens, text⟩ := map_eq_ok_iff.1 read
  obtain ⟨⟨ts', again, kinds, texts, -⟩, -⟩ := tokenize_rewritten tokens
  rw [text] at again
  exact ⟨ts, ts', tokens, text, again, kinds, texts⟩

end Token

end OneUnknown
