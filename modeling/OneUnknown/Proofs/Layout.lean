import OneUnknown.Proofs.SettledSigns

/-!
# How tokens lie in a text

`Laid` tells, from the left to the right, how settled tokens lie in the text that they were read
from: each is a piece of the text or a zero that was put before a sign, and between two pieces there
are blanks and the plus signs that were left out. Tokens that are lexed and settled lie so
(`laid_of_lex`); what each of them is, their order and what they leave of the text are read off by
inductions along `Laid`, and `liesIn_of_tokenize` puts it together.
-/

namespace OneUnknown

open Text

/-- The bytes of a character at byte `start`. -/
def charSpan (start : Nat) (c : Char) : Span := ⟨start, start + c.utf8Size⟩

def Span.Within (inner outer : Span) : Prop :=
  outer.start ≤ inner.start ∧ inner.stop ≤ outer.stop

def Span.Apart (a b : Span) : Prop := a.stop ≤ b.start ∨ b.stop ≤ a.start

theorem Span.Within.not_apart {a b : Span} (h : a.Within b) (nonempty : a.start < a.stop) :
    ¬ a.Apart b := by
  unfold Within at h
  unfold Apart
  omega

namespace Token

variable {place : Place} {start : Nat} {s : List Char} {t : Token} {ts : List Token}

/-! ### Pieces and zeros -/

/-- The token is a zero that was put in. -/
def IsZero (t : Token) : Prop := t = zeroAt t.span.start

instance (t : Token) : Decidable t.IsZero := inferInstanceAs (Decidable (_ = _))

/-- The token is a piece of the text that starts at byte `start`, with no blank at its ends. -/
structure IsPiece (start : Nat) (s : List Char) (t : Token) : Prop where
  text : ∃ front back, s = front ++ t.text.toList ++ back ∧
    t.span = ⟨start + utf8Length front, start + utf8Length front + utf8Length t.text.toList⟩
  first : ∃ c ∈ t.text.toList.head?, isBlank c = false
  last : ∃ c ∈ t.text.toList.getLast?, isBlank c = false

theorem utf8Length_pos_of_first {text : List Char} (h : ∃ c ∈ text.head?, isBlank c = false) :
    0 < utf8Length text := by
  obtain ⟨c, mem, -⟩ := h
  exact utf8Length_pos (List.ne_nil_of_mem (List.mem_of_mem_head? mem))

theorem IsPiece.append {head : List Char} (h : IsPiece (start + utf8Length head) s t) :
    IsPiece start (head ++ s) t := by
  obtain ⟨front, back, rfl, span⟩ := h.text
  refine ⟨⟨head ++ front, back, ?_, ?_⟩, h.first, h.last⟩
  · simp only [List.append_assoc]
  · rw [span, utf8Length_append, Nat.add_assoc start]

/-- The tokens from the text before byte `i`. -/
def before (i : Nat) (ts : List Token) : List Token := ts.filter (·.span.start < i)

/-- The bytes belong to no token. -/
def Outside (span : Span) (ts : List Token) : Prop := ∀ t ∈ ts, span.Apart t.span

/-- The tokens that are no zeros that were put in. -/
def pieces (ts : List Token) : List Token := ts.filter (¬ ·.IsZero)

/-- How tokens lie in the whole text that they were read from. -/
structure LiesIn (source : List Char) (ts : List Token) : Prop where
  backed : ∀ t ∈ ts, t.IsZero ∨ t.IsPiece 0 source
  ordered : ts.Pairwise fun t u => t.span.stop ≤ u.span.start
  /-- A character belongs to one token or to none. -/
  covered : ∀ front c back, source = front ++ c :: back →
    (∃ t ∈ ts, (charSpan (utf8Length front) c).Within t.span) ∨
      Outside (charSpan (utf8Length front) c) ts
  /-- Nothing but blanks and plus signs is left out. -/
  outside : ∀ front c back, source = front ++ c :: back →
    Outside (charSpan (utf8Length front) c) ts → isBlank c ∨ c = '+'
  /-- A plus is left out exactly if the last token before it is an operator. -/
  dropped : ∀ front back, source = front ++ '+' :: back →
    (Outside (charSpan (utf8Length front) '+') ts ↔
      ∃ t ∈ (before (utf8Length front) ts).getLast?, ∃ o, t.kind = .operator o)
  /-- A zero that was put in stands at the sign that follows it. -/
  zeros : ∀ front z back, ts = front ++ z :: back → z.IsZero →
    ∃ t ∈ back.head?, t.kind.IsSign ∧ t.span.start = z.span.start
  /-- Such a zero stands before a sign exactly if the sign is the first piece of the text, or if the
  piece before it is an opening parenthesis. -/
  signs : ∀ front t back, ts = front ++ t :: back →
    t.kind.IsSign ∨ t.kind = .operator .negate →
      ((∃ z ∈ front.getLast?, z.IsZero) ↔
        ∀ u ∈ (pieces front).getLast?, u.kind = .openParen)

/-! ### From the left to the right -/

/-- Settled tokens that stand at the given place lie in a text that starts at byte `start`. -/
inductive Laid : Place → Nat → List Char → List Token → Prop
  | nil {place : Place} {start : Nat} : Laid place start [] []
  | skipped {place : Place} {start : Nat} {c : Char} {s : List Char} {ts : List Token}
    (skip : isBlank c ∨ c = '+' ∧ place = .operator)
    (rest : Laid place (start + c.utf8Size) s ts) : Laid place start (c :: s) ts
  | piece {place : Place} {start : Nat} {kind : Kind} {text s : List Char} {ts : List Token}
    (first : ∃ c ∈ text.head?, isBlank c = false) (last : ∃ c ∈ text.getLast?, isBlank c = false)
    (plus : '+' ∈ text → text = ['+'] ∧ place ≠ .operator)
    (rest : Laid kind.placeAfter (start + utf8Length text) s ts) :
    Laid place start (text ++ s)
      (⟨kind, .ofList text, ⟨start, start + utf8Length text⟩⟩ :: ts)
  | zero {start : Nat} {s : List Char} {t : Token} {ts : List Token} (sign : t.kind.IsSign)
    (stands : t.span.start = start) (rest : Laid .operand start s (t :: ts)) :
    Laid .opening start s (zeroAt start :: t :: ts)

theorem eq_sign_of_ofChar? {c : Char} {op : BinaryOp}
    (h : Kind.ofChar? c = some (.operator (.binary op))) : c = op.sign := by
  unfold Kind.ofChar? at h
  split at h <;> cases h <;> rfl

/-- A token of a single character is kept, or settled as a sign. -/
theorem laid_cons_of_kind {c : Char} {kind : Kind} (known : Kind.ofChar? c = some kind)
    (later : ∀ place, Laid place (start + c.utf8Size) s (settleSigns place ts)) (place : Place) :
    Laid place start (c :: s)
      (settleSigns place (⟨kind, .ofList [c], ⟨start, start + c.utf8Size⟩⟩ :: ts)) := by
  have ends : isBlank c = false := Kind.not_isBlank_of_ofChar? known
  have kept {place : Place} (kind' : Kind) (plus : c = '+' → place ≠ .operator) :
      Laid place start (c :: s)
        (⟨kind', .ofList [c], ⟨start, start + c.utf8Size⟩⟩ ::
          settleSigns kind'.placeAfter ts) := by
    refine @Laid.piece _ _ _ [c] _ _ ⟨c, rfl, ends⟩ ⟨c, rfl, ends⟩ (fun mem => ?_) (later _)
    obtain rfl := List.mem_singleton.1 mem
    exact ⟨rfl, plus rfl⟩
  rcases settleSigns_cons_cases place ⟨kind, .ofList [c], ⟨start, start + c.utf8Size⟩⟩ ts with
    ⟨expected, settled⟩ | ⟨rfl, sign, settled⟩ | ⟨rfl, rfl, settled⟩ | ⟨rfl, rfl, settled⟩
  · refine settled ▸ kept kind ?_
    rintro rfl
    obtain rfl : _ = kind := Option.some.inj known
    simp [expected (Or.inl rfl)]
  · rw [settled]
    exact .zero sign rfl (sign.placeAfter_eq ▸ kept kind (by simp))
  · obtain rfl : c = '+' := eq_sign_of_ofChar? known
    exact settled ▸ .skipped (Or.inr ⟨rfl, rfl⟩) (later _)
  · obtain rfl : c = '-' := eq_sign_of_ofChar? known
    exact settled ▸ kept (.operator .negate) (by decide)

theorem laid_of_lex {us : List Token} (h : lex start s = .ok us) (place : Place) :
    Laid place start s (settleSigns place us) := by
  induction start, s using lex.induct generalizing us place with
  | case1 start =>
    rw [lex_nil] at h
    cases h
    exact .nil
  | case2 start c s blank ih =>
    rw [lex_cons_of_blank blank] at h
    exact .skipped (Or.inl blank) (ih h place)
  | case3 start c s blank number shorter parts stop =>
    rename_i ih
    rw [lex_cons_of_number number] at h
    obtain ⟨us, lexed, rfl⟩ := map_eq_ok_iff.1 h
    have nonempty := splitNumber_ne_nil number s
    have first : ∃ d ∈ (splitNumber (c :: s)).1.head?, isBlank d = false :=
      ⟨c, head?_splitNumber number s, Expr.IsNumberChar.not_isBlank number⟩
    have last : ∃ d ∈ (splitNumber (c :: s)).1.getLast?, isBlank d = false := by
      obtain ⟨d, hd, digit⟩ := exists_getLast?_splitNumber nonempty
      exact ⟨d, hd, digit.not_isBlank⟩
    have plus (mem : '+' ∈ (splitNumber (c :: s)).1) :
        (splitNumber (c :: s)).1 = ['+'] ∧ place ≠ .operator :=
      absurd (isNumberChar_or_isBlank_of_mem_splitNumber mem) (by decide)
    have laid := @Laid.piece _ _ .number _ _ _ first last plus (ih lexed _)
    rw [splitNumber_append] at laid
    rwa [settleSigns_kept fun sign => absurd rfl sign.ne_number]
  | case4 start c s blank number kind known stop =>
    rename_i ih
    rw [lex_cons_of_kind known] at h
    obtain ⟨us, lexed, rfl⟩ := map_eq_ok_iff.1 h
    exact laid_cons_of_kind known (ih lexed) place
  | case5 start c s blank number unknown =>
    rw [lex_cons_of_unknown (by simpa using blank) number unknown] at h
    cases h

namespace Laid

theorem start_le (h : Laid place start s ts) : ∀ t ∈ ts, start ≤ t.span.start := by
  induction h with
  | nil => exact nofun
  | skipped _ _ ih => exact fun t mem => Nat.le_trans (Nat.le_add_right ..) (ih t mem)
  | piece _ _ _ _ ih =>
    refine List.forall_mem_cons.2 ⟨Nat.le_refl _, fun t mem => ?_⟩
    exact Nat.le_trans (Nat.le_add_right ..) (ih t mem)
  | zero _ _ _ ih => exact List.forall_mem_cons.2 ⟨Nat.le_refl _, ih⟩

theorem before_eq_nil (h : Laid place start s ts) {i : Nat} (le : i ≤ start) :
    before i ts = [] := by
  refine List.filter_eq_nil_iff.2 fun t mem => ?_
  have := h.start_le t mem
  simp only [decide_eq_true_eq]
  omega

theorem backed (h : Laid place start s ts) : ∀ t ∈ ts, t.IsZero ∨ t.IsPiece start s := by
  induction h with
  | nil => exact nofun
  | @skipped _ _ c _ _ _ _ ih =>
    exact fun t mem => (ih t mem).imp_right (@IsPiece.append _ _ _ [c])
  | @piece _ start kind text s _ first last _ _ ih =>
    refine List.forall_mem_cons.2 ⟨Or.inr ?_, fun t mem => (ih t mem).imp_right IsPiece.append⟩
    refine ⟨⟨[], s, ?_, ?_⟩, ?_, ?_⟩ <;> simp only [String.toList_ofList]
    · rfl
    · rfl
    · exact first
    · exact last
  | zero _ _ _ ih => exact List.forall_mem_cons.2 ⟨Or.inl rfl, ih⟩

theorem ordered (h : Laid place start s ts) :
    ts.Pairwise fun t u => t.span.stop ≤ u.span.start := by
  induction h with
  | nil => exact .nil
  | skipped _ _ ih => exact ih
  | piece _ _ _ rest ih => exact .cons rest.start_le ih
  | zero _ _ rest ih => exact .cons rest.start_le ih

/-- A zero stands at an opening and is followed by a sign, which begins where the zero stands. -/
theorem of_isZero (h : Laid place start s ts) {front back : List Token} {z : Token}
    (split : ts = front ++ z :: back) (zero : z.IsZero) :
    placeBehind place front = .opening ∧
      ∃ t ∈ back.head?, t.kind.IsSign ∧ t.span.start = z.span.start := by
  induction h generalizing front with
  | nil => exact absurd split.symm (List.append_ne_nil_of_right_ne_nil front (by simp))
  | skipped _ _ ih => exact ih split
  | @piece _ start _ text _ _ first _ _ _ ih =>
    cases front with
    | nil =>
      obtain ⟨rfl, -⟩ := List.cons.inj split
      have empty : start + utf8Length text = start := congrArg (·.span.stop) zero
      have := utf8Length_pos_of_first first
      omega
    | cons u front =>
      obtain ⟨rfl, later⟩ := List.cons.inj split
      rw [placeBehind_cons]
      exact ih later
  | @zero start _ t _ sign stands _ ih =>
    cases front with
    | nil =>
      obtain ⟨rfl, rfl⟩ := List.cons.inj split
      exact ⟨rfl, t, rfl, sign, stands⟩
    | cons u front =>
      obtain ⟨rfl, later⟩ := List.cons.inj split
      rw [placeBehind_cons]
      exact ih later

end Laid

/-! ### Character by character -/

/-- The character at byte `i` belongs to a token, or is a blank or a plus that is left out. -/
def Accounted (place : Place) (ts : List Token) (c : Char) (i : Nat) : Prop :=
  (∃ t ∈ ts, (charSpan i c).Within t.span) ∧
      (c = '+' → placeBehind place (before i ts) ≠ .operator) ∨
    Outside (charSpan i c) ts ∧
      (isBlank c ∨ c = '+' ∧ placeBehind place (before i ts) = .operator)

section Accounted

variable {place' : Place} {i : Nat} {c : Char}

theorem before_cons_of_lt (h : t.span.start < i) : before i (t :: ts) = t :: before i ts :=
  List.filter_cons_of_pos (by simpa using h)

/-- A token may be put before those that account for a character behind it. -/
theorem Accounted.cons (h : Accounted place' ts c i) (ends : t.span.stop ≤ i)
    (behind : placeBehind place (before i (t :: ts)) = .operator ↔
      placeBehind place' (before i ts) = .operator) : Accounted place (t :: ts) c i := by
  rcases h with ⟨⟨u, mem, within⟩, kept⟩ | ⟨outside, left⟩
  · exact Or.inl ⟨⟨u, List.mem_cons_of_mem t mem, within⟩, fun plus => mt behind.1 (kept plus)⟩
  · exact Or.inr ⟨List.forall_mem_cons.2 ⟨Or.inr ends, outside⟩,
      left.imp_right (And.imp_right behind.2)⟩

theorem append_eq_append_cons {text front back : List Char}
    (h : text ++ s = front ++ c :: back) :
    (∃ inner, text = front ++ c :: inner) ∨
      ∃ gap, front = text ++ gap ∧ s = gap ++ c :: back := by
  rcases List.append_eq_append_iff.1 h with ⟨gap, front, rest⟩ | ⟨_ | ⟨d, inner⟩, text, rest⟩
  · exact Or.inr ⟨gap, front, rest⟩
  · exact Or.inr ⟨[], by simpa using text.symm, rest.symm⟩
  · obtain ⟨rfl, -⟩ := List.cons.inj rest
    exact Or.inl ⟨inner, text⟩

theorem Laid.accounted (h : Laid place start s ts) {front back : List Char}
    (split : s = front ++ c :: back) (index : i = start + utf8Length front) :
    Accounted place ts c i := by
  induction h generalizing front with
  | nil => exact absurd split.symm (List.append_ne_nil_of_right_ne_nil front (by simp))
  | skipped skip rest ih =>
    cases front with
    | nil =>
      obtain ⟨rfl, -⟩ := List.cons.inj split
      subst index
      refine Or.inr ⟨fun t mem => Or.inl (rest.start_le t mem), ?_⟩
      rwa [rest.before_eq_nil (Nat.le_add_right ..)]
    | cons d front =>
      obtain ⟨rfl, later⟩ := List.cons.inj split
      exact ih later (by rw [index, utf8Length_cons, Nat.add_assoc])
  | @piece _ start _ text _ _ first last plus rest ih =>
    have laid := Laid.piece first last plus rest
    rcases append_eq_append_cons split with ⟨inner, rfl⟩ | ⟨gap, rfl, later⟩
    · refine Or.inl ⟨⟨_, List.mem_cons_self, ?_⟩, ?_⟩
      · simp only [Span.Within, charSpan, utf8Length_append, utf8Length_cons]
        omega
      · -- A plus is a piece of its own, so the place before it is that of the piece.
        rintro rfl
        obtain ⟨single, other⟩ := plus (by simp)
        obtain ⟨rfl, -⟩ : front = [] ∧ inner = [] := by
          simpa [List.append_eq_singleton_iff] using single
        rw [laid.before_eq_nil (Nat.le_of_eq index)]
        exact other
    · have := utf8Length_pos_of_first first
      rw [utf8Length_append] at index
      refine (ih later (by omega)).cons (show start + utf8Length text ≤ i by omega) ?_
      rw [before_cons_of_lt (show start < i by omega), placeBehind_cons]
  | @zero start _ t ts sign stands rest ih =>
    refine (ih split index).cons (show start ≤ i by omega) ?_
    -- The sign at the place of the zero has the opening before it, what follows has the zero too.
    rcases Nat.lt_or_eq_of_le (show start ≤ i by omega) with later | rfl
    · rw [before_cons_of_lt later, placeBehind_cons]
      rfl
    · rw [rest.before_eq_nil (Nat.le_refl _), (zero sign stands rest).before_eq_nil (Nat.le_refl _)]
      decide

end Accounted

/-! ### A whole text -/

theorem not_isZero_of_ne_number (h : t.kind ≠ .number) : ¬ t.IsZero :=
  fun zero => h (congrArg kind zero)

theorem getLast?_pieces {front : List Token} (last : t ∈ front.getLast?) (piece : ¬ t.IsZero) :
    (pieces front).getLast? = some t := by
  obtain ⟨init, rfl⟩ := List.getLast?_eq_some_iff.1 last
  rw [pieces, List.filter_append, List.filter_cons_of_pos (by simpa using piece), List.filter_nil,
    List.getLast?_concat]

theorem placeBehind_opening_iff :
    placeBehind .opening ts = .opening ↔ ∀ u ∈ ts.getLast?, u.kind = .openParen := by
  unfold placeBehind
  cases ts.getLast? <;> simp [Kind.placeAfter_eq_opening_iff]

/-- The last piece before an opening, if there is one, is an opening parenthesis. -/
theorem openParen_of_placeBehind {front : List Token}
    (h : placeBehind .opening front = .opening) :
    ∀ u ∈ (pieces front).getLast?, u.kind = .openParen := by
  cases last : front.getLast? with
  | none =>
    obtain rfl := List.getLast?_eq_none_iff.1 last
    exact nofun
  | some p =>
    have paren := placeBehind_opening_iff.1 h p last
    rw [getLast?_pieces last (not_isZero_of_ne_number (by simp [paren]))]
    rintro _ ⟨⟩
    exact paren

/-- A sign or negation has a zero before it exactly if it is the first piece, or if the piece before
it is an opening parenthesis. -/
theorem Laid.zero_before_iff {front back : List Token} (h : Laid .opening start s ts)
    (settled : IsSettled .opening ts) (split : ts = front ++ t :: back)
    (sign : t.kind.IsSign ∨ t.kind = .operator .negate) :
    (∃ z ∈ front.getLast?, z.IsZero) ↔ ∀ u ∈ (pieces front).getLast?, u.kind = .openParen := by
  subst split
  constructor
  · -- The zero itself is no piece, and before it there is an opening.
    rintro ⟨z, last, zero⟩
    obtain ⟨init, rfl⟩ := List.getLast?_eq_some_iff.1 last
    have opened := (h.of_isZero (List.append_assoc ..) zero).1
    have same : pieces (init ++ [z]) = pieces init := by simp [pieces, zero]
    rw [same]
    exact openParen_of_placeBehind opened
  · intro opened
    have follows : ∃ u ∈ front.getLast?, u.kind ≠ .openParen := by
      rcases sign with sign | negation
      · obtain ⟨u, last, number | paren⟩ := settled.follows.1 sign
        · exact ⟨u, last, by simp [number]⟩
        · exact ⟨u, last, by simp [paren]⟩
      · obtain ⟨u, last, o, operator⟩ := settled.follows.2 negation
        exact ⟨u, last, by simp [operator]⟩
    obtain ⟨u, last, other⟩ := follows
    by_contra none
    exact other (opened u (getLast?_pieces last fun zero => none ⟨u, last, zero⟩))

/-- The tokens of a text are pieces of it, in their order, and zeros. Each zero stands before a sign
that is the first piece or follows an opening parenthesis, and no such sign lacks it. What belongs
to no token are blanks and the plus signs that follow an operator. -/
theorem liesIn_of_tokenize {source : String} {ts : List Token} (h : tokenize source = .ok ts) :
    LiesIn source.toList ts := by
  have laid : Laid .opening 0 source.toList ts := by
    obtain ⟨us, lexed, rfl⟩ := exists_of_tokenize h
    exact laid_of_lex lexed .opening
  have accounted {front c back} (split : source.toList = front ++ c :: back) :=
    laid.accounted split (Nat.zero_add _).symm
  have exclusive {i : Nat} {c : Char} (inside : ∃ t ∈ ts, (charSpan i c).Within t.span) :
      ¬ Outside (charSpan i c) ts := by
    obtain ⟨t, mem, within⟩ := inside
    exact fun outside => within.not_apart (Nat.lt_add_of_pos_right c.utf8Size_pos) (outside t mem)
  have operator {i : Nat} : placeBehind .opening (before i ts) = .operator ↔
      ∃ t ∈ (before i ts).getLast?, ∃ o, t.kind = .operator o := by
    simp only [placeBehind_eq_iff (show Place.opening ≠ .operator by decide),
      Kind.placeAfter_eq_operator_iff]
  refine ⟨laid.backed, laid.ordered, ?_, ?_, ?_, ?_, ?_⟩
  · exact fun front c back split => (accounted split).imp And.left And.left
  · intro front c back split outside
    rcases accounted split with ⟨inside, -⟩ | ⟨-, left⟩
    · exact absurd outside (exclusive inside)
    · exact left.imp_right And.left
  · intro front back split
    rw [← operator]
    rcases accounted split with ⟨inside, kept⟩ | ⟨outside, left⟩
    · exact iff_of_false (exclusive inside) (kept rfl)
    · refine iff_of_true outside (left.elim (fun blank => ?_) And.right)
      exact absurd blank (by decide)
  · exact fun front z back split zero => (laid.of_isZero split zero).2
  · exact fun front t back split => laid.zero_before_iff (isSettled_of_tokenize h) split

/-- Blanks, also one of two bytes inside a number, and the second plus are left out. -/
theorem liesIn_of_signs :
    ∃ ts, tokenize "+1\u00a02 *+-(-x )" = .ok ts ∧
      ts.map span = [⟨0, 0⟩, ⟨0, 1⟩, ⟨1, 5⟩, ⟨6, 7⟩, ⟨8, 9⟩, ⟨9, 10⟩, ⟨10, 10⟩, ⟨10, 11⟩, ⟨11, 12⟩,
        ⟨13, 14⟩] ∧ LiesIn "+1\u00a02 *+-(-x )".toList ts := by
  have read : List.map span <$> tokenize "+1\u00a02 *+-(-x )" = .ok [⟨0, 0⟩, ⟨0, 1⟩, ⟨1, 5⟩, ⟨6, 7⟩,
      ⟨8, 9⟩, ⟨9, 10⟩, ⟨10, 10⟩, ⟨10, 11⟩, ⟨11, 12⟩, ⟨13, 14⟩] := by
    decide +kernel
  obtain ⟨ts, tokens, spans⟩ := map_eq_ok_iff.1 read
  exact ⟨ts, tokens, spans, liesIn_of_tokenize tokens⟩

end Token

end OneUnknown
