import OneUnknown.Expr.Side
import OneUnknown.Proofs.Lexing

/-!
# Spelling

`Spells e ts` relates a tree to the tokens it is read from, and `Alike e e'` two trees that differ
in the places of their numbers only. The tokens of every text that the grammar derives spell a tree
of that text (`exists_spells`), and a tree that tokens spell is the tree of their text
(`isParseOf_of_spells`); so a side that a text writes has a tree with places, alike to any other.
-/

namespace OneUnknown

open Text Token

namespace Expr

variable {p : Phrase}

/-- The tokens of a tree, before their signs are settled. -/
inductive Spells : {p : Phrase} → Expr p → List Token → Prop
  | number {n : Token} (kind : n.kind = .number) : Spells (.number n) [n]
  | paren {e : Expr .sum} {ts : List Token} {o c : Token} (opened : o.kind = .openParen)
    (inner : Spells e ts) (closed : c.kind = .closeParen) : Spells (.paren e) (o :: ts ++ [c])
  | bare {e : Expr .primary} {ts : List Token} (operand : Spells e ts) : Spells (.bare e) ts
  | signed {e : Expr .factor} {ts : List Token} {s : Token} {sign : Sign}
    (kind : s.kind = .operator (.binary sign.op)) (operand : Spells e ts) :
    Spells (.signed sign e) (s :: ts)
  | single {e : Expr .factor} {ts : List Token} (factor : Spells e ts) : Spells (.single e) ts
  | scaled {l : Expr .term} {r : Expr .factor} {us ws : List Token} {s : Token} {op : Scale}
    (left : Spells l us) (kind : s.kind = .operator (.binary op.op)) (right : Spells r ws) :
    Spells (.scaled l op r) (us ++ s :: ws)
  | first {e : Expr .term} {ts : List Token} (term : Spells e ts) : Spells (.first e) ts
  | leading {e : Expr .term} {ts : List Token} {s : Token} {sign : Sign}
    (kind : s.kind = .operator (.binary sign.op)) (term : Spells e ts) :
    Spells (.leading sign e) (s :: ts)
  | added {l : Expr .sum} {r : Expr .term} {us ws : List Token} {s : Token} {sign : Sign}
    (left : Spells l us) (kind : s.kind = .operator (.binary sign.op)) (right : Spells r ws) :
    Spells (.added l sign r) (us ++ s :: ws)

/-- The trees have the same shape, and numbers of the same text without blanks. -/
inductive Alike : {p : Phrase} → Expr p → Expr p → Prop
  | number {n m : Token} (text : n.compactText = m.compactText) : Alike (.number n) (.number m)
  | paren {e e' : Expr .sum} (inner : Alike e e') : Alike (.paren e) (.paren e')
  | bare {e e' : Expr .primary} (operand : Alike e e') : Alike (.bare e) (.bare e')
  | signed {e e' : Expr .factor} (sign : Sign) (operand : Alike e e') :
    Alike (.signed sign e) (.signed sign e')
  | single {e e' : Expr .factor} (factor : Alike e e') : Alike (.single e) (.single e')
  | scaled {l l' : Expr .term} {r r' : Expr .factor} (op : Scale) (left : Alike l l')
    (right : Alike r r') : Alike (.scaled l op r) (.scaled l' op r')
  | first {e e' : Expr .term} (term : Alike e e') : Alike (.first e) (.first e')
  | leading {e e' : Expr .term} (sign : Sign) (term : Alike e e') :
    Alike (.leading sign e) (.leading sign e')
  | added {l l' : Expr .sum} {r r' : Expr .term} (sign : Sign) (left : Alike l l')
    (right : Alike r r') : Alike (.added l sign r) (.added l' sign r')

/-! ### Trees that are alike -/

theorem Alike.unsigned {e e' : Expr p} (h : Alike e e') (unsigned : e.Unsigned) :
    e'.Unsigned := by
  induction h with
  | number | paren => trivial
  | signed | leading => exact unsigned.elim
  | bare _ ih | single _ ih | first _ ih => exact ih unsigned
  | scaled _ _ _ ih | added _ _ _ ih => exact ih unsigned

theorem Alike.proper {e e' : Expr p} (h : Alike e e') (proper : e.Proper) : e'.Proper := by
  induction h with
  | number text => trivial
  | paren _ ih | bare _ ih | signed _ _ ih | single _ ih | leading _ _ ih => exact ih proper
  | scaled _ _ _ ihLeft ihRight | added _ _ _ ihLeft ihRight =>
    exact ⟨ihLeft proper.1, ihRight proper.2⟩
  | first term ih => exact ⟨term.unsigned proper.1, ih proper.2⟩

theorem Alike.map_numbers {e e' : Expr p} (h : Alike e e') :
    e.numbers.map compactText = e'.numbers.map compactText := by
  induction h with
  | number text => simp only [numbers, List.map_cons, List.map_nil, text]
  | paren _ ih | bare _ ih | signed _ _ ih | single _ ih | first _ ih | leading _ _ ih => exact ih
  | scaled _ _ _ ihLeft ihRight | added _ _ _ ihLeft ihRight =>
    simp only [numbers, List.map_append, ihLeft, ihRight]

/-- A tree is known from its shape and its numbers. -/
theorem Alike.eq_of_numbers {e e' : Expr p} (h : Alike e e') (same : e.numbers = e'.numbers) :
    e = e' := by
  induction h with
  | number text =>
    simp only [numbers, List.cons.injEq, and_true] at same
    rw [same]
  | paren _ ih | bare _ ih | signed _ _ ih | single _ ih | first _ ih | leading _ _ ih =>
    rw [ih same]
  | scaled _ left _ ihLeft ihRight | added _ left _ ihLeft ihRight =>
    have lengths := congrArg List.length left.map_numbers
    rw [List.length_map, List.length_map] at lengths
    obtain ⟨sameLeft, sameRight⟩ := List.append_inj same lengths
    rw [ihLeft sameLeft, ihRight sameRight]

/-! ### The places of numbers -/

theorem Placed.exists_of_cons {start : Nat} {s : List Char} {n : Token} {ns : List Token}
    (h : Placed start s (n :: ns)) :
    ∃ gap text tail, s = gap ++ text ++ tail ∧ (∀ c ∈ gap, ¬ IsNumberChar c) ∧
      (∃ c ∈ text.head?, IsNumberChar c) ∧ (∃ c ∈ text.getLast?, IsNumberChar c) ∧
      n = ⟨.number, .ofList text,
        ⟨start + utf8Length gap, start + utf8Length gap + utf8Length text⟩⟩ ∧
      Placed (start + utf8Length gap + utf8Length text) tail ns := by
  cases h with
  | @cons _ gap text tail _ others head last rest =>
    exact ⟨gap, text, tail, rfl, others, head, last, rfl, rest⟩

/-- A number begins with the first character of a number. -/
theorem gap_eq_takeWhile {gap text tail : List Char} (others : ∀ c ∈ gap, ¬ IsNumberChar c)
    (head : ∃ c ∈ text.head?, IsNumberChar c) :
    gap = (gap ++ text ++ tail).takeWhile fun c => decide (¬ IsNumberChar c) := by
  obtain ⟨c, hc, number⟩ := head
  obtain ⟨text, rfl⟩ := List.head?_eq_some_iff.1 hc
  rw [List.append_assoc, List.takeWhile_append_of_pos (by simpa using others), List.cons_append,
    List.takeWhile_cons_of_neg (by simpa using number), List.append_nil]

/-- A number is no longer than one with the same characters, as it does not end with a blank. -/
theorem eq_nil_of_compact_append {text more : List Char}
    (last : ∃ c ∈ (text ++ more).getLast?, IsNumberChar c)
    (same : compact (text ++ more) = compact text) : more = [] := by
  by_contra nonempty
  obtain ⟨c, hc, number⟩ := last
  rw [List.getLast?_append_of_ne_nil _ nonempty] at hc
  have kept : c ∈ compact more :=
    List.mem_filter.2 ⟨List.mem_of_getLast? hc, by simp [number.not_isBlank]⟩
  rw [compact_append, List.append_right_eq_self] at same
  rw [same] at kept
  cases kept

/-- There is one place in a text for each of its numbers. -/
theorem Placed.eq_of_map_compactText {start : Nat} {s : List Char} {ns ms : List Token}
    (h : Placed start s ns) (h' : Placed start s ms)
    (same : ns.map compactText = ms.map compactText) : ns = ms := by
  induction ns generalizing start s ms with
  | nil => exact (List.map_eq_nil_iff.1 same.symm).symm
  | cons n ns ih =>
    cases ms with
    | nil => cases same
    | cons m ms =>
      obtain ⟨gap, text, tail, rfl, others, head, last, rfl, rest⟩ := h.exists_of_cons
      obtain ⟨gap', text', tail', split, others', head', last', rfl, rest'⟩ := h'.exists_of_cons
      obtain ⟨sameText, sameRest⟩ := List.cons.inj same
      rw [compactText_ofList, compactText_ofList] at sameText
      obtain rfl : gap = gap' := by
        rw [gap_eq_takeWhile others head, split]
        exact (gap_eq_takeWhile others' head').symm
      rw [List.append_assoc, List.append_assoc, List.append_cancel_left_eq] at split
      obtain ⟨rfl, rfl⟩ : text = text' ∧ tail = tail' := by
        rcases List.append_eq_append_iff.1 split with ⟨more, rfl, rfl⟩ | ⟨more, rfl, rfl⟩
        · simp [eq_nil_of_compact_append last' sameText.symm]
        · simp [eq_nil_of_compact_append last sameText]
      rw [ih rest rest' sameRest]

/-! ### The tree of a text -/

theorem Spells.numbers_eq {e : Expr p} {ts : List Token} (h : Spells e ts) :
    e.numbers = ts.filter (·.kind = .number) := by
  induction h with
  | number kind => simp [numbers, kind]
  | paren opened _ closed ih => simp [numbers, opened, closed, ih]
  | bare _ ih | single _ ih | first _ ih => exact ih
  | signed kind _ ih | leading kind _ ih => simp [numbers, kind, ih]
  | scaled _ kind _ ihLeft ihRight | added _ kind _ ihLeft ihRight =>
    simp [numbers, kind, ihLeft, ihRight]

theorem Spells.spelling_eq {e : Expr p} {ts : List Token} (h : Spells e ts)
    (shaped : ∀ t ∈ ts, t.Shaped) : e.spelling = ts.flatMap compactText := by
  induction h with
  | number kind => simp [spelling, compactText]
  | @paren e ts o c opened _ closed ih =>
    have textOpen := shaped o (by simp)
    have textClose := shaped c (by simp)
    rw [Shaped, opened] at textOpen
    rw [Shaped, closed] at textClose
    simp [spelling, textOpen, textClose, ih fun t ht => shaped t (by simp [ht])]
  | bare _ ih | single _ ih | first _ ih => exact ih shaped
  | @signed e ts s sign kind _ ih | @leading e ts s sign kind _ ih =>
    have text := shaped s (by simp)
    rw [Shaped, kind] at text
    simp [spelling, text, ih fun t ht => shaped t (by simp [ht])]
  | @scaled l r us ws s op _ kind _ ihLeft ihRight
  | @added l r us ws s op _ kind _ ihLeft ihRight =>
    have text := shaped s (by simp)
    rw [Shaped, kind] at text
    simp [spelling, text, ihLeft fun t ht => shaped t (by simp [ht]),
      ihRight fun t ht => shaped t (by simp [ht])]

/-- A tree that the tokens of a text spell is the tree of that text. -/
theorem isParseOf_of_spells {e : Expr .sum} {source : String} {ts : List Token}
    (lexed : lex 0 source.toList = .ok ts) (spells : Spells e ts) (proper : e.Proper) :
    e.IsParseOf source := by
  have facts := isLexed_of_lex lexed
  refine ⟨⟨proper, ?_⟩, ?_, ?_⟩
  · intro n hn
    rw [spells.numbers_eq] at hn
    obtain ⟨mem, kind⟩ := List.mem_filter.1 hn
    have shaped := facts.shaped n mem
    rwa [Shaped, of_decide_eq_true kind] at shaped
  · rw [spells.spelling_eq facts.shaped, facts.text]
  · rw [spells.numbers_eq]
    exact placed_of_lex lexed

/-! ### The tokens of a text that the grammar derives -/

/-- Lexing from byte `start` on gives the tokens `ts` first, and goes on at byte `stop`. -/
def Takes (start : Nat) (s : List Char) (ts : List Token) (stop : Nat) (rest : List Char) : Prop :=
  lex start s = (ts ++ ·) <$> lex stop rest

theorem Takes.trans {start mid stop : Nat} {s s' rest : List Char} {us ws : List Token}
    (front : Takes start s us mid s') (back : Takes mid s' ws stop rest) :
    Takes start s (us ++ ws) stop rest := by
  unfold Takes at *
  rw [front, back, Functor.map_map]
  simp only [List.append_assoc]

/-- A token that is a single character of the text. -/
theorem exists_takes_char {c : Char} {kind : Kind} (known : Kind.ofChar? c = some kind)
    {s rest : List Char} (text : compact s = c :: rest) (start : Nat) :
    ∃ (t : Token) (stop : Nat) (tail : List Char), Takes start s [t] stop tail ∧
      compact tail = rest ∧ t.kind = kind := by
  obtain ⟨place, tail, lexed, back⟩ := lex_of_compact_eq_cons text start
  refine ⟨⟨kind, .ofList [c], ⟨place, place + c.utf8Size⟩⟩, place + c.utf8Size, tail, ?_, back, rfl⟩
  unfold Takes
  rw [lexed, lex_cons_of_kind known]
  rfl

/-- A token that is a number of the text. -/
theorem exists_takes_number {numeral : List Char} (number : IsNumeral numeral) {s rest : List Char}
    (text : compact s = numeral ++ rest) (stops : ∀ c ∈ rest.head?, ¬ IsNumberChar c)
    (start : Nat) :
    ∃ (t : Token) (stop : Nat) (tail : List Char), Takes start s [t] stop tail ∧
      compact tail = rest ∧ t.kind = .number ∧ t.compactText = numeral := by
  obtain ⟨c, digits, rfl, digit⟩ := isNumberChar_of_isNumeral number
  rw [List.cons_append] at text
  obtain ⟨place, tail, lexed, back⟩ := lex_of_compact_eq_cons text start
  have blankless : ∀ d ∈ rest.head?, ¬ IsNumberChar d ∧ isBlank d = false := by
    intro d hd
    refine ⟨stops d hd, not_isBlank_of_mem_compact (s := s) ?_⟩
    rw [text, ← List.cons_append]
    exact List.mem_append_right _ (List.mem_of_mem_head? hd)
  have parts := splitNumber_compact (c :: tail)
  rw [compact_cons_of_not_blank digit.not_isBlank, back, ← List.cons_append,
    splitNumber_numeral number fun _ => blankless] at parts
  obtain ⟨front, rear⟩ := Prod.mk.inj parts
  let stop := place + utf8Length (splitNumber (c :: tail)).1
  let t : Token := ⟨.number, .ofList (splitNumber (c :: tail)).1, ⟨place, stop⟩⟩
  refine ⟨t, stop, _, ?_, rear.symm, rfl, ?_⟩
  · unfold Takes
    rw [lexed, lex_cons_of_number digit]
    rfl
  · rw [compactText_ofList]
    exact front.symm

theorem ofChar?_openParen : Kind.ofChar? '(' = some .openParen := rfl

theorem ofChar?_closeParen : Kind.ofChar? ')' = some .closeParen := rfl

theorem ofChar?_sign (op : BinaryOp) : Kind.ofChar? op.sign = some (.operator (.binary op)) := by
  cases op <;> rfl

theorem not_isNumberChar_sign (op : BinaryOp) : ¬ IsNumberChar op.sign := by
  cases op <;> decide

/-- Lexing a text that starts with a tree takes tokens that spell the tree, if what follows cannot
make the last number longer. -/
theorem exists_spells (e : Expr p) (numerals : ∀ n ∈ e.numbers, IsNumeral n.compactText)
    {s rest : List Char} (text : compact s = e.spelling ++ rest)
    (stops : ∀ c ∈ rest.head?, ¬ IsNumberChar c) (start : Nat) :
    ∃ (e' : Expr p) (ts : List Token) (stop : Nat) (tail : List Char),
      Takes start s ts stop tail ∧ compact tail = rest ∧ Spells e' ts ∧ Alike e e' := by
  induction e generalizing s rest start with
  | number literal =>
    obtain ⟨t, stop, tail, takes, back, kind, same⟩ :=
      exists_takes_number (numerals literal List.mem_cons_self) text stops start
    exact ⟨.number t, [t], stop, tail, takes, back, .number kind, .number same.symm⟩
  | paren inner ih =>
    simp only [spelling, List.cons_append, List.append_assoc] at text
    obtain ⟨o, mid, s₁, opens, text₁, opened⟩ := exists_takes_char ofChar?_openParen text start
    obtain ⟨e', ts, mid₂, s₂, takes, text₂, spells, alike⟩ :=
      ih numerals text₁ (by rintro c ⟨⟩; decide) mid
    obtain ⟨c, stop, tail, closes, back, closed⟩ := exists_takes_char ofChar?_closeParen text₂ mid₂
    exact ⟨.paren e', o :: ts ++ [c], stop, tail, (opens.trans takes).trans closes, back,
      .paren opened spells closed, .paren alike⟩
  | bare operand ih =>
    obtain ⟨e', ts, stop, tail, takes, back, spells, alike⟩ := ih numerals text stops start
    exact ⟨.bare e', ts, stop, tail, takes, back, .bare spells, .bare alike⟩
  | signed sign operand ih =>
    obtain ⟨t, mid, s₁, first, text₁, kind⟩ := exists_takes_char (ofChar?_sign sign.op) text start
    obtain ⟨e', ts, stop, tail, takes, back, spells, alike⟩ := ih numerals text₁ stops mid
    exact ⟨.signed sign e', t :: ts, stop, tail, first.trans takes, back, .signed kind spells,
      .signed sign alike⟩
  | single factor ih =>
    obtain ⟨e', ts, stop, tail, takes, back, spells, alike⟩ := ih numerals text stops start
    exact ⟨.single e', ts, stop, tail, takes, back, .single spells, .single alike⟩
  | scaled left op right ihLeft ihRight =>
    simp only [spelling, List.append_assoc, List.cons_append] at text
    obtain ⟨l, us, mid, s₁, takesLeft, text₁, spellsLeft, alikeLeft⟩ :=
      ihLeft (fun n hn => numerals n (List.mem_append_left _ hn)) text
        (by rintro c ⟨⟩; exact not_isNumberChar_sign op.op) start
    obtain ⟨t, mid₂, s₂, sign, text₂, kind⟩ := exists_takes_char (ofChar?_sign op.op) text₁ mid
    obtain ⟨r, ws, stop, tail, takesRight, back, spellsRight, alikeRight⟩ :=
      ihRight (fun n hn => numerals n (List.mem_append_right _ hn)) text₂ stops mid₂
    exact ⟨.scaled l op r, us ++ t :: ws, stop, tail, takesLeft.trans (sign.trans takesRight), back,
      .scaled spellsLeft kind spellsRight, .scaled op alikeLeft alikeRight⟩
  | first term ih =>
    obtain ⟨e', ts, stop, tail, takes, back, spells, alike⟩ := ih numerals text stops start
    exact ⟨.first e', ts, stop, tail, takes, back, .first spells, .first alike⟩
  | leading sign term ih =>
    obtain ⟨t, mid, s₁, first, text₁, kind⟩ := exists_takes_char (ofChar?_sign sign.op) text start
    obtain ⟨e', ts, stop, tail, takes, back, spells, alike⟩ := ih numerals text₁ stops mid
    exact ⟨.leading sign e', t :: ts, stop, tail, first.trans takes, back, .leading kind spells,
      .leading sign alike⟩
  | added left sign right ihLeft ihRight =>
    simp only [spelling, List.append_assoc, List.cons_append] at text
    obtain ⟨l, us, mid, s₁, takesLeft, text₁, spellsLeft, alikeLeft⟩ :=
      ihLeft (fun n hn => numerals n (List.mem_append_left _ hn)) text
        (by rintro c ⟨⟩; exact not_isNumberChar_sign sign.op) start
    obtain ⟨t, mid₂, s₂, minus, text₂, kind⟩ := exists_takes_char (ofChar?_sign sign.op) text₁ mid
    obtain ⟨r, ws, stop, tail, takesRight, back, spellsRight, alikeRight⟩ :=
      ihRight (fun n hn => numerals n (List.mem_append_right _ hn)) text₂ stops mid₂
    exact ⟨.added l sign r, us ++ t :: ws, stop, tail, takesLeft.trans (minus.trans takesRight),
      back, .added spellsLeft kind spellsRight, .added sign alikeLeft alikeRight⟩

/-- The tokens of a whole text that the grammar derives. -/
theorem WellFormed.exists_spells {e : Expr .sum} (h : e.WellFormed) {source : String}
    (text : e.spelling = compact source.toList) :
    ∃ (e' : Expr .sum) (ts : List Token),
      lex 0 source.toList = .ok ts ∧ Spells e' ts ∧ Alike e e' := by
  obtain ⟨e', ts, stop, tail, takes, back, spells, alike⟩ :=
    Expr.exists_spells e h.2 (text.symm.trans (List.append_nil _).symm) (by simp) 0
  refine ⟨e', ts, ?_, spells, alike⟩
  rw [takes, lex_of_compact_eq_nil back]
  exact congrArg Except.ok (List.append_nil ts)

theorem IsParseOf.exists_spells {e : Expr .sum} {source : String} (h : e.IsParseOf source) :
    ∃ ts, lex 0 source.toList = .ok ts ∧ Spells e ts := by
  obtain ⟨wellFormed, text, placed⟩ := h
  obtain ⟨e', ts, lexed, spells, alike⟩ := wellFormed.exists_spells text
  have placed' := placed_of_lex lexed
  rw [← spells.numbers_eq] at placed'
  have same := placed.eq_of_map_compactText placed' alike.map_numbers
  exact ⟨ts, lexed, alike.eq_of_numbers same ▸ spells⟩

end Expr

/-! ### Sides -/

namespace Side

/-- Two sides differ in the places of their numbers only. -/
inductive Alike : Side → Side → Prop
  | blank : Alike blank blank
  | sum {e e' : Expr .sum} (h : Expr.Alike e e') : Alike (sum e) (sum e')

theorem IsParseOf.writes {side : Side} {source : String} (h : side.IsParseOf source) :
    side.Writes source := by
  match side with
  | .blank => exact h
  | .sum e => exact ⟨h.1, h.2.1⟩

/-- What a text writes has a tree in which the numbers are at their places. -/
theorem Writes.exists_isParseOf {side : Side} {source : String} (h : side.Writes source) :
    ∃ side', side'.IsParseOf source ∧ Alike side side' := by
  match side with
  | .blank => exact ⟨.blank, h, .blank⟩
  | .sum e =>
    obtain ⟨wellFormed, text⟩ := h
    obtain ⟨e', ts, lexed, spells, alike⟩ := wellFormed.exists_spells text
    exact ⟨.sum e', Expr.isParseOf_of_spells lexed spells (alike.proper wellFormed.1), .sum alike⟩

end Side

end OneUnknown
