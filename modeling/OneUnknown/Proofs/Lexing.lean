import Mathlib.Data.List.Chain
import OneUnknown.Expr
import OneUnknown.Proofs.Outcome

/-!
# Lexing

Blanks make no difference to where a number ends (`splitNumber_compact`), and a number is as long
as it can be. The tokens of a text hold all of it but blanks, in order;
each has the text that its kind asks for, and where a number directly follows a number, the first
one ends with an `x` (`isLexed_of_lex`). The numbers among them are all numbers of the text, each at
its place (`placed_of_lex`).
-/

namespace OneUnknown

open OneUnknown.Expr (IsNumeral IsNumberChar Placed)

namespace Text

theorem compact_cons_of_blank {c : Char} (h : isBlank c) (s : List Char) :
    compact (c :: s) = compact s := by
  simp [compact, h]

theorem compact_cons_of_not_blank {c : Char} (h : isBlank c = false) (s : List Char) :
    compact (c :: s) = c :: compact s := by
  simp [compact, h]

end Text

open Text

theorem Expr.IsNumberChar.not_isBlank {c : Char} (h : IsNumberChar c) : isBlank c = false := by
  rcases h with digit | rfl
  · exact not_isBlank_of_isDigit digit
  · decide

theorem Expr.IsNumeral.isNumberChar {s : List Char} (h : IsNumeral s) {c : Char} (hc : c ∈ s) :
    IsNumberChar c := by
  obtain ⟨digits, all, ⟨rfl, -⟩ | rfl⟩ := h
  · exact Or.inl (all c hc)
  · rcases List.mem_append.1 hc with digit | last
    · exact Or.inl (all c digit)
    · exact Or.inr (List.mem_singleton.1 last)

theorem Expr.IsNumeral.ne_nil {s : List Char} (h : IsNumeral s) : s ≠ [] := by
  obtain ⟨digits, -, ⟨rfl, nonempty⟩ | rfl⟩ := h
  · exact nonempty
  · exact List.concat_ne_nil 'x' digits

theorem Kind.not_isBlank_of_ofChar? {c : Char} {kind : Kind} (h : Kind.ofChar? c = some kind) :
    isBlank c = false := by
  unfold Kind.ofChar? at h
  split at h
  case h_7 => cases h
  all_goals decide

theorem Kind.not_isNumberChar_of_ofChar? {c : Char} {kind : Kind}
    (h : Kind.ofChar? c = some kind) : ¬ IsNumberChar c := by
  unfold Kind.ofChar? at h
  split at h
  case h_7 => cases h
  all_goals decide

theorem Kind.ne_number_of_ofChar? {c : Char} {kind : Kind} (h : Kind.ofChar? c = some kind) :
    kind ≠ .number := by
  rintro rfl
  unfold Kind.ofChar? at h
  split at h <;> cases h

/-! ### The end of a number -/

theorem splitNumber_compact (s : List Char) :
    splitNumber (compact s) = (compact (splitNumber s).1, compact (splitNumber s).2) := by
  fun_induction splitNumber s with
  | case1 => rfl
  | case2 s =>
    rw [compact_cons_of_not_blank (by decide), splitNumber, if_pos rfl]
    rfl
  | case3 c s unknown digit tail ih =>
    rw [compact_cons_of_not_blank (not_isBlank_of_isDigit digit), splitNumber, if_neg unknown,
      if_pos digit, ih, compact_cons_of_not_blank (not_isBlank_of_isDigit digit)]
  | case4 c s unknown digit blank tail none ih =>
    have whole := splitNumber_append s
    rw [none, List.nil_append] at whole
    rw [compact_cons_of_blank blank, ih, none, whole]
  | case5 c s unknown digit blank tail some ih =>
    rw [compact_cons_of_blank blank, ih, compact_cons_of_blank blank]
  | case6 c s unknown digit blank =>
    rw [compact_cons_of_not_blank (by simpa using blank), splitNumber, if_neg unknown,
      if_neg digit, if_neg blank]
    rfl

/-- Digits are all of a number if what follows cannot belong to it. -/
theorem splitNumber_digits {digits rest : List Char} (all : ∀ c ∈ digits, c.isDigit)
    (stop : ∀ c ∈ rest.head?, ¬ IsNumberChar c ∧ isBlank c = false) :
    splitNumber (digits ++ rest) = (digits, rest) := by
  induction digits with
  | nil =>
    cases rest with
    | nil => rfl
    | cons c rest =>
      obtain ⟨other, blank⟩ := stop c rfl
      simp only [IsNumberChar, not_or] at other
      simp [splitNumber, other, blank]
  | cons c digits ih =>
    have digit := all c List.mem_cons_self
    have other : c ≠ 'x' := by
      rintro rfl
      exact absurd digit (by decide)
    rw [List.cons_append, splitNumber, if_neg other, if_pos digit,
      ih fun c hc => all c (List.mem_cons_of_mem _ hc)]

/-- An `x` ends a number. -/
theorem splitNumber_digits_unknown {digits : List Char} (all : ∀ c ∈ digits, c.isDigit)
    (rest : List Char) :
    splitNumber (digits ++ 'x' :: rest) = (digits ++ ['x'], rest) := by
  induction digits with
  | nil => simp [splitNumber]
  | cons c digits ih =>
    have digit := all c List.mem_cons_self
    have other : c ≠ 'x' := by
      rintro rfl
      exact absurd digit (by decide)
    rw [List.cons_append, splitNumber, if_neg other, if_pos digit,
      ih fun c hc => all c (List.mem_cons_of_mem _ hc)]
    rfl

/-- The whole of a numeral is split off if it ends with an `x`, or where nothing follows that could
belong to it. -/
theorem splitNumber_numeral {s rest : List Char} (numeral : IsNumeral s)
    (stop : s.getLast? ≠ some 'x' → ∀ c ∈ rest.head?, ¬ IsNumberChar c ∧ isBlank c = false) :
    splitNumber (s ++ rest) = (s, rest) := by
  obtain ⟨digits, all, ⟨rfl, -⟩ | rfl⟩ := numeral
  · refine splitNumber_digits all (stop fun last => ?_)
    exact absurd (all 'x' (List.mem_of_getLast? last)) (by decide)
  · rw [List.append_assoc]
    exact splitNumber_digits_unknown all rest

/-- What is split off is a run of digits that could not be longer, or ends with an `x`. -/
theorem splitNumber_shape {s : List Char} (blankless : ∀ c ∈ s, isBlank c = false) :
    ∃ digits : List Char, (∀ c ∈ digits, c.isDigit) ∧
      ((splitNumber s).1 = digits ∧ (∀ c ∈ (splitNumber s).2.head?, ¬ IsNumberChar c) ∨
        (splitNumber s).1 = digits ++ ['x']) := by
  induction s with
  | nil => exact ⟨[], by simp, Or.inl (by simp [splitNumber])⟩
  | cons c s ih =>
    by_cases unknown : c = 'x'
    · exact ⟨[], by simp, Or.inr (by simp [splitNumber, unknown])⟩
    by_cases digit : c.isDigit
    · obtain ⟨digits, all, shape⟩ := ih fun c hc => blankless c (List.mem_cons_of_mem _ hc)
      refine ⟨c :: digits, ?_, ?_⟩
      · intro d hd
        rcases List.mem_cons.1 hd with rfl | hd
        · exact digit
        · exact all d hd
      · rw [splitNumber, if_neg unknown, if_pos digit]
        rcases shape with ⟨front, stop⟩ | front
        · exact Or.inl ⟨congrArg (c :: ·) front, stop⟩
        · exact Or.inr (congrArg (c :: ·) front)
    · have other : ¬ IsNumberChar c := by simp [IsNumberChar, digit, unknown]
      have blank := blankless c List.mem_cons_self
      refine ⟨[], by simp, Or.inl ?_⟩
      simp [splitNumber, unknown, digit, blank, other]

/-- A number does not end with a blank. -/
theorem exists_getLast?_splitNumber {s : List Char} (h : (splitNumber s).1 ≠ []) :
    ∃ c ∈ (splitNumber s).1.getLast?, IsNumberChar c := by
  fun_induction splitNumber s with
  | case1 => exact absurd rfl h
  | case2 s => exact ⟨'x', rfl, Or.inr rfl⟩
  | case3 c s unknown digit tail ih =>
    by_cases last : tail.1 = []
    · rw [last]
      exact ⟨c, rfl, Or.inl digit⟩
    · rw [List.getLast?_cons_of_ne_nil last]
      exact ih last
  | case4 => exact absurd rfl h
  | case5 c s unknown digit blank tail some ih =>
    rw [List.getLast?_cons_of_ne_nil some]
    exact ih some
  | case6 => exact absurd rfl h

/-- A number begins with the character that it was found by. -/
theorem head?_splitNumber {c : Char} (h : IsNumberChar c) (s : List Char) :
    (splitNumber (c :: s)).1.head? = some c := by
  obtain ⟨d, front, text⟩ := List.exists_cons_of_ne_nil (splitNumber_ne_nil h s)
  have whole := splitNumber_append (c :: s)
  rw [text] at whole ⊢
  exact congrArg some (List.cons.inj whole).1

theorem isNumberChar_or_isBlank_of_mem_splitNumber {s : List Char} {c : Char}
    (h : c ∈ (splitNumber s).1) : IsNumberChar c ∨ isBlank c := by
  fun_induction splitNumber s with
  | case1 => cases h
  | case2 s => exact Or.inl (Or.inr (List.mem_singleton.1 h))
  | case3 d s unknown digit tail ih =>
    rcases List.mem_cons.1 h with rfl | h
    · exact Or.inl (Or.inl digit)
    · exact ih h
  | case4 => cases h
  | case5 d s unknown digit blank tail some ih =>
    rcases List.mem_cons.1 h with rfl | h
    · exact Or.inr blank
    · exact ih h
  | case6 => cases h

/-! ### One token -/

namespace Token

theorem lex_nil (start : Nat) : lex start [] = .ok [] := by
  rw [lex]

theorem lex_cons_of_blank {c : Char} (h : isBlank c) (start : Nat) (s : List Char) :
    lex start (c :: s) = lex (start + c.utf8Size) s := by
  rw [lex, if_pos h]

theorem lex_cons_of_number {c : Char} (h : IsNumberChar c) (start : Nat) (s : List Char) :
    lex start (c :: s) =
      (⟨.number, .ofList (splitNumber (c :: s)).1,
          ⟨start, start + utf8Length (splitNumber (c :: s)).1⟩⟩ :: ·) <$>
        lex (start + utf8Length (splitNumber (c :: s)).1) (splitNumber (c :: s)).2 := by
  rw [lex, if_neg (by simp [h.not_isBlank]), dif_pos (show c.isDigit ∨ c = 'x' from h)]

theorem lex_cons_of_kind {c : Char} {kind : Kind} (h : Kind.ofChar? c = some kind) (start : Nat)
    (s : List Char) :
    lex start (c :: s) =
      (⟨kind, .ofList [c], ⟨start, start + c.utf8Size⟩⟩ :: ·) <$> lex (start + c.utf8Size) s := by
  rw [lex, if_neg (by simp [Kind.not_isBlank_of_ofChar? h]),
    dif_neg (show ¬ (c.isDigit ∨ c = 'x') from Kind.not_isNumberChar_of_ofChar? h), h]

theorem lex_cons_of_unknown {c : Char} (blank : isBlank c = false) (number : ¬ IsNumberChar c)
    (unknown : Kind.ofChar? c = none) (start : Nat) (s : List Char) :
    lex start (c :: s) = .error (.unsupported c start) := by
  rw [lex, if_neg (by simp [blank]), dif_neg (show ¬ (c.isDigit ∨ c = 'x') from number), unknown]

/-- The blanks before the first character of a token make no difference but to its place. -/
theorem lex_of_compact_eq_cons {s : List Char} {c : Char} {rest : List Char}
    (h : compact s = c :: rest) (start : Nat) :
    ∃ start' tail, lex start s = lex start' (c :: tail) ∧ compact tail = rest := by
  induction s generalizing start with
  | nil => cases h
  | cons d s ih =>
    cases blank : isBlank d with
    | true =>
      rw [compact_cons_of_blank blank] at h
      rw [lex_cons_of_blank blank]
      exact ih h _
    | false =>
      rw [compact_cons_of_not_blank blank] at h
      obtain ⟨rfl, rest⟩ := List.cons.inj h
      exact ⟨start, s, rfl, rest⟩

theorem lex_of_compact_eq_nil {s : List Char} (h : compact s = []) (start : Nat) :
    lex start s = .ok [] := by
  induction s generalizing start with
  | nil => exact lex_nil start
  | cons c s ih =>
    cases blank : isBlank c with
    | true =>
      rw [compact_cons_of_blank blank] at h
      rw [lex_cons_of_blank blank]
      exact ih h _
    | false =>
      rw [compact_cons_of_not_blank blank] at h
      cases h

/-! ### All tokens of a text -/

/-- The text of a token without its blanks. -/
def compactText (t : Token) : List Char := compact t.text.toList

theorem compactText_ofList (kind : Kind) (s : List Char) (span : Span) :
    compactText ⟨kind, .ofList s, span⟩ = compact s := by
  simp [compactText]

/-- The token has a text that its kind asks for. No text asks for a negation. -/
def Shaped (t : Token) : Prop :=
  match t.kind with
  | .number => IsNumeral t.compactText
  | .openParen => t.compactText = ['(']
  | .closeParen => t.compactText = [')']
  | .operator (.binary op) => t.compactText = [op.sign]
  | .operator .negate => False

theorem shaped_of_ofChar? {c : Char} {kind : Kind} (h : Kind.ofChar? c = some kind) (span : Span) :
    Shaped ⟨kind, .ofList [c], span⟩ := by
  unfold Kind.ofChar? at h
  split at h
  case h_7 => cases h
  all_goals
    cases h
    simp only [Shaped, compactText_ofList]
    rfl

/-- The tokens hold all of a text but its blanks, and each number is as long as it can be. -/
structure IsLexed (s : List Char) (ts : List Token) : Prop where
  text : ts.flatMap compactText = compact s
  shaped : ∀ t ∈ ts, t.Shaped
  maximal : ts.IsChain fun t u =>
    t.kind = .number → u.kind = .number → t.compactText.getLast? = some 'x'

theorem isNumberChar_of_isNumeral {s : List Char} (h : IsNumeral s) :
    ∃ c rest, s = c :: rest ∧ IsNumberChar c := by
  obtain ⟨c, rest, rfl⟩ := List.exists_cons_of_ne_nil h.ne_nil
  exact ⟨c, rest, rfl, h.isNumberChar List.mem_cons_self⟩

/-- A number at the head of tokens stands at the head of their text. -/
theorem IsLexed.head_isNumberChar {s : List Char} {t : Token} {ts : List Token}
    (h : IsLexed s (t :: ts)) (number : t.kind = .number) :
    ∃ c ∈ (compact s).head?, IsNumberChar c := by
  have shaped := h.shaped t List.mem_cons_self
  rw [Shaped, number] at shaped
  obtain ⟨c, rest, text, digit⟩ := isNumberChar_of_isNumeral shaped
  refine ⟨c, ?_, digit⟩
  rw [← h.text, List.flatMap_cons, text]
  rfl

theorem isNumeral_splitNumber {c : Char} {s : List Char} (h : IsNumberChar c) :
    IsNumeral (compact (splitNumber (c :: s)).1) ∧
      ((∃ d ∈ (compact (splitNumber (c :: s)).2).head?, IsNumberChar d) →
        (compact (splitNumber (c :: s)).1).getLast? = some 'x') := by
  have parts := splitNumber_compact (c :: s)
  rw [compact_cons_of_not_blank h.not_isBlank] at parts
  have nonempty := splitNumber_ne_nil h (compact s)
  have blankless : ∀ d ∈ c :: compact s, isBlank d = false := by
    intro d hd
    rcases List.mem_cons.1 hd with rfl | hd
    · exact h.not_isBlank
    · exact not_isBlank_of_mem_compact hd
  obtain ⟨digits, all, shape⟩ := splitNumber_shape blankless
  rw [parts] at shape nonempty
  dsimp only at shape nonempty
  rcases shape with ⟨front, stop⟩ | front
  · refine ⟨⟨digits, all, Or.inl ⟨front, front ▸ nonempty⟩⟩, ?_⟩
    rintro ⟨d, hd, digit⟩
    exact absurd digit (stop d hd)
  · exact ⟨⟨digits, all, Or.inr front⟩, fun _ => by simp [front]⟩

/-- A token may be put before those of the rest of a text. A number must end where it is followed by
another one. -/
theorem IsLexed.cons {s rest : List Char} {t : Token} {ts : List Token}
    (text : t.compactText ++ compact rest = compact s) (shaped : t.Shaped)
    (maximal : t.kind = .number → (∃ c ∈ (compact rest).head?, IsNumberChar c) →
      t.compactText.getLast? = some 'x')
    (h : IsLexed rest ts) : IsLexed s (t :: ts) := by
  refine ⟨?_, ?_, ?_⟩
  · rw [List.flatMap_cons, h.text, text]
  · intro u hu
    rcases List.mem_cons.1 hu with rfl | hu
    · exact shaped
    · exact h.shaped u hu
  · cases ts with
    | nil => exact .singleton t
    | cons u ts =>
      exact .cons_cons (fun own next => maximal own (h.head_isNumberChar next)) h.maximal

theorem isLexed_of_lex {start : Nat} {s : List Char} {ts : List Token}
    (h : lex start s = .ok ts) : IsLexed s ts := by
  induction start, s using lex.induct generalizing ts with
  | case1 start =>
    rw [lex_nil] at h
    cases h
    exact ⟨rfl, by simp, .nil⟩
  | case2 start c s blank ih =>
    rw [lex_cons_of_blank blank] at h
    have inner := ih h
    exact ⟨(compact_cons_of_blank blank s).symm ▸ inner.text, inner.shaped, inner.maximal⟩
  | case3 start c s blank number shorter parts stop =>
    rename_i ih
    rw [lex_cons_of_number number] at h
    obtain ⟨us, lexed, rfl⟩ := map_eq_ok_iff.1 h
    obtain ⟨numeral, maximal⟩ := isNumeral_splitNumber (s := s) number
    refine (ih lexed).cons ?_ ?_ fun _ => ?_
    · rw [compactText_ofList, ← compact_append]
      exact congrArg compact (splitNumber_append (c :: s))
    · rw [Shaped, compactText_ofList]
      exact numeral
    · rw [compactText_ofList]
      exact maximal
  | case4 start c s blank number kind known stop =>
    rename_i ih
    rw [lex_cons_of_kind known] at h
    obtain ⟨us, lexed, rfl⟩ := map_eq_ok_iff.1 h
    refine (ih lexed).cons ?_ (shaped_of_ofChar? known _) fun same => ?_
    · rw [compactText_ofList, ← compact_append]
      rfl
    · exact absurd same (Kind.ne_number_of_ofChar? known)
  | case5 start c s blank number unknown =>
    rw [lex_cons_of_unknown (by simpa using blank) number unknown] at h
    cases h

/-! ### The places of numbers -/

/-- What is no part of a number may be put before the numbers of a text. -/
theorem placed_cons {c : Char} (h : ¬ IsNumberChar c) {start : Nat} {s : List Char}
    {ns : List Token} (placed : Placed (start + c.utf8Size) s ns) : Placed start (c :: s) ns := by
  cases placed with
  | nil others =>
    refine .nil fun d hd => ?_
    rcases List.mem_cons.1 hd with rfl | hd
    · exact h
    · exact others d hd
  | @cons _ gap text tail ns others head last rest =>
    have longer : ∀ d ∈ c :: gap, ¬ IsNumberChar d := by
      intro d hd
      rcases List.mem_cons.1 hd with rfl | hd
      · exact h
      · exact others d hd
    have moved := @Placed.cons start (c :: gap) text tail ns longer head last (by
      rw [utf8Length_cons, ← Nat.add_assoc]
      exact rest)
    rw [utf8Length_cons, ← Nat.add_assoc] at moved
    exact moved

theorem placed_of_lex {start : Nat} {s : List Char} {ts : List Token} (h : lex start s = .ok ts) :
    Placed start s (ts.filter (·.kind = .number)) := by
  induction start, s using lex.induct generalizing ts with
  | case1 start =>
    rw [lex_nil] at h
    cases h
    exact .nil (by simp)
  | case2 start c s blank ih =>
    rw [lex_cons_of_blank blank] at h
    refine placed_cons (fun number => ?_) (ih h)
    rw [number.not_isBlank] at blank
    cases blank
  | case3 start c s blank number shorter parts stop =>
    rename_i ih
    rw [lex_cons_of_number number] at h
    obtain ⟨us, lexed, rfl⟩ := map_eq_ok_iff.1 h
    have nonempty := splitNumber_ne_nil number s
    have placed := @Placed.cons start [] _ _ _ (by simp)
      ⟨c, head?_splitNumber number s, number⟩ (exists_getLast?_splitNumber nonempty) (ih lexed)
    rw [List.nil_append, splitNumber_append] at placed
    exact placed
  | case4 start c s blank number kind known stop =>
    rename_i ih
    rw [lex_cons_of_kind known] at h
    obtain ⟨us, lexed, rfl⟩ := map_eq_ok_iff.1 h
    have other := Kind.ne_number_of_ofChar? known
    rw [List.filter_cons_of_neg (by simpa using other)]
    exact placed_cons (Kind.not_isNumberChar_of_ofChar? known) (ih lexed)
  | case5 start c s blank number unknown =>
    rw [lex_cons_of_unknown (by simpa using blank) number unknown] at h
    cases h

end Token

end OneUnknown
