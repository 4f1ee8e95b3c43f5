import OneUnknown.Machine.Text
import OneUnknown.Proofs.Lexing

/-!
# Lexing on a machine

A text may be cut exactly at the valid positions of its UTF-8 form (`isSome_splitAt?_iff`). While a
machine reads tokens, its offset stays at such positions: it stands before a suffix of the text
(`StandsBefore`), and each step moves it over characters of that suffix. So every cut is one between
characters, and the tokens are those of the whole text (`tokenize_eq`).
-/

namespace OneUnknown.Machine

open OneUnknown.Expr (IsNumberChar)
open Run Text

/-! ### Cuts -/

theorem splitAt?_append (a b : List Char) : splitAt? (a ++ b) (utf8Length a) = some (a, b) := by
  induction a with
  | nil => simp [splitAt?]
  | cons c a ih =>
    obtain ⟨n, size⟩ := Nat.exists_eq_succ_of_ne_zero c.utf8Size_pos.ne'
    rw [utf8Length_cons, size, Nat.succ_add, List.cons_append, splitAt?, if_pos (by omega), size,
      show n + utf8Length a + 1 - n.succ = utf8Length a by omega, ih]
    rfl

theorem splitAt?_eq_some_iff {s a b : List Char} {n : Nat} :
    splitAt? s n = some (a, b) ↔ s = a ++ b ∧ utf8Length a = n := by
  constructor
  · intro h
    fun_induction splitAt? s n generalizing a with
    | case1 s =>
      cases h
      exact ⟨rfl, rfl⟩
    | case2 => cases h
    | case3 c s n fits ih =>
      obtain ⟨⟨front, back⟩, cut, same⟩ := Option.map_eq_some_iff.1 h
      cases same
      obtain ⟨rfl, length⟩ := ih cut
      refine ⟨rfl, ?_⟩
      rw [utf8Length_cons, length]
      omega
    | case4 => cases h
  · rintro ⟨rfl, rfl⟩
    exact splitAt?_append a b

theorem utf8Length_toList (s : String) : utf8Length s.toList = s.utf8ByteSize := by
  obtain ⟨s, rfl⟩ := String.exists_eq_ofList s
  induction s with
  | nil => rfl
  | cons c s ih =>
    rw [String.toList_ofList] at ih ⊢
    rw [utf8Length_cons, String.ofList_cons, String.utf8ByteSize_append,
      String.utf8ByteSize_singleton, ih]

/-- A text may be cut where its UTF-8 form has a valid position, and nowhere else. -/
theorem isSome_splitAt?_iff (s : String) (n : Nat) :
    (splitAt? s.toList n).isSome ↔ String.Pos.Raw.IsValid s ⟨n⟩ := by
  rw [Option.isSome_iff_exists, String.Pos.Raw.isValid_iff_exists_append]
  constructor
  · rintro ⟨⟨a, b⟩, cut⟩
    obtain ⟨text, rfl⟩ := splitAt?_eq_some_iff.1 cut
    refine ⟨.ofList a, .ofList b, ?_, ?_⟩
    · rw [← String.ofList_append, ← text, String.ofList_toList]
    · rw [String.Pos.Raw.ext_iff, String.byteIdx_rawEndPos, ← utf8Length_toList,
        String.toList_ofList]
  · rintro ⟨a, b, rfl, stop⟩
    rw [String.Pos.Raw.ext_iff, String.byteIdx_rawEndPos, ← utf8Length_toList] at stop
    obtain rfl : n = _ := stop
    exact ⟨_, String.toList_append ▸ splitAt?_append a.toList b.toList⟩

example : splitAt? ['é', 'x'] 1 = none ∧ splitAt? ['é', 'x'] 2 = some (['é'], ['x']) := by
  decide

/-! ### Offsets -/

variable {ε : Type} {source s t : List Char} {cursor : Nat}

theorem splitAt_append (a b : List Char) :
    (splitAt (a ++ b) (utf8Length a) : Run ε _) = .ok (a, b) := by
  rw [splitAt, splitAt?_append]
  rfl

/-- The suffix `s` of the text starts at the offset `cursor`. -/
def StandsBefore (source : List Char) (cursor : Nat) (s : List Char) : Prop :=
  ∃ front, source = front ++ s ∧ cursor = utf8Length front

namespace StandsBefore

theorem start (source : List Char) : StandsBefore source 0 source := ⟨[], rfl, rfl⟩

theorem past (h : StandsBefore source cursor (s ++ t)) :
    StandsBefore source (cursor + utf8Length s) t := by
  obtain ⟨front, rfl, rfl⟩ := h
  exact ⟨front ++ s, by rw [List.append_assoc], by rw [utf8Length_append]⟩

theorem past_char {c : Char} (h : StandsBefore source cursor (c :: s)) :
    StandsBefore source (cursor + c.utf8Size) s :=
  h.past (s := [c])

theorem past_takeWhile (h : StandsBefore source cursor s) (p : Char → Bool) :
    StandsBefore source (cursor + utf8Length (s.takeWhile p)) (s.dropWhile p) :=
  past (by rwa [List.takeWhile_append_dropWhile])

theorem le (h : StandsBefore source cursor s) : cursor ≤ utf8Length source := by
  obtain ⟨front, rfl, rfl⟩ := h
  rw [utf8Length_append]
  exact Nat.le_add_right _ _

theorem rest_eq (h : StandsBefore source cursor s) : (rest source cursor : Run ε _) = .ok s := by
  obtain ⟨front, rfl, rfl⟩ := h
  rw [rest, splitAt_append]
  rfl

theorem slice_eq (h : StandsBefore source cursor (s ++ t)) :
    (slice source ⟨cursor, cursor + utf8Length s⟩ : Run ε _) = .ok s := by
  obtain ⟨front, rfl, rfl⟩ := h
  rw [slice, ← utf8Length_append, ← List.append_assoc, splitAt_append, ok_bind]
  dsimp only
  rw [splitAt_append]
  rfl

theorem tokenAt_eq (h : StandsBefore source cursor (s ++ t)) (kind : Kind) :
    (tokenAt source kind ⟨cursor, cursor + utf8Length s⟩ : Run ε _) =
      .ok ⟨kind, .ofList s, ⟨cursor, cursor + utf8Length s⟩⟩ := by
  rw [tokenAt, h.slice_eq]
  rfl

theorem peek_eq (h : StandsBefore source cursor s) :
    (peek source cursor : Run ε _) = .ok s.head? := by
  rw [peek, h.rest_eq]
  rfl

theorem find?_not_isBlank (s : List Char) :
    s.find? (fun c => !isBlank c) = (s.dropWhile isBlank).head? := by
  induction s with
  | nil => rfl
  | cons c s ih => cases blank : isBlank c <;> simp [blank, ih]

theorem peekPastBlanks_eq (h : StandsBefore source cursor s) :
    (peekPastBlanks source cursor : Run ε _) = .ok (s.dropWhile isBlank).head? := by
  rw [peekPastBlanks, h.rest_eq, ok_bind, find?_not_isBlank]
  rfl

theorem advance_eq {c : Char} (h : StandsBefore source cursor (c :: s)) :
    (advance source cursor : Run ε _) = .ok (some (cursor + c.utf8Size)) := by
  simp only [advance, h.peek_eq, ok_bind, List.head?_cons, ensure_of h.past_char.le]
  rfl

theorem takeIf_eq_some {c : Char} {p : Char → Bool} (h : StandsBefore source cursor (c :: s))
    (holds : p c) : (takeIf source p cursor : Run ε _) = .ok (some (cursor + c.utf8Size)) := by
  simp only [takeIf, h.peek_eq, ok_bind, List.head?_cons, Option.any_some, holds, if_true,
    h.advance_eq]

theorem takeIf_eq_none {p : Char → Bool} (h : StandsBefore source cursor s)
    (stops : s.head?.any p = false) : (takeIf source p cursor : Run ε _) = .ok none := by
  simp [takeIf, h.peek_eq, stops]

end StandsBefore

/-! ### Loops -/

variable {step : Nat → Run ε (Option Nat)}

theorem loop_of_none (h : step cursor = .ok none) : loop source step cursor = .ok cursor := by
  rw [loop, h]
  rfl

theorem loop_of_some {next : Nat} (h : step cursor = .ok (some next)) (forward : cursor < next)
    (within : next ≤ utf8Length source) :
    loop source step cursor = loop source step next := by
  rw [loop, h]
  exact if_pos ⟨forward, within⟩

namespace StandsBefore

theorem loop_takeIf_eq (h : StandsBefore source cursor s) (p : Char → Bool) :
    (loop source (takeIf source p) cursor : Run ε _) =
      .ok (cursor + utf8Length (s.takeWhile p)) := by
  induction s generalizing cursor with
  | nil => exact loop_of_none (h.takeIf_eq_none rfl)
  | cons c s ih =>
    cases holds : p c with
    | false =>
      rw [List.takeWhile_cons_of_neg (by simp [holds])]
      exact loop_of_none (h.takeIf_eq_none holds)
    | true =>
      have forward : cursor < cursor + c.utf8Size := Nat.lt_add_of_pos_right c.utf8Size_pos
      rw [loop_of_some (h.takeIf_eq_some holds) forward h.past_char.le, ih h.past_char,
        List.takeWhile_cons_of_pos holds, utf8Length_cons, Nat.add_assoc]

theorem skipWhile_eq (h : StandsBefore source cursor s) (p : Char → Bool) :
    (skipWhile source p cursor : Run ε _) = .ok (cursor + utf8Length (s.takeWhile p)) := by
  rw [skipWhile, h.loop_takeIf_eq, ok_bind, ensure_of (Nat.le_add_right _ _)]
  rfl

/-- Blanks and a character after them that `p` holds for. -/
theorem takePastBlanks_eq_some {c : Char} {p : Char → Bool} (h : StandsBefore source cursor s)
    (more : s.dropWhile isBlank = c :: t) (holds : p c) :
    (takePastBlanks source p cursor : Run ε _) =
      .ok (some (cursor + utf8Length (s.takeWhile isBlank ++ [c]))) := by
  have blanks := h.past_takeWhile isBlank
  rw [more] at blanks
  simp only [takePastBlanks, h.peekPastBlanks_eq, more, ok_bind, List.head?_cons, Option.any_some,
    holds, if_true, h.skipWhile_eq, blanks.advance_eq, pure_eq_ok, Option.getD_some,
    utf8Length_append, utf8Length_cons, utf8Length_nil, Nat.add_zero, Nat.add_assoc]

theorem takePastBlanks_eq_none {p : Char → Bool} (h : StandsBefore source cursor s)
    (stops : (s.dropWhile isBlank).head?.any p = false) :
    (takePastBlanks source p cursor : Run ε _) = .ok none := by
  simp [takePastBlanks, h.peekPastBlanks_eq, stops]

end StandsBefore

/-! ### Numbers -/

/-- Blanks belong to the number that follows them. -/
theorem splitNumber_blanks {blanks : List Char} (all : ∀ c ∈ blanks, isBlank c) (s : List Char) :
    (splitNumber (blanks ++ s)).1 =
      if (splitNumber s).1 = [] then [] else blanks ++ (splitNumber s).1 := by
  induction blanks with
  | nil => simp
  | cons c blanks ih =>
    have blank := all c List.mem_cons_self
    have other : ¬ IsNumberChar c := fun number => by
      rw [number.not_isBlank] at blank
      cases blank
    simp only [IsNumberChar, not_or] at other
    rw [List.cons_append, splitNumber, if_neg other.2, if_neg other.1, if_pos blank]
    dsimp only
    rw [ih fun c hc => all c (List.mem_cons_of_mem _ hc)]
    split <;> simp_all

theorem head?_dropWhile_isBlank {c : Char} (h : s.dropWhile isBlank = c :: t) :
    isBlank c = false := by
  have visible := List.head?_dropWhile_not isBlank s
  rwa [h] at visible

/-- A number at the head of a text: what is before it, its first character and the rest of it. -/
theorem splitNumber_eq (s : List Char) :
    (splitNumber s).1 =
      match s.dropWhile isBlank with
      | [] => []
      | c :: t =>
        if c = 'x' then s.takeWhile isBlank ++ [c]
        else if c.isDigit then s.takeWhile isBlank ++ c :: (splitNumber t).1
        else [] := by
  have blanks : ∀ c ∈ s.takeWhile isBlank, isBlank c := List.all_eq_true.1 List.all_takeWhile
  have parts := splitNumber_blanks blanks (s.dropWhile isBlank)
  rw [List.takeWhile_append_dropWhile] at parts
  rw [parts]
  cases first : s.dropWhile isBlank with
  | nil => rfl
  | cons c t =>
    have visible : isBlank c = false := head?_dropWhile_isBlank first
    by_cases unknown : c = 'x'
    · simp [splitNumber, unknown]
    · by_cases digit : c.isDigit
      · simp [splitNumber, unknown, digit]
      · simp [splitNumber, unknown, digit, visible]

theorem StandsBefore.parts (h : StandsBefore source cursor s) :
    StandsBefore source cursor ((splitNumber s).1 ++ (splitNumber s).2) := by
  rwa [splitNumber_append]

/-- A digit, after blanks or not, is a part of the number, and the rest of it stands behind it. -/
theorem StandsBefore.numberEnd_of_digit {c : Char} (h : StandsBefore source cursor s)
    (first : s.dropWhile isBlank = c :: t) (digit : c.isDigit) :
    (numberEnd source cursor : Run ε _) =
        numberEnd source (cursor + utf8Length (s.takeWhile isBlank ++ [c])) ∧
      StandsBefore source (cursor + utf8Length (s.takeWhile isBlank ++ [c])) t := by
  have text : (s.takeWhile isBlank ++ [c]) ++ t = s := by
    rw [List.append_assoc, List.singleton_append, ← first, List.takeWhile_append_dropWhile]
  have behind : StandsBefore source (cursor + utf8Length (s.takeWhile isBlank ++ [c])) t :=
    past (by rwa [text])
  have size : 0 < utf8Length (s.takeWhile isBlank ++ [c]) :=
    utf8Length_pos (List.concat_ne_nil c _)
  refine ⟨?_, behind⟩
  rw [numberEnd, loop_of_some (h.takePastBlanks_eq_some first digit)
    (Nat.lt_add_of_pos_right size) behind.le]
  rfl

theorem StandsBefore.numberEnd_eq (h : StandsBefore source cursor s) :
    (numberEnd source cursor : Run ε _) = .ok (cursor + utf8Length (splitNumber s).1) := by
  -- Each turn of the loop takes a digit and the blanks before it, so the induction is on the length
  -- of what is left and not on the text itself.
  induction length : s.length using Nat.strongRecOn generalizing s cursor with
  | ind n ih =>
    subst length
    rw [splitNumber_eq]
    cases first : s.dropWhile isBlank with
    | nil =>
      rw [numberEnd, loop_of_none (h.takePastBlanks_eq_none (by rw [first]; rfl)), ok_bind,
        h.takePastBlanks_eq_none (by rw [first]; rfl)]
      rfl
    | cons c t =>
      by_cases unknown : c = 'x'
      · rw [numberEnd, loop_of_none (h.takePastBlanks_eq_none (by rw [first, unknown]; rfl)),
          ok_bind, h.takePastBlanks_eq_some first (decide_eq_true unknown)]
        simp [unknown]
      by_cases digit : c.isDigit
      · obtain ⟨more, behind⟩ := h.numberEnd_of_digit (ε := ε) first digit
        have shorter : t.length < s.length := by
          have suffix := (List.dropWhile_suffix isBlank (l := s)).length_le
          rwa [first] at suffix
        rw [more, ih t.length shorter behind rfl]
        simp [unknown, digit, Nat.add_assoc]
      · rw [numberEnd, loop_of_none (h.takePastBlanks_eq_none (by simp [first, digit])), ok_bind,
          h.takePastBlanks_eq_none (by simp [first, unknown])]
        simp [unknown, digit]

/-! ### Tokens -/

/-- The blanks before a token are no part of it. -/
theorem lex_dropWhile (start : Nat) (s : List Char) :
    Token.lex start s =
      Token.lex (start + utf8Length (s.takeWhile isBlank)) (s.dropWhile isBlank) := by
  induction s generalizing start with
  | nil => rfl
  | cons c s ih =>
    cases blank : isBlank c with
    | false => simp [blank]
    | true =>
      rw [Token.lex_cons_of_blank blank, ih]
      simp [blank, Nat.add_assoc]

namespace StandsBefore

variable {c : Char}

theorem nextToken_of_nil (h : StandsBefore source cursor []) :
    nextToken source cursor = .ok none := by
  simp [nextToken, h.skipWhile_eq, h.peek_eq]

/-- A token starts at a character that is no blank. -/
theorem skipWhile_of_not_blank (h : StandsBefore source cursor (c :: s))
    (visible : isBlank c = false) :
    (skipWhile source isBlank cursor : Run ε _) = .ok cursor := by
  rw [h.skipWhile_eq, List.takeWhile_cons_of_neg (by simp [visible])]
  rfl

theorem nextToken_of_number (h : StandsBefore source cursor (c :: s)) (number : IsNumberChar c) :
    nextToken source cursor =
      .ok (some ⟨.number, .ofList (splitNumber (c :: s)).1,
        ⟨cursor, cursor + utf8Length (splitNumber (c :: s)).1⟩⟩) := by
  simp only [nextToken, h.skipWhile_of_not_blank number.not_isBlank, ok_bind, h.peek_eq,
    List.head?_cons]
  rw [if_pos (show c.isDigit ∨ c = 'x' from number), h.numberEnd_eq, ok_bind,
    h.parts.tokenAt_eq]
  rfl

theorem nextToken_of_kind (h : StandsBefore source cursor (c :: s)) {kind : Kind}
    (known : Kind.ofChar? c = some kind) :
    nextToken source cursor =
      .ok (some ⟨kind, .ofList [c], ⟨cursor, cursor + c.utf8Size⟩⟩) := by
  simp only [nextToken, h.skipWhile_of_not_blank (Kind.not_isBlank_of_ofChar? known), ok_bind,
    h.peek_eq, List.head?_cons]
  rw [if_neg (show ¬ (c.isDigit ∨ c = 'x') from Kind.not_isNumberChar_of_ofChar? known), known,
    h.advance_eq]
  exact congrArg (some <$> ·) (h.tokenAt_eq (s := [c]) kind)

theorem nextToken_of_unknown (h : StandsBefore source cursor (c :: s))
    (visible : isBlank c = false) (number : ¬ IsNumberChar c)
    (unknown : Kind.ofChar? c = none) :
    nextToken source cursor = .error (.error (.unsupported c cursor)) := by
  simp only [nextToken, h.skipWhile_of_not_blank visible, ok_bind, h.peek_eq, List.head?_cons]
  rw [if_neg (show ¬ (c.isDigit ∨ c = 'x') from number), unknown]

theorem nextToken_skip (h : StandsBefore source cursor s) :
    nextToken source cursor = nextToken source (cursor + utf8Length (s.takeWhile isBlank)) := by
  have behind := h.past_takeWhile isBlank
  have stays : (skipWhile source isBlank (cursor + utf8Length (s.takeWhile isBlank)) :
      Run ReadError _) = .ok (cursor + utf8Length (s.takeWhile isBlank)) := by
    cases text : s.dropWhile isBlank with
    | nil =>
      rw [text] at behind
      exact behind.skipWhile_eq isBlank
    | cons c t =>
      rw [text] at behind
      exact behind.skipWhile_of_not_blank (head?_dropWhile_isBlank text)
  rw [nextToken, nextToken, stays, h.skipWhile_eq]

end StandsBefore

theorem tokens_of_some {t : Token} (h : nextToken source cursor = .ok (some t))
    (forward : cursor < t.span.stop) (within : t.span.stop ≤ utf8Length source) :
    tokens source cursor = (t :: ·) <$> tokens source t.span.stop := by
  rw [tokens, h]
  exact if_pos ⟨forward, within⟩

theorem StandsBefore.tokens_eq (h : StandsBefore source cursor s) :
    tokens source cursor = sound (Token.lex cursor s) := by
  -- One token, with the blanks before it, for each turn.
  induction length : s.length using Nat.strongRecOn generalizing s cursor with
  | ind n ih =>
    subst length
    have behind := h.past_takeWhile isBlank
    rw [lex_dropWhile]
    have skip := h.nextToken_skip
    generalize start : cursor + utf8Length (s.takeWhile isBlank) = first at *
    have forward : cursor ≤ first := start ▸ Nat.le_add_right _ _
    have shorter : (s.dropWhile isBlank).length ≤ s.length :=
      (List.dropWhile_suffix isBlank).length_le
    cases text : s.dropWhile isBlank with
    | nil =>
      rw [text] at behind
      rw [tokens, skip, behind.nextToken_of_nil, Token.lex_nil]
      rfl
    | cons c t =>
      rw [text] at behind shorter
      by_cases number : IsNumberChar c
      · have token := skip.trans (behind.nextToken_of_number number)
        have parts := behind.parts
        have size := utf8Length_pos (splitNumber_ne_nil number t)
        have moves := forward.trans_lt (Nat.lt_add_of_pos_right size)
        rw [tokens_of_some token moves parts.past.le, Token.lex_cons_of_number number,
          ih _ ((length_splitNumber_lt number t).trans_le shorter) parts.past rfl]
        exact (sound_map _ _).symm
      cases known : Kind.ofChar? c with
      | some kind =>
        have token := skip.trans (behind.nextToken_of_kind known)
        have moves := forward.trans_lt (Nat.lt_add_of_pos_right c.utf8Size_pos)
        rw [tokens_of_some token moves behind.past_char.le, Token.lex_cons_of_kind known,
          ih _ (Nat.lt_of_succ_le shorter) behind.past_char rfl]
        exact (sound_map _ _).symm
      | none =>
        rw [tokens, skip, behind.nextToken_of_unknown (head?_dropWhile_isBlank text) number known,
          Token.lex_cons_of_unknown (head?_dropWhile_isBlank text) number known]
        rfl

theorem tokenize_eq (source : String) : tokenize source = sound (Token.tokenize source) := by
  rw [tokenize, (StandsBefore.start source.toList).tokens_eq, Token.tokenize]
  exact (sound_map _ _).symm

end OneUnknown.Machine
