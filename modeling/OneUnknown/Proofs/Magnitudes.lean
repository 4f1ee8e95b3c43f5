import OneUnknown.Proofs.Layout
import OneUnknown.Proofs.Literal

/-!
# Magnitudes of literals

A number token of a text is a run of digits, blanks aside, and may end with an `x`. It is read as
the number that its digits denote exactly if this number is in the range of words, which reaches one
further below zero than above; a literal out of that range is the only one that fails
(`Token.literal_of_tokenize`).
-/

namespace OneUnknown

open Text

/-- A text that does not end with a blank ends as it does without its blanks. -/
theorem Text.getLast?_compact {s : List Char} (last : ∃ c ∈ s.getLast?, isBlank c = false) :
    (compact s).getLast? = s.getLast? := by
  obtain ⟨c, ends, blank⟩ := last
  obtain ⟨front, rfl⟩ := List.getLast?_eq_some_iff.1 ends
  have alone : compact [c] = [c] := compact_eq_self (by simpa using blank)
  rw [compact_append, alone, List.getLast?_concat, List.getLast?_concat]

namespace Token

variable {source : String} {ts : List Token} {t : Token}

/-! ### The numbers of a text -/

/-- Whether the token is a multiple of the unknown. -/
def EndsWithUnknown (t : Token) : Prop := t.text.toList.getLast? = some 'x'

instance (t : Token) : Decidable t.EndsWithUnknown := inferInstanceAs (Decidable (_ = _))

theorem isNumeral_of_tokenize (h : tokenize source = .ok ts) (mem : t ∈ ts)
    (number : t.kind = .number) : Expr.IsNumeral t.compactText := by
  have shaped := shaped_of_tokenize h t mem
  rw [unsettled_of_ne (by rw [number]; decide)] at shaped
  rwa [Shaped, number] at shaped

/-- No token of a text ends with a blank. -/
theorem last_of_tokenize (h : tokenize source = .ok ts) (mem : t ∈ ts) :
    ∃ c ∈ t.text.toList.getLast?, isBlank c = false := by
  rcases (liesIn_of_tokenize h).backed t mem with zero | piece
  · have text : t.text = "0" := congrArg Token.text zero
    rw [text]
    exact ⟨'0', by decide, by decide⟩
  · exact piece.last

/-- The token is written with these digits, blanks aside. -/
structure HasDigits (t : Token) (digits : List Char) : Prop where
  digit : ∀ c ∈ digits, c.isDigit
  text : t.compactText = digits ++ if t.EndsWithUnknown then ['x'] else []
  nonempty : digits ≠ [] ∨ t.EndsWithUnknown

theorem exists_hasDigits (h : tokenize source = .ok ts) (mem : t ∈ ts) (number : t.kind = .number) :
    ∃ digits, t.HasDigits digits := by
  have ends : t.EndsWithUnknown ↔ t.compactText.getLast? = some 'x' := by
    rw [EndsWithUnknown, compactText, getLast?_compact (last_of_tokenize h mem)]
  obtain ⟨digits, all, ⟨text, nonempty⟩ | text⟩ := isNumeral_of_tokenize h mem number
  · have other : ¬ t.EndsWithUnknown := by
      rw [ends, text]
      exact fun last => unknown_not_mem_digits all (List.mem_of_getLast? last)
    refine ⟨digits, all, ?_, Or.inl nonempty⟩
    rw [if_neg other, List.append_nil, text]
  · have unknown : t.EndsWithUnknown := by
      rw [ends, text]
      exact List.getLast?_concat
    refine ⟨digits, all, ?_, Or.inr unknown⟩
    rw [if_pos unknown, text]

variable {digits : List Char}

theorem HasDigits.magnitude_eq (h : t.HasDigits digits) :
    t.magnitude = if digits = [] then 1 else Nat.ofDigitChars 10 digits 0 := by
  have kept : t.text.toList.filter Char.isDigit = digits := by
    have last : (if t.EndsWithUnknown then ['x'] else []).filter Char.isDigit = [] := by
      split <;> decide
    rw [← filter_isDigit_compact, ← compactText, h.text, List.filter_append,
      List.filter_eq_self.2 h.digit, last, List.append_nil]
  simp only [magnitude, kept]

theorem HasDigits.ofToken_eq (h : t.HasDigits digits) :
    IntForm.ofToken t = if t.EndsWithUnknown then ⟨t.magnitude, 0⟩ else ⟨0, t.magnitude⟩ := by
  have unknown : 'x' ∈ t.text.toList ↔ t.EndsWithUnknown := by
    rw [← mem_compact_unknown, ← compactText, h.text, List.mem_append,
      or_iff_right (unknown_not_mem_digits h.digit)]
    split <;> simp_all
  simp only [IntForm.ofToken, unknown]

/-! ### The range of literals -/

/-- The signed number of a token is in range up to its own bound on each side of zero. -/
theorem HasDigits.fits_iff (h : t.HasDigits digits) (negated : Bool) :
    ((IntForm.ofToken t).signed negated).Fits ↔
      t.magnitude ≤ if negated then 9223372036854775808 else 9223372036854775807 := by
  have above : Word.Fits t.magnitude ↔ t.magnitude ≤ 9223372036854775807 := by
    unfold Word.Fits
    omega
  have below : Word.Fits (-t.magnitude) ↔ t.magnitude ≤ 9223372036854775808 := by
    unfold Word.Fits
    omega
  have zero : Word.Fits 0 := by decide
  rw [h.ofToken_eq]
  cases negated <;> split <;> simp [IntForm.Fits, IntForm.neg, zero, above, below]

/-- How the numbers of every text are read, with `n` for what their digits denote. Without a sign
they can be read up to the greatest word, and with a minus sign up to the magnitude of the least.
What is read is `n`, or its negation, as the factor of the unknown or as a constant. Nothing else can
go wrong than that `n` is out of range, and then the error tells of the literal and of its place. -/
theorem literal_of_tokenize (h : tokenize source = .ok ts) (mem : t ∈ ts)
    (number : t.kind = .number) :
    ∃ digits, t.HasDigits digits ∧
      let n := if digits = [] then 1 else Nat.ofDigitChars 10 digits 0
      ((∃ v, t.literal false = .ok v) ↔ n ≤ 9223372036854775807) ∧
      ((∃ v, t.literal true = .ok v) ↔ n ≤ 9223372036854775808) ∧
      ∀ negated,
        (∀ v, t.literal negated = .ok v →
          IntForm.ofLinear v =
            (if t.EndsWithUnknown then ⟨n, 0⟩ else ⟨0, n⟩ : IntForm).signed negated) ∧
        ∀ e, t.literal negated = .error e →
          e = .outOfRange (.ofList (foldedSign negated ++ t.compactText)) t.span := by
  obtain ⟨digits, written⟩ := exists_hasDigits h mem number
  have numeral := isNumeral_of_tokenize h mem number
  have range (negated : Bool) : (∃ v, t.literal negated = .ok v) ↔
      t.magnitude ≤ if negated then 9223372036854775808 else 9223372036854775807 := by
    rw [← written.fits_iff negated]
    simp only [literal_eq_ok_iff numeral]
    refine ⟨fun ⟨v, form⟩ => form ▸ IntForm.fits_ofLinear v, fun fits => ?_⟩
    obtain ⟨v, form⟩ := IntForm.toLinear?_of_fits fits
    exact ⟨v, IntForm.toLinear?_eq_some_iff.1 form⟩
  refine ⟨digits, written, ?_⟩
  rw [← written.magnitude_eq]
  refine ⟨range false, range true, fun negated => ⟨fun v value => ?_, fun e error => ?_⟩⟩
  · rw [← written.ofToken_eq]
    exact (literal_eq_ok_iff numeral).1 value
  · rw [literal_eq numeral] at error
    cases form : ((IntForm.ofToken t).signed negated).toLinear? with
    | none =>
      rw [form] at error
      exact (Except.error.inj error).symm
    | some v =>
      rw [form] at error
      cases error

/-- The magnitude of the least word is one that only a minus sign makes a word. -/
theorem literal_of_least_magnitude :
    let t : Token := ⟨.number, "09 223372036854775808\u00a0x", ⟨2, 26⟩⟩
    ∃ ts, tokenize "- 09 223372036854775808\u00a0x " = .ok ts ∧ t ∈ ts ∧ t.kind = .number ∧
      (∃ v, t.literal true = .ok v ∧ IntForm.ofLinear v = ⟨-9223372036854775808, 0⟩) ∧
      t.literal false = .error (.outOfRange "09223372036854775808x" ⟨2, 26⟩) := by
  intro t
  have read : (fun ts => decide (t ∈ ts)) <$> tokenize "- 09 223372036854775808\u00a0x " =
      .ok true := by
    decide +kernel
  obtain ⟨ts, tokens, mem⟩ := map_eq_ok_iff.1 read
  have mem : t ∈ ts := of_decide_eq_true mem
  obtain ⟨digits, written, unsigned, signed, outcome⟩ := literal_of_tokenize tokens mem rfl
  have magnitude : t.magnitude = 9223372036854775808 := by decide +kernel
  have unknown : t.EndsWithUnknown := by decide +kernel
  rw [← written.magnitude_eq, magnitude] at unsigned signed
  rw [← written.magnitude_eq, magnitude, if_pos unknown] at outcome
  refine ⟨ts, tokens, mem, rfl, ?_, ?_⟩
  · obtain ⟨v, value⟩ := signed.2 (Nat.le_refl _)
    exact ⟨v, value, (outcome true).1 v value⟩
  · cases value : t.literal false with
    | ok v => exact absurd (unsigned.1 ⟨v, value⟩) (by decide)
    | error e =>
      rw [(outcome false).2 e value]
      decide +kernel

end Token

end OneUnknown
