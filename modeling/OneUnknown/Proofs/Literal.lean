import OneUnknown.Proofs.Arithmetic
import OneUnknown.Proofs.Lexing

/-!
# Literals

A number token whose text is a numeral, blanks aside, is read as the form of words that denotes what
its digits do, with a minus sign in front if there is one (`literal_eq`). It fails only if there is
no such form.
-/

namespace OneUnknown

open Text Token

/-! ### Digits -/

theorem filter_isDigit_compact (s : List Char) :
    (compact s).filter Char.isDigit = s.filter Char.isDigit := by
  rw [compact, List.filter_filter]
  congr 1
  funext c
  cases digit : c.isDigit with
  | false => rfl
  | true => simp [not_isBlank_of_isDigit digit]

theorem mem_compact_unknown {s : List Char} : 'x' ∈ compact s ↔ 'x' ∈ s := by
  rw [compact, List.mem_filter]
  exact and_iff_left (by decide)

/-- The magnitude of a token depends on its text without blanks only. -/
theorem magnitude_eq_of_compactText {t u : Token} (text : t.compactText = u.compactText) :
    t.magnitude = u.magnitude := by
  have digits : t.text.toList.filter Char.isDigit = u.text.toList.filter Char.isDigit := by
    rw [← filter_isDigit_compact, ← filter_isDigit_compact u.text.toList]
    exact congrArg _ text
  simp only [magnitude, digits]

theorem unknown_mem_iff_of_compactText {t u : Token} (text : t.compactText = u.compactText) :
    'x' ∈ t.text.toList ↔ 'x' ∈ u.text.toList := by
  rw [← mem_compact_unknown, ← mem_compact_unknown (s := u.text.toList)]
  exact iff_of_eq (congrArg _ text)

theorem ofToken_eq_of_compactText {t u : Token} (text : t.compactText = u.compactText) :
    IntForm.ofToken t = IntForm.ofToken u := by
  simp only [IntForm.ofToken, magnitude_eq_of_compactText text,
    unknown_mem_iff_of_compactText text]

theorem unknown_not_mem_digits {digits : List Char} (all : ∀ c ∈ digits, c.isDigit) :
    'x' ∉ digits := by
  intro mem
  exact absurd (all _ mem) (by decide)

/-- The form of a token without an `x`. -/
theorem ofToken_of_digits {t : Token} {digits : List Char} (all : ∀ c ∈ digits, c.isDigit)
    (nonempty : digits ≠ []) (text : t.compactText = digits) :
    IntForm.ofToken t = ⟨0, Nat.ofDigitChars 10 digits 0⟩ := by
  have none : 'x' ∉ t.text.toList := by
    rw [← mem_compact_unknown, ← compactText, text]
    exact unknown_not_mem_digits all
  have kept : t.text.toList.filter Char.isDigit = digits := by
    rw [← filter_isDigit_compact, ← compactText, text]
    exact List.filter_eq_self.2 all
  rw [IntForm.ofToken, if_neg none, magnitude]
  simp only [kept, if_neg nonempty]

/-- The form of a token that ends with an `x`. -/
theorem ofToken_of_unknown {t : Token} {digits : List Char} (all : ∀ c ∈ digits, c.isDigit)
    (text : t.compactText = digits ++ ['x']) :
    IntForm.ofToken t = ⟨(if digits = [] then 1 else Nat.ofDigitChars 10 digits 0 : Nat), 0⟩ := by
  have some : 'x' ∈ t.text.toList := by
    rw [← mem_compact_unknown, ← compactText, text]
    exact List.mem_append_right _ (List.mem_singleton_self _)
  have kept : t.text.toList.filter Char.isDigit = digits := by
    rw [← filter_isDigit_compact, ← compactText, text, List.filter_append,
      List.filter_eq_self.2 all]
    exact List.append_nil digits
  rw [IntForm.ofToken, if_pos some, magnitude]
  simp only [kept]

/-- A run of digits denotes a number, and after the folded sign its negation. -/
theorem integer?_foldedSign {digits : List Char} (all : ∀ c ∈ digits, c.isDigit)
    (nonempty : digits ≠ []) (negated : Bool) :
    integer? (foldedSign negated ++ digits) =
      some (if negated then -(Nat.ofDigitChars 10 digits 0 : Int)
        else Nat.ofDigitChars 10 digits 0) := by
  have natural : natural? digits = some (Nat.ofDigitChars 10 digits 0) :=
    if_pos ⟨nonempty, List.all_eq_true.2 all⟩
  cases negated with
  | true =>
    have minus : foldedSign true ++ digits = '-' :: digits := rfl
    rw [minus, integer?, natural]
    rfl
  | false =>
    have head : ∀ c ∈ digits.head?, c.isDigit := fun c hc => all c (List.mem_of_mem_head? hc)
    change integer? digits = _
    rw [integer?_eq_natural? (fun minus => absurd (head _ minus) (by decide))
      (fun plus => absurd (head _ plus) (by decide)), natural]
    rfl

/-! ### Words -/

theorem foldedSign_append_ne {digits : List Char} (nonempty : digits ≠ []) (negated : Bool) :
    foldedSign negated ++ digits ≠ foldedSign negated := by
  rwa [Ne, List.append_right_eq_self]

theorem toLinear?_constant (n : Int) :
    IntForm.toLinear? ⟨0, n⟩ = (Word.ofInt? n).map Linear.ofConstant := by
  have zero : Word.ofInt? 0 = some 0 := Word.ofInt?_eq_some_iff.2 Int64.toInt_zero
  rw [IntForm.toLinear?, zero]
  cases Word.ofInt? n <;> rfl

theorem toLinear?_coefficient (n : Int) :
    IntForm.toLinear? ⟨n, 0⟩ = (Word.ofInt? n).map (⟨·, 0⟩) := by
  have zero : Word.ofInt? 0 = some 0 := Word.ofInt?_eq_some_iff.2 Int64.toInt_zero
  rw [IntForm.toLinear?, zero]
  cases Word.ofInt? n <;> rfl

theorem map_elim_error {ε α β : Type} (f : α → β) (e : ε) (x : Option α) :
    f <$> x.elim (.error e) Except.ok = (x.map f).elim (.error e) Except.ok := by
  cases x <;> rfl

/-- What a token without an `x` is read as. -/
theorem literal_of_digits {t : Token} {digits : List Char} (all : ∀ c ∈ digits, c.isDigit)
    (nonempty : digits ≠ []) (text : t.compactText = digits) (negated : Bool) :
    t.literal negated =
      ((IntForm.ofToken t).signed negated).toLinear?.elim
        (.error (.outOfRange (.ofList (t.signedText negated)) t.span)) .ok := by
  have signed : t.signedText negated = foldedSign negated ++ digits := by
    rw [signedText, ← compactText, text]
  have last : (foldedSign negated ++ digits).getLast? ≠ some 'x' := by
    rw [List.getLast?_append_of_ne_nil _ nonempty]
    exact fun h => unknown_not_mem_digits all (List.mem_of_getLast? h)
  have form : (IntForm.ofToken t).signed negated =
      ⟨0, if negated then -(Nat.ofDigitChars 10 digits 0 : Int)
        else Nat.ofDigitChars 10 digits 0⟩ := by
    rw [ofToken_of_digits all nonempty text]
    cases negated <;> rfl
  rw [literal, signed, if_neg last, word, integer?_foldedSign all nonempty, form,
    toLinear?_constant, map_elim_error, signed]
  rfl

/-- A lone `x`, signed or not, has the factor one. -/
theorem integer?_factor {digits : List Char} (all : ∀ c ∈ digits, c.isDigit) (negated : Bool) :
    integer? (if foldedSign negated ++ digits = foldedSign negated then
        foldedSign negated ++ digits ++ ['1'] else foldedSign negated ++ digits) =
      some (if negated then -((if digits = [] then 1 else Nat.ofDigitChars 10 digits 0 : Nat) : Int)
        else (if digits = [] then 1 else Nat.ofDigitChars 10 digits 0 : Nat)) := by
  by_cases none : digits = []
  · subst none
    cases negated <;> decide
  · rw [if_neg (foldedSign_append_ne none negated), if_neg none]
    exact integer?_foldedSign all none negated

/-- What a token that ends with an `x` is read as. -/
theorem literal_of_unknown {t : Token} {digits : List Char} (all : ∀ c ∈ digits, c.isDigit)
    (text : t.compactText = digits ++ ['x']) (negated : Bool) :
    t.literal negated =
      ((IntForm.ofToken t).signed negated).toLinear?.elim
        (.error (.outOfRange (.ofList (t.signedText negated)) t.span)) .ok := by
  have signed : t.signedText negated = foldedSign negated ++ digits ++ ['x'] := by
    rw [signedText, ← compactText, text, List.append_assoc]
  have last : (foldedSign negated ++ digits ++ ['x']).getLast? = some 'x' := List.getLast?_concat
  have form : (IntForm.ofToken t).signed negated =
      ⟨if negated then -((if digits = [] then 1 else Nat.ofDigitChars 10 digits 0 : Nat) : Int)
        else (if digits = [] then 1 else Nat.ofDigitChars 10 digits 0 : Nat), 0⟩ := by
    rw [ofToken_of_unknown all text]
    cases negated <;> rfl
  rw [literal, signed, if_pos last, List.dropLast_concat]
  dsimp only
  rw [word, integer?_factor all, form, toLinear?_coefficient, map_elim_error, signed]
  rfl

/-- What a number token is read as. -/
theorem literal_eq {t : Token} (numeral : Expr.IsNumeral t.compactText) (negated : Bool) :
    t.literal negated =
      ((IntForm.ofToken t).signed negated).toLinear?.elim
        (.error (.outOfRange (.ofList (t.signedText negated)) t.span)) .ok := by
  obtain ⟨digits, all, ⟨text, nonempty⟩ | text⟩ := numeral
  · exact literal_of_digits all nonempty text negated
  · exact literal_of_unknown all text negated

theorem literal_eq_ok_iff {t : Token} (numeral : Expr.IsNumeral t.compactText) {negated : Bool}
    {v : Linear} :
    t.literal negated = .ok v ↔ IntForm.ofLinear v = (IntForm.ofToken t).signed negated := by
  rw [literal_eq numeral, ← IntForm.toLinear?_eq_some_iff]
  cases ((IntForm.ofToken t).signed negated).toLinear? <;> simp

/-- A literal that can be read without a sign can be read with a minus sign. -/
theorem exists_literal {t : Token} (numeral : Expr.IsNumeral t.compactText) {v : Linear}
    (h : t.literal false = .ok v) (negated : Bool) :
    ∃ w, IntForm.ofLinear w = (IntForm.ofLinear v).signed negated ∧ t.literal negated = .ok w := by
  rw [literal_eq_ok_iff numeral, IntForm.signed_false] at h
  have fits : ((IntForm.ofToken t).signed negated).Fits := by
    have unsigned : (IntForm.ofToken t).Fits := h ▸ IntForm.fits_ofLinear v
    unfold IntForm.ofToken IntForm.Fits Word.Fits at *
    cases negated with
    | false => exact unsigned
    | true =>
      rw [IntForm.signed_true]
      split at unsigned <;> simp_all [IntForm.neg] <;> omega
  obtain ⟨w, form⟩ := IntForm.toLinear?_of_fits fits
  rw [IntForm.toLinear?_eq_some_iff] at form
  exact ⟨w, h ▸ form, (literal_eq_ok_iff numeral).2 form⟩

end OneUnknown
