import OneUnknown.Proofs.Grammar
import OneUnknown.Proofs.Literal

/-!
# Folded minus signs

A minus sign directly before a number is read as part of it, so that the least word can be written:
`a - 5` is the sum `a + (-5)`. The sum has the value of the difference, but where products follow
the number, the sign turns all of them round on the way, and the least word has no negation.
So a text can have a value with its minus signs kept apart (`evaluateUnfolded`) and none with folded
ones. This happens in the texts of trees that do not fold exactly and in no other ones without
operands side by side (`outcome_evaluate_of_evaluateUnfolded`).
-/

namespace OneUnknown

open OneUnknown.Symbol (ofToken)
open Token (tokenize zeroAt)

/-- The value of the text of a side where each minus sign is an operator of its own. -/
def evaluateUnfolded (policy : DivisionPolicy) (source : String) : Evaluation Linear := do
  let ts ← Logged.ofExcept ((tokenize source).mapError .read)
  if ts = [] then return .zero else evaluateSymbols policy (ts.map ofToken)

namespace Expr

variable {p : Phrase}

/-- The value in words where each minus sign subtracts or negates. -/
def plainValue (policy : DivisionPolicy) : {p : Phrase} → Expr p → Except EvalError Linear
  | _, number literal => (literal.literal false).mapError .read
  | _, paren inner => inner.plainValue policy
  | _, bare operand => operand.plainValue policy
  | _, signed .plus operand => operand.plainValue policy
  | _, signed .minus operand => do (← operand.plainValue policy).neg
  | _, single factor => factor.plainValue policy
  | _, scaled left op right => do
    let l ← left.plainValue policy
    Linear.apply policy op.op l (← right.plainValue policy)
  | _, first term => term.plainValue policy
  | _, leading sign term => do Linear.apply policy sign.op .zero (← term.plainValue policy)
  | _, added left sign right => do
    let l ← left.plainValue policy
    Linear.apply policy sign.op l (← right.plainValue policy)

/-- The sign becomes part of the number that the phrase after it starts with. -/
def foldsInto (sign : Sign) (e : Expr p) : Bool := sign = .minus && e.startsWithNumber

/-- No folded minus sign turns a product round whose value has no negation in words. If `negated`,
a minus sign before the phrase belongs to its first number. -/
def FoldsExactly (policy : DivisionPolicy) (negated : Bool) : {p : Phrase} → Expr p → Prop
  | _, number _ => True
  | _, paren inner => inner.FoldsExactly policy false
  | _, bare operand => operand.FoldsExactly policy negated
  | _, signed .plus operand => operand.FoldsExactly policy negated
  | _, signed .minus operand => operand.FoldsExactly policy operand.startsWithNumber
  | _, single factor => factor.FoldsExactly policy negated
  | _, scaled left op right =>
    left.FoldsExactly policy negated ∧ right.FoldsExactly policy false ∧
      (negated → ∀ v, (scaled left op right).plainValue policy = .ok v →
        (IntForm.ofLinear v).neg.Fits)
  | _, first term => term.FoldsExactly policy false
  | _, leading sign term => term.FoldsExactly policy (foldsInto sign term)
  | _, added left sign right =>
    left.FoldsExactly policy false ∧ right.FoldsExactly policy (foldsInto sign right)

variable {policy : DivisionPolicy}

/-! ### The plain value -/

theorem Settles.yields {e : Expr p} {us : List Symbol} (h : Settles e us) :
    Yields policy p us (e.plainValue policy) := by
  induction h with
  | number n => simpa only [plainValue] using Yields.literal false n
  | paren _ ih => simpa only [plainValue] using ih.paren
  | bare _ ih => simpa only [plainValue] using ih.factor
  | plus _ ih => simpa only [plainValue] using ih
  | minus _ ih => simpa only [plainValue] using ih.negate
  | single _ ih => simpa only [plainValue] using ih.term
  | scaled op _ _ ihLeft ihRight => simpa only [plainValue] using ihLeft.scale op ihRight
  | first _ ih => simpa only [plainValue] using ih.sum
  | leading start sign _ ih =>
    have zero := (Yields.literal false (zeroAt start)).factor.term.sum.add sign ih
    rw [literal_zeroAt] at zero
    simp only [plainValue]
    exact zero
  | added sign _ _ ihLeft ihRight => simpa only [plainValue] using ihLeft.add sign ihRight

/-! ### Overflows -/

end Expr

/-- A computation in words gives the form that denotes `f` if `P` holds, and overflows otherwise. -/
def OkIf (P : Prop) (f : IntForm) (x : Except EvalError Linear) : Prop :=
  (P → ∃ w, IntForm.ofLinear w = f ∧ x = .ok w) ∧ (¬ P → x = .error .overflow)

namespace OkIf

variable {P Q : Prop} {f g : IntForm} {x : Except EvalError Linear}

theorem of_ok {w : Linear} (same : IntForm.ofLinear w = f) : OkIf True f (.ok w) :=
  ⟨fun _ => ⟨w, same, rfl⟩, fun no => absurd trivial no⟩

theorem checked (f : IntForm) : OkIf f.Fits f f.checked := by
  refine ⟨fun fits => ?_, IntForm.checked_of_not_fits⟩
  obtain ⟨w, form⟩ := IntForm.toLinear?_of_fits fits
  rw [IntForm.toLinear?_eq_some_iff] at form
  exact ⟨w, form, IntForm.checked_eq_ok_iff.2 form⟩

theorem congr (h : OkIf P f x) (same : P ↔ Q) : OkIf Q f x :=
  ⟨fun holds => h.1 (same.2 holds), fun no => h.2 (mt same.1 no)⟩

theorem bind {k : Linear → Except EvalError Linear} (h : OkIf P f x)
    (next : ∀ w, IntForm.ofLinear w = f → OkIf Q g (k w)) : OkIf (P ∧ Q) g (x >>= k) := by
  refine ⟨?_, fun no => ?_⟩
  · rintro ⟨first, second⟩
    obtain ⟨w, same, rfl⟩ := h.1 first
    exact (next w same).1 second
  · by_cases first : P
    · obtain ⟨w, same, rfl⟩ := h.1 first
      exact (next w same).2 fun second => no ⟨first, second⟩
    · rw [h.2 first, error_bind]

/-- What follows may be known to succeed. -/
theorem bind_ok {k : Linear → Except EvalError Linear} (h : OkIf P f x) {v : Linear}
    (next : ∀ w, IntForm.ofLinear w = f → k w = .ok v) :
    OkIf P (IntForm.ofLinear v) (x >>= k) := by
  have whole : OkIf (P ∧ True) (IntForm.ofLinear v) (x >>= k) :=
    h.bind fun w same => next w same ▸ of_ok rfl
  exact whole.congr (and_iff_left trivial)

end OkIf

namespace Expr

theorem startsWithNumber_of_foldsInto {sign : Sign} {e : Expr p} (h : foldsInto sign e) :
    e.startsWithNumber := by
  rw [foldsInto, Bool.and_eq_true] at h
  exact h.2

/-- A phrase of the plain value `v` has this value with the folded sign if it folds exactly. -/
def FoldsAs (policy : DivisionPolicy) (negated : Bool) (e : Expr p) (v : Linear) : Prop :=
  OkIf (e.FoldsExactly policy negated) ((IntForm.ofLinear v).signed negated)
    (e.value policy negated)

namespace FoldsAs

theorem minus {e : Expr .factor} {a v : Linear} (negation : a.neg = .ok v)
    (h : FoldsAs policy e.startsWithNumber e a) : FoldsAs policy false (signed .minus e) v := by
  unfold FoldsAs
  simp only [FoldsExactly, value]
  by_cases number : e.startsWithNumber
  · rw [number] at h
    rw [if_pos number, number]
    rw [Linear.neg_eq, IntForm.checked_eq_ok_iff] at negation
    rw [negation]
    exact h
  · rw [Bool.eq_false_iff.2 number] at h
    rw [if_neg number, Bool.eq_false_iff.2 number]
    refine h.bind_ok fun w same => ?_
    rw [IntForm.signed_false, IntForm.ofLinear_inj] at same
    rw [same, negation]

/-- The product of a folded sign is checked once more, since its sign has turned. -/
theorem scaled {negated : Bool} {op : Scale} {l : Expr .term} {r : Expr .factor} {a b v : Linear}
    (plainLeft : l.plainValue policy = .ok a) (plainRight : r.plainValue policy = .ok b)
    (product : Linear.apply policy op.op a b = .ok v) (left : FoldsAs policy negated l a)
    (right : FoldsAs policy false r b) : FoldsAs policy negated (.scaled l op r) v := by
  have plain : (Expr.scaled l op r).plainValue policy = .ok v := by
    simp only [plainValue, plainLeft, plainRight, ok_bind, product]
  have exact : (negated → ∀ v, (Expr.scaled l op r).plainValue policy = .ok v →
      (IntForm.ofLinear v).neg.Fits) ↔ ((IntForm.ofLinear v).signed negated).Fits := by
    cases negated with
    | false => exact iff_of_true (by simp) (IntForm.fits_ofLinear v)
    | true => simp [plain]
  rw [Linear.apply_eq] at product
  obtain ⟨f, integers, words⟩ := bind_eq_ok_iff.1 product
  rw [IntForm.checked_eq_ok_iff] at words
  unfold FoldsAs
  simp only [FoldsExactly, value, exact]
  refine left.bind fun w sameLeft => right.bind fun z sameRight => ?_
  rw [IntForm.signed_false] at sameRight
  rw [Linear.apply_eq, sameLeft, sameRight, IntForm.apply_signed, integers, words]
  exact .checked (f.signed negated)

/-- A sign before a term that is added to what is to the left of it. -/
theorem addTo {e : Expr .term} {l b v : Linear} {sign : Sign}
    (sum : Linear.apply policy sign.op l b = .ok v) (h : FoldsAs policy (foldsInto sign e) e b) :
    OkIf (e.FoldsExactly policy (foldsInto sign e)) (IntForm.ofLinear v)
      (e.addTo policy sign l) := by
  have apart (folded : foldsInto sign e = false) :
      OkIf (e.FoldsExactly policy (foldsInto sign e)) (IntForm.ofLinear v)
        (e.value policy false >>= Linear.apply policy sign.op l) := by
    rw [folded] at h ⊢
    refine h.bind_ok fun w same => ?_
    rw [IntForm.signed_false, IntForm.ofLinear_inj] at same
    rw [same, sum]
  cases sign with
  | plus => exact apart rfl
  | minus =>
    by_cases number : e.startsWithNumber
    · have folded : foldsInto .minus e = true := by simp [foldsInto, number]
      simp only [Expr.addTo, if_pos number]
      rw [folded] at h ⊢
      refine h.bind_ok fun w same => ?_
      rw [Linear.add_eq, same, IntForm.signed_true, ← IntForm.sub_eq_add_neg, ← Linear.sub_eq]
      exact sum
    · simp only [Expr.addTo, if_neg number]
      exact apart (by simp [foldsInto, number])

end FoldsAs

/-- A phrase with a plain value folds as that value. -/
theorem foldsAs_of_plainValue {e : Expr p} (numerals : ∀ n ∈ e.numbers, IsNumeral n.compactText)
    {negated : Bool} (starts : negated → e.startsWithNumber) {v : Linear}
    (h : e.plainValue policy = .ok v) : FoldsAs policy negated e v := by
  induction e generalizing negated v with
  | number literal =>
    simp only [plainValue, mapError_eq_ok_iff] at h
    obtain ⟨w, same, value⟩ := exists_literal (numerals literal List.mem_cons_self) h negated
    simp only [FoldsAs, FoldsExactly, Expr.value, value]
    exact .of_ok same
  | paren inner ih | first inner ih =>
    obtain rfl : negated = false := by simpa [startsWithNumber] using starts
    exact ih numerals (by simp) h
  | bare operand ih | single operand ih => exact ih numerals starts h
  | signed sign operand ih =>
    cases sign with
    | plus => exact ih numerals starts h
    | minus =>
      obtain rfl : negated = false := by simpa [startsWithNumber] using starts
      obtain ⟨a, plain, negation⟩ := bind_eq_ok_iff.1 h
      exact .minus negation (ih numerals id plain)
  | scaled left op right ihLeft ihRight =>
    obtain ⟨a, plainLeft, h⟩ := bind_eq_ok_iff.1 h
    obtain ⟨b, plainRight, h⟩ := bind_eq_ok_iff.1 h
    refine .scaled plainLeft plainRight h ?_ ?_
    · exact ihLeft (fun n hn => numerals n (List.mem_append_left _ hn)) starts plainLeft
    · exact ihRight (fun n hn => numerals n (List.mem_append_right _ hn)) (by simp) plainRight
  | leading sign term ih =>
    obtain rfl : negated = false := by simpa [startsWithNumber] using starts
    obtain ⟨b, plain, h⟩ := bind_eq_ok_iff.1 h
    have own : FoldsAs policy (foldsInto sign term) term b :=
      ih numerals startsWithNumber_of_foldsInto plain
    simp only [FoldsAs, FoldsExactly, value_leading]
    exact own.addTo h
  | added left sign right ihLeft ihRight =>
    obtain rfl : negated = false := by simpa [startsWithNumber] using starts
    obtain ⟨a, plainLeft, h⟩ := bind_eq_ok_iff.1 h
    obtain ⟨b, plainRight, h⟩ := bind_eq_ok_iff.1 h
    have ownLeft : FoldsAs policy false left a :=
      ihLeft (fun n hn => numerals n (List.mem_append_left _ hn)) (by simp) plainLeft
    have ownRight : FoldsAs policy (foldsInto sign right) right b :=
      ihRight (fun n hn => numerals n (List.mem_append_right _ hn))
        startsWithNumber_of_foldsInto plainRight
    simp only [FoldsAs, FoldsExactly, value_added]
    refine ownLeft.bind fun w same => ?_
    rw [IntForm.signed_false, IntForm.ofLinear_inj] at same
    rw [same]
    exact ownRight.addTo h

end Expr

/-! ### Sides -/

namespace Side

/-- The value in words where each minus sign subtracts or negates. -/
def plainValue (policy : DivisionPolicy) : Side → Except EvalError Linear
  | blank => .ok .zero
  | sum e => e.plainValue policy

/-- No folded minus sign turns a product round whose value has no negation in words. -/
def FoldsExactly (policy : DivisionPolicy) : Side → Prop
  | blank => True
  | sum e => e.FoldsExactly policy false

end Side

variable {policy : DivisionPolicy} {source : String}

theorem outcome_evaluateUnfolded (policy : DivisionPolicy) (source : String) :
    (evaluateUnfolded policy source).outcome =
      (Token.lex 0 source.toList).mapError .read >>= fun ts =>
        if ts = [] then .ok .zero
        else (evaluateSymbols policy (Symbol.settled .opening ts)).outcome := by
  simp only [evaluateUnfolded, tokenize, Logged.outcome_bind, Logged.outcome_ofExcept]
  cases Token.lex 0 source.toList with
  | error e => rfl
  | ok ts =>
    change Logged.outcome (if Token.settleSigns .opening ts = [] then _ else _) = if _ then _ else _
    by_cases blank : ts = []
    · subst blank
      rfl
    · rw [if_neg (settleSigns_ne_nil blank), if_neg blank]
      rfl

theorem outcome_evaluateUnfolded_of_isParseOf {side : Side} (h : side.IsParseOf source) :
    (evaluateUnfolded policy source).outcome = side.plainValue policy := by
  rw [outcome_evaluateUnfolded]
  match side with
  | .blank =>
    rw [Token.lex_of_compact_eq_nil h 0]
    rfl
  | .sum e =>
    obtain ⟨ts, lexed, spells⟩ := Expr.IsParseOf.exists_spells h
    obtain ⟨us, settles, text⟩ := spells.settles h.1.1 []
    rw [List.append_nil, Phrase.place, Symbol.settled_nil, List.append_nil] at text
    rw [lexed, mapError_ok, ok_bind, if_neg spells.ne_nil, text]
    exact outcome_evaluateSymbols_of_yields settles.yields

/-- Where no two operands stand side by side, a value with minus signs kept apart is that of a tree.
-/
theorem exists_isParseOf_of_evaluateUnfolded {v : Linear}
    (h : (evaluateUnfolded policy source).outcome = .ok v) (alone : ¬ Juxtaposed source) :
    ∃ side : Side, side.IsParseOf source := by
  rw [outcome_evaluateUnfolded] at h
  obtain ⟨ts, lexed, h⟩ := bind_eq_ok_iff.1 h
  rw [mapError_eq_ok_iff] at lexed
  refine exists_isParseOf_of_balanced lexed ?_ alone
  by_cases blank : ts = []
  · exact Or.inl blank
  · rw [if_neg blank] at h
    exact Or.inr (balanced_of_evaluateSymbols h)

/-- Folding minus signs into numbers keeps a value exactly if no product that a sign turns round on
the way is without a negation in words; otherwise the evaluation ends with an overflow. -/
theorem outcome_evaluate_of_evaluateUnfolded {v : Linear}
    (h : (evaluateUnfolded policy source).outcome = .ok v) (alone : ¬ Juxtaposed source) :
    (∃ side : Side, side.IsParseOf source) ∧
      ∀ side : Side, side.IsParseOf source →
        (side.FoldsExactly policy → (evaluate policy source).outcome = .ok v) ∧
        (¬ side.FoldsExactly policy → (evaluate policy source).outcome = .error .overflow) := by
  refine ⟨exists_isParseOf_of_evaluateUnfolded h alone, fun side parse => ?_⟩
  rw [outcome_evaluateUnfolded_of_isParseOf parse] at h
  rw [outcome_evaluate_of_isParseOf parse]
  match side with
  | .blank => exact ⟨fun _ => h, fun folds => absurd trivial folds⟩
  | .sum e =>
    obtain ⟨exact, overflow⟩ : e.FoldsAs policy false v :=
      Expr.foldsAs_of_plainValue parse.1.2 (by simp) h
    refine ⟨fun folds => ?_, overflow⟩
    obtain ⟨w, same, value⟩ := exact folds
    rw [IntForm.signed_false, IntForm.ofLinear_inj] at same
    exact same ▸ value

theorem outcome_evaluate_folds_two_minus_three_unknown :
    (evaluateUnfolded .reject "2 - 3*x").outcome = .ok ⟨-3, 2⟩ ∧ ¬ Juxtaposed "2 - 3*x" ∧
      (Side.sum twoMinusThreeUnknown).FoldsExactly .reject ∧
      (evaluate .reject "2 - 3*x").outcome = .ok ⟨-3, 2⟩ := by
  have plain : (evaluateUnfolded .reject "2 - 3*x").outcome = .ok ⟨-3, 2⟩ := by decide +kernel
  have alone : ¬ Juxtaposed "2 - 3*x" := by decide
  have parse : (Side.sum twoMinusThreeUnknown).IsParseOf "2 - 3*x" := isParseOf_twoMinusThreeUnknown
  have folds : (Side.sum twoMinusThreeUnknown).FoldsExactly .reject := by
    refine ⟨trivial, trivial, trivial, fun _ v product => ?_⟩
    have value : v = ⟨3, 0⟩ := by
      refine Except.ok.inj (product.symm.trans ?_)
      decide +kernel
    subst value
    exact ⟨by decide, by decide⟩
  refine ⟨plain, alone, folds, ?_⟩
  exact ((outcome_evaluate_of_evaluateUnfolded plain alone).2 _ parse).1 folds

/-- The product `2 * -4611686018427387904` is the least word, so it can be subtracted, but the
folded sign asks for its negation. -/
theorem overflow_of_folded_sign :
    (evaluateUnfolded .truncate "-1 - 2 * -4611686018427387904").outcome =
        .ok ⟨0, 9223372036854775807⟩ ∧
      (evaluate .truncate "-1 - 2 * -4611686018427387904").outcome = .error .overflow := by
  decide +kernel

/-- The operator of juxtaposed operands may take others once a sign is folded. -/
example : (evaluateUnfolded .truncate "9 - 2 (3) +").outcome = .ok ⟨0, 8⟩ ∧
    (evaluate .truncate "9 - 2 (3) +").outcome = .ok ⟨0, 10⟩ := by
  decide +kernel

end OneUnknown
