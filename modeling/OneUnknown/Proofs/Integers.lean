import OneUnknown.Proofs.Evaluation
import OneUnknown.Proofs.Literal

/-!
# Values in words and in integers

The value of a tree in words follows its value in integers of any size, until a number or a result
does not fit (`follows_value`). A folded minus sign makes all values of its product the negations of
those in integers; as products and quotients of negations are negations, nothing else changes.
So a text that the grammar derives is evaluated as over the integers, or its evaluation ends because
something is no word (`intValue_of_outcome_evaluate`).
-/

namespace OneUnknown

/-- The error tells that a number or a result is no word. -/
def EvalError.IsLimit : EvalError → Prop
  | .overflow | .read (.outOfRange ..) => True
  | _ => False

/-- A computation in words has the result of one in integers, negated if `negated`, or its error, or
it ends because something is no word. -/
inductive Follows (negated : Bool) : Except EvalError Linear → Except EvalError IntForm → Prop
  | ok {w : Linear} {f : IntForm} (same : IntForm.ofLinear w = f.signed negated) :
    Follows negated (.ok w) (.ok f)
  | error (e : EvalError) : Follows negated (.error e) (.error e)
  | limit {e : EvalError} (limit : e.IsLimit) (y : Except EvalError IntForm) :
    Follows negated (.error e) y

namespace Follows

variable {negated negated' : Bool} {policy : DivisionPolicy}

theorem bind {x : Except EvalError Linear} {y : Except EvalError IntForm}
    {g : Linear → Except EvalError Linear} {k : IntForm → Except EvalError IntForm}
    (h : Follows negated x y)
    (next : ∀ {w f}, IntForm.ofLinear w = f.signed negated → Follows negated' (g w) (k f)) :
    Follows negated' (x >>= g) (y >>= k) := by
  cases h with
  | ok same => exact next same
  | error e => exact .error e
  | limit limit y => exact .limit limit (y >>= k)

/-- A computation of negations has the negated results. -/
theorem turned {x : Except EvalError Linear} {y : Except EvalError IntForm}
    (h : Follows true x y) : Follows false x (y >>= fun f => .ok f.neg) := by
  cases h with
  | ok same => exact .ok same
  | error e => exact .error e
  | limit limit y => exact .limit limit _

/-- Checking whether the results in integers are forms of words. -/
theorem checked (y : Except EvalError IntForm) :
    Follows negated (y >>= fun f => (f.signed negated).checked) y := by
  cases y with
  | error e => exact .error e
  | ok f =>
    change Follows negated ((f.signed negated).toLinear?.elim (.error .overflow) .ok) (.ok f)
    cases h : (f.signed negated).toLinear? with
    | none => exact @limit negated .overflow trivial _
    | some w => exact .ok (IntForm.toLinear?_eq_some_iff.1 h)

theorem literal {t : Token} (numeral : Expr.IsNumeral t.compactText) :
    Follows negated ((t.literal negated).mapError .read) (.ok (.ofToken t)) := by
  rw [literal_eq numeral]
  cases h : ((IntForm.ofToken t).signed negated).toLinear? with
  | none => exact @limit negated (.read (.outOfRange _ _)) trivial _
  | some w => exact .ok (IntForm.toLinear?_eq_some_iff.1 h)

variable {l r : Linear} {f g : IntForm} (right : IntForm.ofLinear r = g)
include right

theorem scale (op : Scale) (left : IntForm.ofLinear l = f.signed negated) :
    Follows negated (Linear.apply policy op.op l r) (IntForm.apply policy op.op f g) := by
  rw [Linear.apply_eq, left, right, IntForm.apply_signed, bind_map_left]
  exact checked _

theorem apply (op : BinaryOp) (left : IntForm.ofLinear l = f) :
    Follows false (Linear.apply policy op l r) (IntForm.apply policy op f g) := by
  rw [Linear.apply_eq, left, right]
  exact checked _

omit right

theorem neg {w : Linear} (operand : IntForm.ofLinear w = f) : Follows false w.neg (.ok f.neg) := by
  rw [Linear.neg_eq, operand]
  exact checked (.ok f.neg)

/-- Adding the negation subtracts. -/
theorem add_neg (left : IntForm.ofLinear l = f) (right : IntForm.ofLinear r = g.neg) :
    Follows false (l.add r) (.ok (f.sub g)) := by
  rw [Linear.add_eq, left, right, ← IntForm.sub_eq_add_neg]
  exact checked (.ok (f.sub g))

end Follows

namespace Expr

variable {p : Phrase} {policy : DivisionPolicy}

/-- A term after a sign, added to or subtracted from what is to the left of it. -/
theorem follows_addTo {e : Expr .term} {y : Except EvalError IntForm}
    (h : ∀ negated : Bool, (negated → e.startsWithNumber) →
      Follows negated (e.value policy negated) y)
    (sign : Sign) {l : Linear} {f : IntForm} (left : IntForm.ofLinear l = f) :
    Follows false (e.addTo policy sign l) (y >>= IntForm.apply policy sign.op f) := by
  cases sign with
  | plus => exact (h false (by simp)).bind fun right => Follows.apply right .plus left
  | minus =>
    by_cases number : e.startsWithNumber
    · simp only [addTo, if_pos number]
      exact (h true fun _ => number).bind fun right => .add_neg left right
    · simp only [addTo, if_neg number]
      exact (h false (by simp)).bind fun right => Follows.apply right .minus left

/-- The value in words follows the value in integers. -/
theorem follows_value {e : Expr p} (numerals : ∀ n ∈ e.numbers, IsNumeral n.compactText)
    {negated : Bool} (starts : negated → e.startsWithNumber) :
    Follows negated (e.value policy negated) (e.intValue policy) := by
  induction e generalizing negated with
  | number literal =>
    simp only [value, intValue]
    exact .literal (numerals literal List.mem_cons_self)
  | paren inner ih =>
    obtain rfl : negated = false := by simpa [startsWithNumber] using starts
    simp only [value, intValue]
    exact ih numerals (by simp)
  | bare operand ih | single operand ih =>
    simp only [value, intValue]
    exact ih numerals (by simpa only [startsWithNumber] using starts)
  | signed sign operand ih =>
    cases sign with
    | plus =>
      simp only [value, intValue]
      exact ih numerals (by simpa only [startsWithNumber] using starts)
    | minus =>
      obtain rfl : negated = false := by simpa [startsWithNumber] using starts
      simp only [value, intValue]
      by_cases number : operand.startsWithNumber
      · rw [if_pos number]
        exact (ih numerals fun _ => number).turned
      · have own : Follows false (operand.value policy false) (operand.intValue policy) :=
          ih numerals (by simp)
        rw [if_neg number]
        exact own.bind .neg
  | scaled left op right ihLeft ihRight =>
    simp only [value, intValue]
    have ownLeft := ihLeft (fun n hn => numerals n (List.mem_append_left _ hn))
      (by simpa only [startsWithNumber] using starts)
    have ownRight : Follows false (right.value policy false) (right.intValue policy) :=
      ihRight (fun n hn => numerals n (List.mem_append_right _ hn)) (by simp)
    exact ownLeft.bind fun same => ownRight.bind fun same' => .scale same' op same
  | first term ih =>
    obtain rfl : negated = false := by simpa [startsWithNumber] using starts
    simp only [value, intValue]
    exact ih numerals (by simp)
  | leading sign term ih =>
    obtain rfl : negated = false := by simpa [startsWithNumber] using starts
    simp only [value_leading, intValue]
    exact follows_addTo (fun _ starts => ih numerals starts) sign rfl
  | added left sign right ihLeft ihRight =>
    obtain rfl : negated = false := by simpa [startsWithNumber] using starts
    simp only [value_added, intValue]
    have ownLeft : Follows false (left.value policy false) (left.intValue policy) :=
      ihLeft (fun n hn => numerals n (List.mem_append_left _ hn)) (by simp)
    have ownRight : ∀ negated : Bool, (negated → right.startsWithNumber) →
        Follows negated (right.value policy negated) (right.intValue policy) :=
      fun _ starts => ihRight (fun n hn => numerals n (List.mem_append_right _ hn)) starts
    exact ownLeft.bind fun same => follows_addTo ownRight sign same

/-- What a number denotes does not depend on its place. -/
theorem Alike.intValue_eq {e e' : Expr p} (h : Alike e e') :
    e.intValue policy = e'.intValue policy := by
  induction h with
  | number text => simp only [intValue, ofToken_eq_of_compactText text]
  | paren _ ih | bare _ ih | single _ ih | first _ ih => simpa only [intValue] using ih
  | signed sign _ ih => cases sign <;> simp only [intValue, ih]
  | scaled _ _ _ ihLeft ihRight | added _ _ _ ihLeft ihRight =>
    simp only [intValue, ihLeft, ihRight]
  | leading _ _ ih => simp only [intValue, ih]

end Expr

/-! ### Sides -/

theorem Follows.eq_ok {w : Linear} {y : Except EvalError IntForm} (h : Follows false (.ok w) y) :
    y = .ok (.ofLinear w) := by
  cases h with
  | ok same => rw [same, IntForm.signed_false]

theorem Follows.eq_error {e : EvalError} {y : Except EvalError IntForm}
    (h : Follows false (.error e) y) (other : ¬ e.IsLimit) : y = .error e := by
  cases h with
  | error => rfl
  | limit limit => exact absurd limit other

namespace Side

variable {policy : DivisionPolicy}

theorem Alike.intValue_eq {side side' : Side} (h : Alike side side') :
    side.intValue policy = side'.intValue policy := by
  cases h with
  | blank => rfl
  | sum alike => exact alike.intValue_eq

theorem follows_value {side : Side} {source : String} (parse : side.IsParseOf source) :
    Follows false (side.value policy) (side.intValue policy) := by
  match side with
  | .blank => exact .ok (by decide)
  | .sum e => exact Expr.follows_value parse.1.2 (by simp)

end Side

/-- The value of a text that the grammar derives is its value in integers of any size, and an error
of its evaluation is the first error in integers, unless it tells that something is no word. -/
theorem intValue_of_outcome_evaluate {side : Side} {source : String} (writes : side.Writes source)
    (policy : DivisionPolicy) :
    (∀ v, (evaluate policy source).outcome = .ok v →
      side.intValue policy = .ok (.ofLinear v)) ∧
    ∀ e, (evaluate policy source).outcome = .error e → ¬ e.IsLimit →
      side.intValue policy = .error e := by
  obtain ⟨side', parse, alike⟩ := writes.exists_isParseOf
  have follows : Follows false (side'.value policy) (side'.intValue policy) :=
    Side.follows_value parse
  rw [← alike.intValue_eq, ← outcome_evaluate_of_isParseOf parse] at follows
  refine ⟨fun v value => ?_, fun e error other => ?_⟩
  · rw [value] at follows
    exact follows.eq_ok
  · rw [error] at follows
    exact follows.eq_error other

/-- The tree of `2 - 3/2`. -/
def twoMinusThreeHalves : Expr .sum :=
  .added (.first (.single (.bare (.number ⟨.number, .ofList ['2'], ⟨0, 1⟩⟩)))) .minus
    (.scaled (.single (.bare (.number ⟨.number, .ofList ['3'], ⟨4, 5⟩⟩))) .divide
      (.bare (.number ⟨.number, .ofList ['2'], ⟨6, 7⟩⟩)))

theorem intValue_two_minus_three_halves :
    (Side.sum twoMinusThreeHalves).Writes "2 - 3/2" ∧
      (Side.sum twoMinusThreeHalves).intValue .truncate = .ok ⟨0, 1⟩ ∧
      ¬ EvalError.IsLimit .inexactDivision ∧
      (Side.sum twoMinusThreeHalves).intValue .reject = .error .inexactDivision := by
  have writes : (Side.sum twoMinusThreeHalves).Writes "2 - 3/2" := by decide
  have value : (evaluate .truncate "2 - 3/2").outcome = .ok ⟨0, 1⟩ := by decide +kernel
  have error : (evaluate .reject "2 - 3/2").outcome = .error .inexactDivision := by
    decide +kernel
  refine ⟨writes, ?_, id, ?_⟩
  · exact (intValue_of_outcome_evaluate writes .truncate).1 _ value
  · exact (intValue_of_outcome_evaluate writes .reject).2 _ error id

end OneUnknown
