import OneUnknown.Proofs.Precedence
import OneUnknown.Proofs.Spelling

/-!
# The signs of a tree

Settling the signs of the tokens of a tree gives the symbols of the tree with a zero before each
sign that opens a sum (`Spells.settles`); attaching minus signs to numbers then gives symbols that
yield the value of the tree (`Settles.attached`). With the two stacks this makes the evaluation of a
text equal to the value of its tree (`outcome_evaluate_of_isParseOf`).
-/

namespace OneUnknown

open OneUnknown.Symbol Token

/-- The place in which a phrase stands: only a sum is opened. -/
def Phrase.place : Phrase → Place
  | .sum => .opening
  | .primary | .factor | .term => .operator

/-! ### Settled symbols -/

namespace Symbol

/-- The symbols of tokens whose signs are settled, each sign on its own. -/
def settled (place : Place) (ts : List Token) : List Symbol := (settleSigns place ts).map ofToken

theorem ofTokens_settleSigns (place : Place) (ts : List Token) :
    ofTokens (settleSigns place ts) = (settled place ts).foldr attach [] := by
  rw [settled, List.foldr_map]
  rfl

theorem attach_nil (u : Symbol) : attach u [] = [u] := by
  rcases u with _ | (op | _) | _ | _
  case operator.binary => cases op <;> rfl
  all_goals rfl

/-- Nothing is attached to what follows a number. -/
theorem ofTokens_cons_of_number {t : Token} (h : t.kind = .number) (ts : List Token) :
    ofTokens (t :: ts) = .literal false t :: ofTokens ts := by
  obtain ⟨kind, text, span⟩ := t
  obtain rfl : kind = .number := h
  rfl

/-- The symbol with its token changed by `f`. -/
def mapToken (f : Token → Token) : Symbol → Symbol
  | .literal negated number => .literal negated (f number)
  | other => other

/-- Whether a sign is attached does not depend on what the numbers are. -/
theorem attach_mapToken (f : Token → Token) (u : Symbol) (us : List Symbol) :
    attach (u.mapToken f) (us.map (mapToken f)) = (attach u us).map (mapToken f) := by
  match us with
  | [] | .operator _ :: _ | .openParen :: _ | .closeParen :: _ | .literal true _ :: _
  | .literal false _ :: _ =>
    rcases u with _ | (op | _) | _ | _
    case operator.binary => cases op <;> rfl
    all_goals rfl

theorem ofTokens_map {f : Token → Token} (kinds : ∀ t, (f t).kind = t.kind) (ts : List Token) :
    ofTokens (ts.map f) = (ofTokens ts).map (mapToken f) := by
  have alone (t : Token) : ofToken (f t) = (ofToken t).mapToken f := by
    unfold ofToken
    rw [kinds]
    cases t.kind <;> rfl
  induction ts with
  | nil => rfl
  | cons t ts ih =>
    rw [ofTokens] at ih ⊢
    rw [List.map_cons, List.foldr_cons, ih, alone, attach_mapToken]
    rfl

variable {t : Token} (place : Place) (ts : List Token)

@[simp] theorem settled_nil : settled place [] = [] := rfl

theorem settled_of_number (h : t.kind = .number) :
    settled place (t :: ts) = .literal false t :: settled .operand ts := by
  obtain ⟨kind, text, span⟩ := t
  obtain rfl : kind = .number := h
  cases place <;> rfl

theorem settled_of_openParen (h : t.kind = .openParen) :
    settled place (t :: ts) = .openParen :: settled .opening ts := by
  obtain ⟨kind, text, span⟩ := t
  obtain rfl : kind = .openParen := h
  cases place <;> rfl

theorem settled_of_closeParen (h : t.kind = .closeParen) :
    settled place (t :: ts) = .closeParen :: settled .operand ts := by
  obtain ⟨kind, text, span⟩ := t
  obtain rfl : kind = .closeParen := h
  cases place <;> rfl

theorem settled_of_scale {op : Scale} (h : t.kind = .operator (.binary op.op)) :
    settled place (t :: ts) = .operator (.binary op.op) :: settled .operator ts := by
  obtain ⟨kind, text, span⟩ := t
  obtain rfl : kind = .operator (.binary op.op) := h
  cases place <;> cases op <;> rfl

variable {sign : Sign} (h : t.kind = .operator (.binary sign.op))
include h

theorem settled_operand_of_sign :
    settled .operand (t :: ts) = .operator (.binary sign.op) :: settled .operator ts := by
  obtain ⟨kind, text, span⟩ := t
  obtain rfl : kind = .operator (.binary sign.op) := h
  cases sign <;> rfl

theorem settled_opening_of_sign :
    settled .opening (t :: ts) =
      .literal false (zeroAt t.span.start) :: .operator (.binary sign.op) ::
        settled .operator ts := by
  obtain ⟨kind, text, span⟩ := t
  obtain rfl : kind = .operator (.binary sign.op) := h
  cases sign <;> rfl

omit h

theorem settled_operator_of_plus (h : t.kind = .operator (.binary .plus)) :
    settled .operator (t :: ts) = settled .operator ts := by
  obtain ⟨kind, text, span⟩ := t
  obtain rfl : kind = .operator (.binary .plus) := h
  rfl

theorem settled_operator_of_minus (h : t.kind = .operator (.binary .minus)) :
    settled .operator (t :: ts) = .operator .negate :: settled .operator ts := by
  obtain ⟨kind, text, span⟩ := t
  obtain rfl : kind = .operator (.binary .minus) := h
  rfl

end Symbol

namespace Expr

variable {p : Phrase}

/-- The symbols of a tree with settled signs. The zero before a sign may stand anywhere. -/
inductive Settles : {p : Phrase} → Expr p → List Symbol → Prop
  | number (n : Token) : Settles (.number n) [.literal false n]
  | paren {e : Expr .sum} {us : List Symbol} (inner : Settles e us) :
    Settles (.paren e) (.openParen :: us ++ [.closeParen])
  | bare {e : Expr .primary} {us : List Symbol} (operand : Settles e us) : Settles (.bare e) us
  | plus {e : Expr .factor} {us : List Symbol} (operand : Settles e us) :
    Settles (.signed .plus e) us
  | minus {e : Expr .factor} {us : List Symbol} (operand : Settles e us) :
    Settles (.signed .minus e) (.operator .negate :: us)
  | single {e : Expr .factor} {us : List Symbol} (factor : Settles e us) : Settles (.single e) us
  | scaled {l : Expr .term} {r : Expr .factor} {us ws : List Symbol} (op : Scale)
    (left : Settles l us) (right : Settles r ws) :
    Settles (.scaled l op r) (us ++ .operator (.binary op.op) :: ws)
  | first {e : Expr .term} {us : List Symbol} (term : Settles e us) : Settles (.first e) us
  | leading {e : Expr .term} {us : List Symbol} (start : Nat) (sign : Sign) (term : Settles e us) :
    Settles (.leading sign e)
      (.literal false (zeroAt start) :: .operator (.binary sign.op) :: us)
  | added {l : Expr .sum} {r : Expr .term} {us ws : List Symbol} (sign : Sign)
    (left : Settles l us) (right : Settles r ws) :
    Settles (.added l sign r) (us ++ .operator (.binary sign.op) :: ws)

/-- A phrase without a sign in front is settled alike at every place. -/
theorem Spells.settled_eq {e : Expr p} {ts : List Token} (h : Spells e ts)
    (unsigned : e.Unsigned) (place place' : Place) (rest : List Token) :
    settled place (ts ++ rest) = settled place' (ts ++ rest) := by
  induction h generalizing rest with
  | number kind =>
    rw [List.singleton_append, settled_of_number _ _ kind, settled_of_number _ _ kind]
  | paren opened _ _ _ =>
    simp only [List.cons_append, settled_of_openParen _ _ opened]
  | bare _ ih | single _ ih | first _ ih => exact ih unsigned rest
  | signed | leading => exact unsigned.elim
  | scaled _ _ _ ih | added _ _ _ ih =>
    rw [List.append_assoc]
    exact ih unsigned _

/-- Settling the tokens of a tree, whatever follows it. -/
theorem Spells.settles {e : Expr p} {ts : List Token} (h : Spells e ts) (proper : e.Proper)
    (rest : List Token) :
    ∃ us, Settles e us ∧ settled p.place (ts ++ rest) = us ++ settled .operand rest := by
  induction h generalizing rest with
  | @number n kind => exact ⟨[.literal false n], .number n, settled_of_number _ _ kind⟩
  | @paren e ts o c opened _ closed ih =>
    obtain ⟨us, settles, text⟩ := ih proper (c :: rest)
    refine ⟨.openParen :: us ++ [.closeParen], .paren settles, ?_⟩
    rw [List.append_assoc, List.cons_append, settled_of_openParen _ _ opened]
    simp only [Phrase.place] at text
    simp only [List.cons_append, List.nil_append, List.append_assoc, text,
      settled_of_closeParen _ _ closed]
  | bare _ ih =>
    obtain ⟨us, settles, text⟩ := ih proper rest
    exact ⟨us, .bare settles, text⟩
  | @signed e ts s sign kind _ ih =>
    obtain ⟨us, settles, text⟩ := ih proper rest
    cases sign with
    | plus => exact ⟨us, .plus settles, (settled_operator_of_plus _ kind).trans text⟩
    | minus =>
      exact ⟨.operator .negate :: us, .minus settles,
        (settled_operator_of_minus _ kind).trans (congrArg _ text)⟩
  | single _ ih =>
    obtain ⟨us, settles, text⟩ := ih proper rest
    exact ⟨us, .single settles, text⟩
  | @scaled l r us ws s op _ kind _ ihLeft ihRight =>
    obtain ⟨us', settlesLeft, textLeft⟩ := ihLeft proper.1 (s :: (ws ++ rest))
    obtain ⟨ws', settlesRight, textRight⟩ := ihRight proper.2 rest
    refine ⟨us' ++ .operator (.binary op.op) :: ws', .scaled op settlesLeft settlesRight, ?_⟩
    rw [List.append_assoc, List.cons_append, textLeft, settled_of_scale _ _ kind]
    simp only [Phrase.place] at textRight
    simp only [List.append_assoc, List.cons_append, textRight]
  | @first e ts spells ih =>
    obtain ⟨us, settles, text⟩ := ih proper.2 rest
    exact ⟨us, .first settles, (spells.settled_eq proper.1 _ _ rest).trans text⟩
  | @leading e ts s sign kind _ ih =>
    obtain ⟨us, settles, text⟩ := ih proper rest
    refine ⟨_, .leading s.span.start sign settles, ?_⟩
    simp only [Phrase.place] at text
    simp only [Phrase.place, List.cons_append, settled_opening_of_sign _ kind, text]
  | @added l r us ws s sign _ kind _ ihLeft ihRight =>
    obtain ⟨us', settlesLeft, textLeft⟩ := ihLeft proper.1 (s :: (ws ++ rest))
    obtain ⟨ws', settlesRight, textRight⟩ := ihRight proper.2 rest
    refine ⟨us' ++ .operator (.binary sign.op) :: ws', .added sign settlesLeft settlesRight, ?_⟩
    rw [List.append_assoc, List.cons_append, textLeft, settled_operand_of_sign _ kind]
    simp only [Phrase.place] at textRight
    simp only [List.append_assoc, List.cons_append, textRight]

/-! ### Minus signs of numbers -/

/-- A term after a sign, added to or subtracted from what is to the left of it. -/
def addTo (policy : DivisionPolicy) (sign : Sign) (term : Expr .term) (l : Linear) :
    Except EvalError Linear :=
  match sign with
  | .plus => term.value policy false >>= l.add
  | .minus =>
    if term.startsWithNumber then term.value policy true >>= l.add
    else term.value policy false >>= l.sub

variable {policy : DivisionPolicy}

theorem value_leading (sign : Sign) (term : Expr .term) (negated : Bool) :
    (leading sign term).value policy negated = term.addTo policy sign .zero := by
  cases sign <;> simp [value, addTo]

theorem value_added (left : Expr .sum) (sign : Sign) (right : Expr .term) (negated : Bool) :
    (added left sign right).value policy negated =
      left.value policy false >>= right.addTo policy sign := by
  cases sign <;> simp only [value] <;> rfl

/-- The symbols of a phrase below sums begin with a number that a minus sign may be attached to, or
a minus sign before them stays on its own. -/
def StartsAs (policy : DivisionPolicy) (e : Expr p) (ws : List Symbol) : Prop :=
  if e.startsWithNumber then
    ∃ n tail, ws = .literal false n :: tail ∧
      Yields policy p (.literal true n :: tail) (e.value policy true)
  else ∃ u tail, ws = u :: tail ∧ ∀ n, u ≠ .literal false n

theorem literal_zeroAt (start : Nat) : (zeroAt start).literal false = .ok .zero := by
  have text : (zeroAt start).signedText false = ['0'] := by
    simp only [signedText, zeroAt]
    decide
  have number : (Text.integer? ['0']).bind Word.ofInt? = some 0 := by decide
  rw [Token.literal, text]
  simp only [word, number]
  rfl

theorem attach_of_ne {u w : Symbol} {tail : List Symbol} (h : ∀ n, w ≠ .literal false n) :
    attach u (w :: tail) = u :: w :: tail := by
  unfold attach
  split
  · next same => exact absurd (List.cons.inj same).1 (h _)
  · next same => exact absurd (List.cons.inj same).1 (h _)
  · rfl

/-- A phrase starts as the part it begins with. -/
theorem StartsAs.lift {q : Phrase} {e : Expr p} {e' : Expr q} {ws : List Symbol}
    (h : StartsAs policy e ws) (same : e'.startsWithNumber = e.startsWithNumber)
    (more : List Symbol)
    (yields : ∀ {us}, Yields policy p us (e.value policy true) →
      Yields policy q (us ++ more) (e'.value policy true)) :
    StartsAs policy e' (ws ++ more) := by
  unfold StartsAs at *
  rw [same]
  split at h
  · next number =>
    rw [if_pos number]
    obtain ⟨n, tail, rfl, negated⟩ := h
    exact ⟨n, tail ++ more, rfl, yields negated⟩
  · next number =>
    rw [if_neg number]
    obtain ⟨u, tail, rfl, alone⟩ := h
    exact ⟨u, tail ++ more, rfl, alone⟩

theorem startsAs_of_ne {e : Expr p} (other : e.startsWithNumber = false) {u : Symbol}
    (alone : ∀ n, u ≠ .literal false n) (tail : List Symbol) : StartsAs policy e (u :: tail) := by
  rw [StartsAs, if_neg (Bool.eq_false_iff.1 other)]
  exact ⟨u, tail, rfl, alone⟩

/-- Attaching the sign before a term, whose symbols are `ws` once its own signs are attached. -/
theorem exists_attach_sign {e : Expr .term} {ws : List Symbol}
    (yields : Yields policy .term ws (e.value policy false)) (starts : StartsAs policy e ws)
    (sign : Sign) :
    ∃ (sign' : Sign) (ws' : List Symbol),
      (∀ rest, attach (.operator (.binary sign.op)) (ws ++ rest) =
        .operator (.binary sign'.op) :: ws' ++ rest) ∧
      ∀ {us v}, Yields policy .sum us v →
        Yields policy .sum (us ++ .operator (.binary sign'.op) :: ws')
          (v >>= e.addTo policy sign) := by
  cases sign with
  | plus => exact ⟨.plus, ws, fun _ => rfl, fun left => left.add .plus yields⟩
  | minus =>
    unfold StartsAs at starts
    split at starts
    · next number =>
      obtain ⟨n, tail, rfl, negated⟩ := starts
      have same : e.addTo policy .minus = fun l => e.value policy true >>= l.add :=
        funext fun l => if_pos number
      rw [same]
      exact ⟨.plus, .literal true n :: tail, fun _ => rfl, fun left => left.add .plus negated⟩
    · next number =>
      obtain ⟨u, tail, rfl, alone⟩ := starts
      have same : e.addTo policy .minus = fun l => e.value policy false >>= l.sub :=
        funext fun l => if_neg number
      rw [same]
      exact ⟨.minus, u :: tail, fun _ => attach_of_ne alone, fun left => left.add .minus yields⟩

/-- Once the minus signs among the symbols of a tree are attached to numbers, the symbols yield the
value of the tree. -/
def Attached (policy : DivisionPolicy) (e : Expr p) (us : List Symbol) : Prop :=
  ∃ ws, (∀ rest, us.foldr attach rest = ws ++ rest) ∧
    Yields policy p ws (e.value policy false) ∧ (p ≠ .sum → StartsAs policy e ws)

namespace Attached

theorem number (n : Token) : Attached policy (.number n) [.literal false n] := by
  refine ⟨[.literal false n], fun _ => rfl, .literal false n, fun _ => ?_⟩
  exact ⟨n, [], rfl, .literal true n⟩

theorem paren {e : Expr .sum} {us : List Symbol} (inner : Attached policy e us) :
    Attached policy (.paren e) (.openParen :: us ++ [.closeParen]) := by
  obtain ⟨ws, fold, yields, -⟩ := inner
  refine ⟨.openParen :: ws ++ [.closeParen], fun rest => ?_, yields.paren, fun _ => ?_⟩
  · rw [List.foldr_append, List.foldr_cons, fold]
    simp [attach]
  · exact startsAs_of_ne rfl (by simp) _

/-- A phrase has the symbols of the only part it has. -/
theorem lift {q : Phrase} {e : Expr p} {e' : Expr q} {us : List Symbol}
    (operand : Attached policy e us) (below : p ≠ .sum)
    (same : e'.startsWithNumber = e.startsWithNumber)
    (yields : ∀ {negated ws}, Yields policy p ws (e.value policy negated) →
      Yields policy q ws (e'.value policy negated)) :
    Attached policy e' us := by
  obtain ⟨ws, fold, own, starts⟩ := operand
  refine ⟨ws, fold, yields own, fun _ => ?_⟩
  rw [← List.append_nil ws]
  refine (starts below).lift same [] fun negated => ?_
  rw [List.append_nil]
  exact yields negated

theorem minus {e : Expr .factor} {us : List Symbol} (operand : Attached policy e us) :
    Attached policy (.signed .minus e) (.operator .negate :: us) := by
  obtain ⟨ws, fold, yields, starts⟩ := operand
  have own := starts nofun
  unfold StartsAs at own
  split at own
  · next number =>
    obtain ⟨n, tail, rfl, negated⟩ := own
    refine ⟨.literal true n :: tail, fun rest => ?_, ?_, fun _ => ?_⟩
    · rw [List.foldr_cons, fold]
      rfl
    · simpa only [value, if_pos number] using negated
    · exact startsAs_of_ne rfl (by simp) tail
  · next number =>
    obtain ⟨u, tail, rfl, alone⟩ := own
    refine ⟨.operator .negate :: u :: tail, fun rest => ?_, ?_, fun _ => ?_⟩
    · rw [List.foldr_cons, fold]
      exact attach_of_ne alone
    · simpa only [value, if_neg number] using yields.negate
    · exact startsAs_of_ne rfl (by simp) _

theorem scaled {l : Expr .term} {r : Expr .factor} {us ws : List Symbol} (op : Scale)
    (left : Attached policy l us) (right : Attached policy r ws) :
    Attached policy (.scaled l op r) (us ++ .operator (.binary op.op) :: ws) := by
  obtain ⟨us', foldLeft, yieldsLeft, starts⟩ := left
  obtain ⟨ws', foldRight, yieldsRight, -⟩ := right
  refine ⟨us' ++ .operator (.binary op.op) :: ws', fun rest => ?_,
    yieldsLeft.scale op yieldsRight, fun _ => ?_⟩
  · have apart : ∀ rest, attach (.operator (.binary op.op)) rest =
        .operator (.binary op.op) :: rest := by
      intro rest
      cases op <;> rfl
    rw [List.foldr_append, List.foldr_cons, foldRight, apart, foldLeft, List.append_assoc]
    rfl
  · refine (starts nofun).lift (by rfl) _ fun negated => ?_
    exact negated.scale op yieldsRight

theorem leading {e : Expr .term} {us : List Symbol} (start : Nat) (sign : Sign)
    (term : Attached policy e us) :
    Attached policy (.leading sign e)
      (.literal false (zeroAt start) :: .operator (.binary sign.op) :: us) := by
  obtain ⟨ws, fold, yields, starts⟩ := term
  obtain ⟨sign', ws', attached, sum⟩ := exists_attach_sign yields (starts nofun) sign
  refine ⟨.literal false (zeroAt start) :: .operator (.binary sign'.op) :: ws', fun rest => ?_, ?_,
    fun h => absurd rfl h⟩
  · rw [List.foldr_cons, List.foldr_cons, fold, attached]
    rfl
  · have zero := sum (Yields.literal false (zeroAt start)).factor.term.sum
    rw [literal_zeroAt] at zero
    rw [value_leading]
    exact zero

theorem added {l : Expr .sum} {r : Expr .term} {us ws : List Symbol} (sign : Sign)
    (left : Attached policy l us) (right : Attached policy r ws) :
    Attached policy (.added l sign r) (us ++ .operator (.binary sign.op) :: ws) := by
  obtain ⟨us', foldLeft, yieldsLeft, -⟩ := left
  obtain ⟨ws', foldRight, yieldsRight, starts⟩ := right
  obtain ⟨sign', ws'', attached, sum⟩ := exists_attach_sign yieldsRight (starts nofun) sign
  refine ⟨us' ++ .operator (.binary sign'.op) :: ws'', fun rest => ?_, ?_, fun h => absurd rfl h⟩
  · rw [List.foldr_append, List.foldr_cons, foldRight, attached, foldLeft, List.append_assoc]
  · rw [value_added]
    exact sum yieldsLeft

end Attached

theorem Settles.attached (policy : DivisionPolicy) {e : Expr p} {us : List Symbol}
    (h : Settles e us) : Attached policy e us := by
  induction h with
  | number n => exact .number n
  | paren _ ih => exact ih.paren
  | bare _ ih => exact ih.lift nofun rfl .factor
  | plus _ ih => exact ih.lift nofun rfl id
  | minus _ ih => exact ih.minus
  | single _ ih => exact ih.lift nofun rfl .term
  | scaled op _ _ ihLeft ihRight => exact .scaled op ihLeft ihRight
  | first _ ih =>
    obtain ⟨ws, fold, yields, -⟩ := ih
    exact ⟨ws, fold, yields.sum, fun h => absurd rfl h⟩
  | leading start sign _ ih => exact .leading start sign ih
  | added sign _ _ ihLeft ihRight => exact .added sign ihLeft ihRight

end Expr

end OneUnknown
