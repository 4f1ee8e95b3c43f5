import OneUnknown.Proofs.Grammar

/-!
# Segments of waiting operators

Opening parentheses split the operators that wait into segments. From the bottom of a segment to its
top there is at most one sign between terms, then at most one between factors, and then there are
negations only (`Layered`). Each symbol keeps this (`layered_of_step`), so it holds wherever an
evaluation comes to. The priorities of a segment never fall towards its top, therefore to reduce
applies all operators of the top segment that have enough priority, and none but these
(`layered_of_reached`).
-/

namespace OneUnknown

/-! ### Segments -/

namespace Pending

/-- The operators down to the nearest opening parenthesis. -/
def top : List Pending → List Operator
  | .operator o :: waiting => o :: top waiting
  | _ => []

/-- What waits from the nearest opening parenthesis down. -/
def below : List Pending → List Pending
  | .operator _ :: waiting => below waiting
  | waiting => waiting

/-- The operators between the parentheses, those on top first. -/
def segments : List Pending → List (List Operator)
  | [] => [[]]
  | .openParen :: waiting => [] :: segments waiting
  | .operator o :: waiting => (segments waiting).modifyHead (o :: ·)

theorem map_top_append_below (waiting : List Pending) :
    (top waiting).map .operator ++ below waiting = waiting := by
  induction waiting with
  | nil => rfl
  | cons o waiting ih =>
    match o with
    | .openParen => rfl
    | .operator o => exact congrArg (.operator o :: ·) ih

theorem segments_map_append (segment : List Operator) (waiting : List Pending) :
    segments (segment.map .operator ++ waiting) = (segments waiting).modifyHead (segment ++ ·) := by
  induction segment with
  | nil => exact (congrFun List.modifyHead_id (segments waiting)).symm
  | cons o segment ih =>
    rw [List.map_cons, List.cons_append, segments, ih, List.modifyHead_modifyHead]
    rfl

/-- A segment that is put in the place of the top one leaves the others as they are. -/
theorem segments_map_append_below (segment : List Operator) (waiting : List Pending) :
    segments (segment.map .operator ++ below waiting) = segment :: (segments waiting).tail := by
  induction waiting with
  | nil =>
    change segments (segment.map .operator ++ []) = [segment]
    rw [segments_map_append, segments, List.modifyHead_cons, List.append_nil]
  | cons o waiting ih =>
    match o with
    | .openParen =>
      change segments (segment.map .operator ++ .openParen :: waiting) = segment :: segments waiting
      rw [segments_map_append, segments, List.modifyHead_cons, List.append_nil]
    | .operator o =>
      rw [below, ih, segments, List.tail_modifyHead]

theorem segments_eq (waiting : List Pending) :
    segments waiting = top waiting :: (segments waiting).tail := by
  conv_lhs => rw [← map_top_append_below waiting]
  exact segments_map_append_below (top waiting) waiting

end Pending

/-! ### Layers -/

/-- From the bottom up there is at most one sign between terms, then at most one between factors,
and then there are negations. -/
def Layered (segment : List Operator) : Prop :=
  ∃ (sign : Option Sign) (scale : Option Scale) (negations : Nat),
    segment.reverse = sign.toList.map (.binary ·.op) ++ scale.toList.map (.binary ·.op) ++
      List.replicate negations .negate

theorem Operator.priority_negate : Operator.negate.priority = 3 := rfl

theorem layered_nil : Layered [] := ⟨none, none, 0, rfl⟩

theorem Layered.negate {segment : List Operator} (h : Layered segment) :
    Layered (.negate :: segment) := by
  obtain ⟨sign, scale, negations, shape⟩ := h
  refine ⟨sign, scale, negations + 1, ?_⟩
  rw [List.reverse_cons, shape, List.append_assoc, List.replicate_succ']

/-- A binary operator is put on those of lower priority. -/
theorem Layered.binary {segment : List Operator} (h : Layered segment) (op : BinaryOp) :
    Layered (.binary op :: segment.filter (·.priority < (Operator.binary op).priority)) := by
  obtain ⟨sign, scale, negations, shape⟩ := h
  obtain ⟨own, rfl⟩ | ⟨own, rfl⟩ := op.exists_sign_or_scale
  · refine ⟨some own, none, 0, ?_⟩
    rw [List.reverse_cons, ← List.filter_reverse, shape, own.priority]
    cases sign <;> cases scale <;> simp [Sign.priority, Scale.priority, Operator.priority_negate]
  · refine ⟨sign, some own, 0, ?_⟩
    rw [List.reverse_cons, ← List.filter_reverse, shape, own.priority]
    cases sign <;> cases scale <;> simp [Sign.priority, Scale.priority, Operator.priority_negate]

/-- No operator has a higher priority than one on top of it. -/
theorem Layered.pairwise {segment : List Operator} (h : Layered segment) :
    segment.Pairwise fun upper lower => lower.priority ≤ upper.priority := by
  obtain ⟨sign, scale, negations, shape⟩ := h
  rw [← List.reverse_reverse segment, List.pairwise_reverse, shape]
  cases sign <;> cases scale <;>
    simp [List.pairwise_replicate, Sign.priority, Scale.priority, Operator.priority_negate]

/-! ### Reduction -/

namespace Stacks

open Pending

variable {policy : DivisionPolicy}

/-- Where no operator has a higher priority than one on top of it, to reduce applies all operators
of the top segment that have enough priority. -/
theorem reduce_of_pairwise (least : Nat) (operands : List Linear) {waiting : List Pending}
    (h : (top waiting).Pairwise fun upper lower => lower.priority ≤ upper.priority) :
    reduce policy least operands waiting = do
      let operands ← ((top waiting).filter (least ≤ ·.priority)).foldlM
        (fun operands o => o.applyTo policy operands) operands
      return ⟨operands, ((top waiting).filter (·.priority < least)).map .operator ++
        below waiting⟩ := by
  induction waiting generalizing operands with
  | nil => rfl
  | cons o waiting ih =>
    match o with
    | .openParen => rfl
    | .operator o =>
      obtain ⟨upper, rest⟩ := List.pairwise_cons.1 h
      rw [reduce, top, below]
      by_cases low : o.priority < least
      · have lower : ∀ lower ∈ o :: top waiting, lower.priority < least :=
          List.forall_mem_cons.2 ⟨low, fun other mem => Nat.lt_of_le_of_lt (upper other mem) low⟩
        have none : (o :: top waiting).filter (least ≤ ·.priority) = [] :=
          List.filter_eq_nil_iff.2 fun other mem => by simpa using lower other mem
        have all : (o :: top waiting).filter (·.priority < least) = o :: top waiting :=
          List.filter_eq_self.2 fun other mem => by simpa using lower other mem
        rw [if_pos low, none, all, List.map_cons, List.cons_append, map_top_append_below]
        rfl
      · have reached : least ≤ o.priority := Nat.not_lt.1 low
        rw [if_neg low, List.filter_cons_of_pos (by simpa using reached),
          List.filter_cons_of_neg (by simpa using reached), List.foldlM_cons, bind_assoc]
        congr 1
        funext operands
        exact ih operands rest

/-- All segments of the operators that wait are layered. -/
def IsLayered (s : Stacks) : Prop := ∀ segment ∈ segments s.operators, Layered segment

variable {s t : Stacks}

theorem IsLayered.top_and_tail (h : s.IsLayered) :
    Layered (top s.operators) ∧ ∀ segment ∈ (segments s.operators).tail, Layered segment := by
  rwa [IsLayered, segments_eq, List.forall_mem_cons] at h

/-- What is left after operators have been applied. -/
theorem IsLayered.operators_of_settle (h : s.IsLayered) {least : Nat}
    (settled : settle policy least s = .ok t) :
    t.operators = ((top s.operators).filter (·.priority < least)).map .operator ++
      below s.operators := by
  rw [settle, reduce_of_pairwise least _ h.top_and_tail.1.pairwise, Logged.outcome_bind] at settled
  obtain ⟨operands, -, same⟩ := bind_eq_ok_iff.1 settled
  cases same
  rfl

/-- One more symbol keeps all segments layered. A closing parenthesis uncovers the segment below,
which has not changed since it was covered. -/
theorem layered_of_step (h : s.IsLayered) {u : Symbol}
    (stepped : (step policy s u).outcome = .ok t) : t.IsLayered := by
  obtain ⟨first, others⟩ := h.top_and_tail
  match u with
  | .literal negated number =>
    rw [outcome_step_literal] at stepped
    obtain ⟨value, -, same⟩ := bind_eq_ok_iff.1 stepped
    cases same
    exact h
  | .openParen =>
    rw [outcome_step_openParen] at stepped
    cases stepped
    exact List.forall_mem_cons.2 ⟨layered_nil, h⟩
  | .closeParen =>
    rw [outcome_step_closeParen] at stepped
    obtain ⟨between, settled, closed⟩ := bind_eq_ok_iff.1 stepped
    have left := h.operators_of_settle settled
    have none : (top s.operators).filter (·.priority < 0) = [] := by simp
    have uncovered := segments_map_append_below [] s.operators
    rw [close_eq_ok_iff.1 closed, none] at left
    rw [List.map_nil] at left uncovered
    rw [← left] at uncovered
    rw [IsLayered, (List.cons.inj uncovered).2]
    exact others
  | .operator .negate =>
    rw [outcome_step_negate] at stepped
    cases stepped
    rw [IsLayered, segments, segments_eq, List.modifyHead_cons, List.forall_mem_cons]
    exact ⟨first.negate, others⟩
  | .operator (.binary op) =>
    rw [outcome_step_binary] at stepped
    obtain ⟨between, settled, same⟩ := bind_eq_ok_iff.1 stepped
    cases same
    rw [IsLayered, segments, h.operators_of_settle settled, segments_map_append_below,
      List.modifyHead_cons, List.forall_mem_cons]
    exact ⟨first.binary op, others⟩

theorem layered_of_read (h : s.IsLayered) {us : List Symbol} (reading : read policy s us = .ok t) :
    t.IsLayered := by
  induction us generalizing s with
  | nil =>
    cases reading
    exact h
  | cons u us ih =>
    rw [read_cons] at reading
    obtain ⟨between, stepped, rest⟩ := bind_eq_ok_iff.1 reading
    exact ih (layered_of_step h stepped) rest

theorem isLayered_empty : empty.IsLayered := List.forall_mem_singleton.2 layered_nil

/-- The evaluation of the tokens comes to the stacks `s`, before one of its symbols or after the
last one. -/
def Reached (policy : DivisionPolicy) (ts : List Token) (s : Stacks) : Prop :=
  ∃ front, front <+: Symbol.ofTokens ts ∧ read policy empty front = .ok s

/-- Wherever the evaluation of tokens comes to, all segments of the waiting operators are layered.
So to reduce applies, from the top down, just the operators of the top segment that have at least
the priority asked for, with the errors and events of their operations. Just the others are left of
the segment, and the segments below stay as they are. -/
theorem layered_of_reached {ts : List Token} (h : Reached policy ts s) :
    (∀ segment ∈ segments s.operators, Layered segment) ∧
      segments s.operators = top s.operators :: (segments s.operators).tail ∧
      ∀ least,
        let applied := (top s.operators).filter (least ≤ ·.priority)
        let left := (top s.operators).filter (·.priority < least)
        let operators := left.map .operator ++ below s.operators
        (reduce policy least s.operands s.operators = do
          let operands ← applied.foldlM (fun operands o => o.applyTo policy operands) s.operands
          return ⟨operands, operators⟩) ∧
        segments operators = left :: (segments s.operators).tail := by
  obtain ⟨front, -, reading⟩ := h
  have layered := layered_of_read isLayered_empty reading
  refine ⟨layered, segments_eq _, fun least => ⟨?_, segments_map_append_below _ _⟩⟩
  exact reduce_of_pairwise least s.operands layered.top_and_tail.1.pairwise

/-- The symbols of `1 - 2 * - - (3 / -`, of which the first minus sign is folded. -/
theorem layered_of_folded_minus :
    let ts : List Token := [⟨.number, "1", ⟨0, 0⟩⟩, ⟨.operator (.binary .minus), "", ⟨0, 0⟩⟩,
      ⟨.number, "2", ⟨0, 0⟩⟩, ⟨.operator (.binary .times), "", ⟨0, 0⟩⟩,
      ⟨.operator .negate, "", ⟨0, 0⟩⟩, ⟨.operator .negate, "", ⟨0, 0⟩⟩, ⟨.openParen, "", ⟨0, 0⟩⟩,
      ⟨.number, "3", ⟨0, 0⟩⟩, ⟨.operator (.binary .divide), "", ⟨0, 0⟩⟩,
      ⟨.operator .negate, "", ⟨0, 0⟩⟩]
    let covered : List Pending := [.openParen, .operator .negate, .operator .negate,
      .operator (.binary .times), .operator (.binary .plus)]
    let s : Stacks := ⟨[.ofConstant 3, .ofConstant (-2), .ofConstant 1],
      .operator .negate :: .operator (.binary .divide) :: covered⟩
    Reached .reject ts s ∧
      segments s.operators = [[.negate, .binary .divide],
        [.negate, .negate, .binary .times, .binary .plus]] ∧
      (∀ segment ∈ segments s.operators, Layered segment) ∧
      reduce .reject 3 s.operands s.operators = do
        let operands ← Operator.negate.applyTo .reject s.operands
        return ⟨operands, .operator (.binary .divide) :: covered⟩ := by
  intro ts covered s
  have reached : Reached .reject ts s :=
    ⟨Symbol.ofTokens ts, List.prefix_rfl, by decide +kernel⟩
  obtain ⟨layered, -, reduced⟩ := layered_of_reached reached
  exact ⟨reached, rfl, layered, (reduced 3).1⟩

end Stacks

end OneUnknown
