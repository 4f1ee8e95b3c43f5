import OneUnknown.Word

/-!
# Faults

A machine has operations that are not defined everywhere: it cuts a text at bytes, divides numbers
of a fixed size, and reaches cases that a function is not made for. A `Run` ends with a value, with
an error of the computation, or with a fault, where such an operation is used outside of its domain.
The modules below compute as the rest of this library does, with every operation of this kind in
plain sight.
-/

namespace OneUnknown.Machine

/-- The use of an operation outside of its domain. -/
inductive Fault where
  /-- A text is cut outside of its bounds or inside of a character. -/
  | slice
  | divisionByZero
  /-- A number is out of the range of its type. -/
  | overflow
  /-- A function is called with an argument that it is not made for. -/
  | unreachable
  /-- A loop does not come closer to its end. -/
  | endless
  /-- A text is formatted with too many places. -/
  | precision
  deriving DecidableEq

/-- Why a run has no value. -/
inductive Failure (ε : Type) where
  | fault (fault : Fault)
  | error (error : ε)
  deriving DecidableEq

/-- A computation with operations that are not defined everywhere. -/
abbrev Run (ε α : Type) := Except (Failure ε) α

namespace Run

variable {ε ε' α β : Type}

def fault (f : Fault) : Run ε α := .error (.fault f)

/-- A run without a fault. -/
def sound (x : Except ε α) : Run ε α := x.mapError .error

/-- The same run with a changed error. -/
def mapError (f : ε → ε') (x : Run ε α) : Run ε' α :=
  Except.mapError (fun
    | .fault g => .fault g
    | .error e => .error (f e)) x

/-- Goes on only if `condition` holds. -/
def ensure (condition : Prop) [Decidable condition] (f : Fault) : Run ε Unit :=
  if condition then .ok () else fault f

@[simp] theorem sound_ok (a : α) : sound (.ok a : Except ε α) = .ok a := rfl

@[simp] theorem sound_error (e : ε) : sound (.error e : Except ε α) = .error (.error e) := rfl

theorem sound_ne_fault (x : Except ε α) (f : Fault) : sound x ≠ .error (.fault f) := by
  cases x <;> simp

theorem sound_bind (x : Except ε α) (f : α → Except ε β) :
    sound (x >>= f) = sound x >>= fun a => sound (f a) := by
  cases x <;> rfl

theorem sound_map (f : α → β) (x : Except ε α) : sound (f <$> x) = f <$> sound x := by
  cases x <;> rfl

theorem mapError_sound (f : ε → ε') (x : Except ε α) :
    mapError f (sound x) = sound (x.mapError f) := by
  cases x <;> rfl

theorem ensure_of {condition : Prop} [Decidable condition] (h : condition) (f : Fault) :
    (ensure condition f : Run ε Unit) = .ok () :=
  if_pos h

end Run

open Run

variable {ε : Type}

/-! ### Natural numbers of a fixed size -/

/-- The number `n` in a type of `size` numbers. -/
def bounded (size n : Nat) : Run ε Nat := do
  ensure (n < size) .overflow
  return n

/-- The quotient of two numbers. -/
def quotient (a b : Nat) : Run ε Nat := do
  ensure (b ≠ 0) .divisionByZero
  return a / b

/-- The remainder of a quotient. -/
def remainder (a b : Nat) : Run ε (Fin b) :=
  if h : b = 0 then fault .divisionByZero else .ok ⟨a % b, Nat.mod_lt a (Nat.pos_of_ne_zero h)⟩

/-! ### Words -/

namespace Word

/-- The word that is a natural number. -/
def ofNat (n : Nat) : Run ε Word := do
  ensure (Word.Fits n) .overflow
  return Int64.ofInt n

/-- The quotient of the least word by minus one is the only one that is no word. -/
def HasQuotient (a b : Word) : Prop := ¬ (a = Int64.minValue ∧ b = -1)

instance (a b : Word) : Decidable (HasQuotient a b) := inferInstanceAs (Decidable (¬ _))

/-- The quotient of two words rounded toward zero. -/
def div (a b : Word) : Run ε Word := do
  ensure (b ≠ 0) .divisionByZero
  ensure (HasQuotient a b) .overflow
  return a / b

/-- The remainder of the quotient of two words, which is no word's where the quotient is none. -/
def rem (a b : Word) : Run ε Word := do
  ensure (b ≠ 0) .divisionByZero
  ensure (HasQuotient a b) .overflow
  return a % b

/-- The remainder, if both it and the quotient are defined. -/
def rem? (a b : Word) : Option Word :=
  if b ≠ 0 ∧ HasQuotient a b then some (a % b) else none

end Word

end OneUnknown.Machine
