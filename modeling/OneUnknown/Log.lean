import OneUnknown.Linear
import OneUnknown.Text.Blank

/-!
# Logs

A computation of `Logged ε α` ends with a value or an error and leaves a log of the events on its
way. Events before an error stay in the log, and none follows it.
-/

namespace OneUnknown

/-- How much attention an event asks for, most first. -/
inductive Level where
  | error
  | warn
  | info
  | debug
  | trace
  deriving DecidableEq

def Level.name : Level → String
  | .error => "ERROR"
  | .warn => "WARN"
  | .info => "INFO"
  | .debug => "DEBUG"
  | .trace => "TRACE"

/-- The position in the order of attention. -/
def Level.verbosity : Level → Nat
  | .error => 1
  | .warn => 2
  | .info => 3
  | .debug => 4
  | .trace => 5

/-- What a log tells of. -/
inductive Event where
  /-- A form is about to be negated. -/
  | negation (operand : Linear)
  /-- Two forms are about to be combined. -/
  | operation (left : Linear) (op : BinaryOp) (right : Linear)
  /-- The text of a side has been evaluated. -/
  | evaluated (source : String) (value : Linear)
  /-- The equation `coefficient·x = constant` is about to be solved. -/
  | solving (coefficient constant : Word)
  deriving DecidableEq

namespace Event

def level : Event → Level
  | .negation .. | .operation .. => .trace
  | .evaluated .. | .solving .. => .debug

def message : Event → String
  | .negation operand => s!"-({operand})"
  | .operation left op right => s!"({left}) {op.sign} ({right})"
  | .evaluated source value => s!"Evaluated \"{Text.trim source}\" as {value}"
  | .solving coefficient constant => s!"Solving {coefficient.numeral}x = {constant.numeral}"

end Event

/-- A value or an error, and the events before it. -/
@[ext]
structure Logged (ε α : Type) where
  log : List Event
  outcome : Except ε α

namespace Logged

variable {ε ε' α β : Type}

/-- An outcome without an event. -/
def ofExcept (outcome : Except ε α) : Logged ε α := ⟨[], outcome⟩

/-- A log of one event. -/
def note (event : Event) : Logged ε Unit := ⟨[event], .ok ()⟩

/-- The same log with a changed error. -/
def mapError (f : ε → ε') (x : Logged ε α) : Logged ε' α := ⟨x.log, x.outcome.mapError f⟩

/-- The computation `f` goes on from the value of `x`, and an error of `x` ends both. -/
def bind (x : Logged ε α) (f : α → Logged ε β) : Logged ε β :=
  match x.outcome with
  | .ok a => ⟨x.log ++ (f a).log, (f a).outcome⟩
  | .error e => ⟨x.log, .error e⟩

instance : Monad (Logged ε) where
  pure a := ofExcept (.ok a)
  bind := bind

theorem pure_def (a : α) : (pure a : Logged ε α) = ⟨[], .ok a⟩ := rfl

theorem bind_of_ok {x : Logged ε α} {a : α} (h : x.outcome = .ok a) (f : α → Logged ε β) :
    x >>= f = ⟨x.log ++ (f a).log, (f a).outcome⟩ := by
  change bind x f = _
  rw [bind, h]

theorem bind_of_error {x : Logged ε α} {e : ε} (h : x.outcome = .error e) (f : α → Logged ε β) :
    x >>= f = ⟨x.log, .error e⟩ := by
  change bind x f = _
  rw [bind, h]

theorem bind_pure (x : Logged ε α) : x >>= pure = x := by
  change bind x (ofExcept ∘ .ok) = x
  unfold bind
  split <;> simp_all [ofExcept, Logged.ext_iff]

theorem bind_assoc (x : Logged ε α) (f : α → Logged ε β) {γ : Type} (g : β → Logged ε γ) :
    x >>= f >>= g = x >>= fun a => f a >>= g := by
  cases hx : x.outcome with
  | error e => rw [bind_of_error hx, bind_of_error hx, bind_of_error rfl]
  | ok a =>
    rw [bind_of_ok hx, bind_of_ok hx]
    cases hf : (f a).outcome with
    | error e => rw [bind_of_error hf, bind_of_error rfl]
    | ok b => rw [bind_of_ok hf, bind_of_ok rfl, List.append_assoc]

instance : LawfulMonad (Logged ε) :=
  LawfulMonad.mk' _ bind_pure (fun _ _ => rfl) fun x f g => bind_assoc x f g

end Logged

end OneUnknown
