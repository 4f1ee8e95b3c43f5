import OneUnknown.Log
import OneUnknown.Options
import OneUnknown.Text.Numeral

/-!
# Settings

The command line takes the long options `--precision N`, `--reject-inexact` and `--log-level L`,
each at most once and in any order, and nothing else. A value follows its option as the next
argument, or after an equals sign. Two dashes may close the arguments.
-/

namespace OneUnknown

/-- The options given on the command line. -/
structure Settings where
  precision? : Option Nat := none
  rejectInexact : Bool := false
  logLevel? : Option Level := none
  deriving DecidableEq

namespace Settings

/-- The options for solving; one that is not given has its default. -/
def options (s : Settings) : Options where
  policy := if s.rejectInexact then .reject else .truncate
  precision := s.precision?.getD ({} : Options).precision

/-- The least urgent events that are shown. -/
def logLevel (s : Settings) : Level := s.logLevel?.getD .warn

/-- A count is a natural numeral below `2^64`, which may have a plus sign in front. -/
def count? (s : List Char) : Option Nat :=
  let digits := if s.head? = some '+' then s.drop 1 else s
  (Text.natural? digits).filter (· < 18446744073709551616)

def level? (s : List Char) : Option Level :=
  match String.ofList s with
  | "error" => some .error
  | "warn" => some .warn
  | "info" => some .info
  | "debug" => some .debug
  | "trace" => some .trace
  | _ => none

/-- The settings with the option `name` of value `value`, if it takes that value and is new. -/
def withValue? (s : Settings) (name value : List Char) : Option Settings :=
  match String.ofList name with
  | "--precision" => do
    guard s.precision?.isNone
    return { s with precision? := some (← count? value) }
  | "--log-level" => do
    guard s.logLevel?.isNone
    return { s with logLevel? := some (← level? value) }
  | _ => none

/-- The settings that arguments describe, in addition to those already given. -/
def addArguments? (s : Settings) : List String → Option Settings
  | [] => some s
  | ["--"] => some s
  | "--reject-inexact" :: rest =>
    if s.rejectInexact then none else addArguments? { s with rejectInexact := true } rest
  | argument :: rest =>
    let chars := argument.toList
    if '=' ∈ chars then do
      let value := (chars.dropWhile (· ≠ '=')).drop 1
      addArguments? (← s.withValue? (chars.takeWhile (· ≠ '=')) value) rest
    else
      match rest with
      | value :: rest => do addArguments? (← s.withValue? chars value.toList) rest
      | [] => none

/-- The settings that the arguments describe, unless the arguments break a rule. This stands for the
argument parser of a third party and follows the rules agreed on for the arguments, those above. A
request for help, `--help` or `-h`, which that parser answers with exit code 0, is not modelled: it
breaks the rules here. -/
def ofArguments? (arguments : List String) : Option Settings :=
  addArguments? {} arguments

end Settings

end OneUnknown
