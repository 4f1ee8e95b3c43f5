import OneUnknown.CommandLine.Session

/-!
# The program

Answers the lines of standard input one by one. Replies go to standard output, and the events of
their logs, as far as the settings ask for them, to standard error.
-/

namespace OneUnknown.Main

open Session

/-- The next line of an input after the bytes `front`, without the line feed that ends it. -/
partial def nextLine (input : IO.FS.Stream) (front : ByteArray) : IO (Option ByteArray) := do
  let bytes ← input.read 1
  match bytes.toList with
  | [] => return if front.isEmpty then none else some front
  | 10 :: _ => return some front
  | _ => nextLine input (front ++ bytes)

/-- Writes the events that ask for enough attention to standard error. -/
def report (level : Level) (log : List Event) : IO Unit :=
  for event in log do
    if event.level.verbosity ≤ level.verbosity then
      IO.eprintln s!"[{event.level.name}] {event.message}"

/-- Answers the lines of an input up to the one that ends the session. -/
partial def answerLines (settings : Settings) (input output : IO.FS.Stream) : IO Ending := do
  match (← nextLine input .empty).map fun line => Request.ofBytes line.toList with
  | none | some .exit => return .finished
  | some .unreadable => return .unreadableInput
  | some .skip => answerLines settings input output
  | some (.answer line) =>
    report settings.logLevel (solve settings.options.policy line).log
    output.putStr (Reply.ofLine settings.options line).text
    output.flush
    answerLines settings input output

end OneUnknown.Main

open OneUnknown in
/-- Runs the program with the given arguments. -/
def main (arguments : List String) : IO UInt32 := do
  let ending ←
    match Settings.ofArguments? arguments with
    | none => do
      IO.eprintln "usage: [--precision N] [--reject-inexact] [--log-level LEVEL]"
      pure Session.Ending.badArguments
    | some settings => Main.answerLines settings (← IO.getStdin) (← IO.getStdout)
  return ending.exitCode.toUInt32
