import OneUnknown.CommandLine.Settings
import OneUnknown.Equation

/-!
# Sessions

A session reads lines and answers each one on its own. It ends with its input, at a line that says
`exit`, or at a line whose bytes are not UTF-8.
-/

namespace OneUnknown.Session

/-- What a line of the input asks for. -/
inductive Request where
  /-- An answer to the line, given without the blanks at its ends. -/
  | answer (line : String)
  /-- Nothing. -/
  | skip
  /-- To end the session. -/
  | exit
  /-- The line is no text. -/
  | unreadable
  deriving DecidableEq

/-- How a session ends. -/
inductive Ending where
  | finished
  | unreadableInput
  | badArguments
  deriving DecidableEq

def Ending.exitCode : Ending → Nat
  | .finished => 0
  | .unreadableInput => 1
  | .badArguments => 2

/-- An answered line. -/
structure Reply where
  line : String
  answer : String
  deriving DecidableEq

/-- The reply to a line. -/
def Reply.ofLine (options : Options) (line : String) : Reply :=
  ⟨line, OneUnknown.answer options line⟩

def Reply.text (r : Reply) : String := s!"Equ: {r.line}\nSol: {r.answer}\n"

/-- All that a session prints, and how it ends. -/
structure Transcript where
  replies : List Reply
  ending : Ending
  deriving DecidableEq

/-- The text that a session prints. -/
def Transcript.output (t : Transcript) : String := .join (t.replies.map Reply.text)

/-- The lines of an input without the line feeds that end them. The last line may lack one. -/
def splitLines : List UInt8 → List (List UInt8)
  | [] => []
  | byte :: bytes =>
    if byte = 10 then [] :: splitLines bytes
    else
      match splitLines bytes with
      | [] => [[byte]]
      | line :: lines => (byte :: line) :: lines

def Request.ofBytes (bytes : List UInt8) : Request :=
  match String.fromUTF8? ⟨bytes.toArray⟩ with
  | none => .unreadable
  | some text =>
    match Text.trim text with
    | "" => .skip
    | "exit" => .exit
    | line => .answer line

/-- The session on the given requests. -/
def answerAll (options : Options) : List Request → Transcript
  | [] => ⟨[], .finished⟩
  | .skip :: requests => answerAll options requests
  | .exit :: _ => ⟨[], .finished⟩
  | .unreadable :: _ => ⟨[], .unreadableInput⟩
  | .answer line :: requests =>
    let rest := answerAll options requests
    ⟨.ofLine options line :: rest.replies, rest.ending⟩

/-- The session that arguments start on an input. -/
def run (arguments : List String) (input : List UInt8) : Transcript :=
  match Settings.ofArguments? arguments with
  | none => ⟨[], .badArguments⟩
  | some settings => answerAll settings.options ((splitLines input).map Request.ofBytes)

end OneUnknown.Session
