import OneUnknown.CommandLine.Session
import OneUnknown.Proofs.Machine.Answer
import OneUnknown.Proofs.Messages

/-!
# Sessions line by line

A session answers each line on its own: what it prints for some lines and a rest of the input is
what it prints for the lines and then what it prints for the rest, and the rest decides how it ends
(`run_encode_append`). The lines are any texts without a line feed of which none says `exit`, and
the rest is any bytes at all. An answer has no line feed either, so two lines are printed for each
line that is not blank.
-/

namespace OneUnknown.Session

/-! ### Bytes of texts -/

/-- The bytes of a text in UTF-8. -/
def bytes (text : String) : List UInt8 := text.toUTF8.data.toList

/-- The input that has the given lines, each of them ended by a line feed. -/
def encode (lines : List String) : List UInt8 := lines.flatMap fun line => bytes line ++ [10]

theorem bytes_eq_flatMap (text : String) :
    bytes text = text.toList.flatMap String.utf8EncodeChar := by
  rw [bytes, String.toUTF8_eq_toByteArray, ← String.utf8Encode_toList, List.utf8Encode,
    List.toList_data_toByteArray]

/-- A line feed is the only character with its byte. -/
theorem eq_newline_of_mem_utf8EncodeChar {c : Char} (h : 10 ∈ String.utf8EncodeChar c) :
    c = '\n' := by
  have byte {n : Nat} (same : 10 = UInt8.ofNat n) : n % 256 = 10 := by
    simpa using (congrArg UInt8.toNat same).symm
  unfold String.utf8EncodeChar at h
  simp only at h
  split_ifs at h <;> simp only [List.mem_cons, List.not_mem_nil, or_false] at h
  · have value : c.val.toNat = 10 := by
      have := byte h
      omega
    exact Char.ext (UInt32.toNat_inj.1 value)
  -- The first byte of several is at least 192, and the other ones are at least 128.
  · rcases h with h | h <;> have := byte h <;> omega
  · rcases h with h | h | h <;> have := byte h <;> omega
  · rcases h with h | h | h | h <;> have := byte h <;> omega

theorem newline_not_mem_bytes {text : String} (h : '\n' ∉ text.toList) : 10 ∉ bytes text := by
  rw [bytes_eq_flatMap, List.mem_flatMap]
  rintro ⟨c, member, byte⟩
  exact h (eq_newline_of_mem_utf8EncodeChar byte ▸ member)

theorem fromUTF8?_bytes (text : String) : String.fromUTF8? ⟨(bytes text).toArray⟩ = some text := by
  have same : (⟨(bytes text).toArray⟩ : ByteArray) = text.toByteArray := by simp [bytes]
  rw [same, String.fromUTF8?, dif_pos text.isValidUTF8]
  rfl

/-! ### Lines of an input -/

theorem splitLines_append_newline {line : List UInt8} (h : 10 ∉ line) (later : List UInt8) :
    splitLines (line ++ 10 :: later) = line :: splitLines later := by
  induction line with
  | nil => rfl
  | cons byte line ih =>
    have other : byte ≠ 10 := fun same => h (same ▸ List.mem_cons_self)
    have rest : 10 ∉ line := fun member => h (List.mem_cons_of_mem _ member)
    rw [List.cons_append, splitLines, if_neg other, ih rest]

theorem splitLines_encode_append {lines : List String}
    (complete : ∀ line ∈ lines, '\n' ∉ line.toList) (later : List UInt8) :
    splitLines (encode lines ++ later) = lines.map bytes ++ splitLines later := by
  induction lines with
  | nil => rfl
  | cons line lines ih =>
    obtain ⟨first, rest⟩ := List.forall_mem_cons.1 complete
    have input : encode (line :: lines) ++ later = bytes line ++ 10 :: (encode lines ++ later) := by
      simp [encode]
    rw [input, splitLines_append_newline (newline_not_mem_bytes first), ih rest]
    rfl

/-! ### Requests -/

variable {options : Options}

/-- The lines that a session answers, without the blanks at their ends. -/
def equations (lines : List String) : List String := (lines.map Text.trim).filter (· ≠ "")

theorem newline_not_mem_trim {line : String} (complete : '\n' ∉ line.toList) :
    '\n' ∉ (Text.trim line).toList := by
  rw [Text.trim, String.toList_ofList, List.mem_reverse]
  intro member
  have kept := (List.dropWhile_suffix _).subset member
  exact complete ((List.dropWhile_suffix _).subset (List.mem_reverse.1 kept))

theorem newline_not_mem_of_mem_equations {lines : List String} {line : String}
    (complete : ∀ line ∈ lines, '\n' ∉ line.toList) (member : line ∈ equations lines) :
    '\n' ∉ line.toList := by
  obtain ⟨source, inside, rfl⟩ := List.mem_map.1 (List.mem_filter.1 member).1
  exact newline_not_mem_trim (complete source inside)

theorem ofBytes_bytes_of_blank {line : String} (blank : Text.trim line = "") :
    Request.ofBytes (bytes line) = .skip := by
  simp only [Request.ofBytes, fromUTF8?_bytes, blank]

theorem ofBytes_bytes_of_ne {line : String} (other : Text.trim line ≠ "")
    (stays : Text.trim line ≠ "exit") :
    Request.ofBytes (bytes line) = .answer (Text.trim line) := by
  rw [Request.ofBytes, fromUTF8?_bytes]
  dsimp only
  split
  · next blank => exact absurd blank other
  · next leaves => exact absurd leaves stays
  · rfl

theorem answerAll_append {lines : List String} (stays : ∀ line ∈ lines, Text.trim line ≠ "exit")
    (later : List Request) :
    answerAll options (lines.map (Request.ofBytes ∘ bytes) ++ later) =
      ⟨(equations lines).map (Reply.ofLine options) ++ (answerAll options later).replies,
        (answerAll options later).ending⟩ := by
  induction lines with
  | nil => rfl
  | cons line lines ih =>
    obtain ⟨first, rest⟩ := List.forall_mem_cons.1 stays
    by_cases blank : Text.trim line = ""
    · have same : equations (line :: lines) = equations lines := by simp [equations, blank]
      rw [List.map_cons, Function.comp_apply, ofBytes_bytes_of_blank blank, same]
      exact ih rest
    · have more : equations (line :: lines) = Text.trim line :: equations lines := by
        simp [equations, blank]
      rw [List.map_cons, Function.comp_apply, ofBytes_bytes_of_ne blank first, more]
      simp only [List.cons_append, answerAll, ih rest, List.map_cons]

/-! ### Runs -/

variable {arguments : List String} {settings : Settings} {lines : List String}

theorem run_of_accepted (accepted : Settings.ofArguments? arguments = some settings)
    (input : List UInt8) :
    run arguments input = answerAll settings.options ((splitLines input).map Request.ofBytes) := by
  rw [run, accepted]

theorem run_encode_append_eq (accepted : Settings.ofArguments? arguments = some settings)
    (complete : ∀ line ∈ lines, '\n' ∉ line.toList)
    (stays : ∀ line ∈ lines, Text.trim line ≠ "exit") (later : List UInt8) :
    run arguments (encode lines ++ later) =
      ⟨(equations lines).map (Reply.ofLine settings.options) ++ (run arguments later).replies,
        (run arguments later).ending⟩ := by
  rw [run_of_accepted accepted, run_of_accepted accepted, splitLines_encode_append complete,
    List.map_append, List.map_map, answerAll_append stays]

theorem run_encode_eq (accepted : Settings.ofArguments? arguments = some settings)
    (complete : ∀ line ∈ lines, '\n' ∉ line.toList)
    (stays : ∀ line ∈ lines, Text.trim line ≠ "exit") :
    run arguments (encode lines) =
      ⟨(equations lines).map (Reply.ofLine settings.options), .finished⟩ := by
  have all := run_encode_append_eq accepted complete stays []
  rw [List.append_nil, run_of_accepted accepted []] at all
  simpa [splitLines, answerAll] using all

/-- A session on some lines and a rest prints what it prints on the lines, then what it prints on
the rest, and it ends as it does on the rest. On the lines alone it ends with the code zero, after
two lines for each that is not blank, in order: the line without the blanks at its ends, and the
answer to it, which a machine gives too. Neither has a line feed. -/
theorem run_encode_append (accepted : Settings.ofArguments? arguments = some settings)
    (small : settings.options.precision ≤ 65535)
    (complete : ∀ line ∈ lines, '\n' ∉ line.toList)
    (stays : ∀ line ∈ lines, Text.trim line ≠ "exit") (later : List UInt8) :
    (run arguments (encode lines ++ later)).output =
        (run arguments (encode lines)).output ++ (run arguments later).output ∧
      (run arguments (encode lines ++ later)).ending.exitCode =
        (run arguments later).ending.exitCode ∧
      (run arguments (encode lines)).ending.exitCode = 0 ∧
      (run arguments (encode lines)).output =
        .join ((equations lines).map fun line =>
          "Equ: " ++ line ++ "\nSol: " ++ answer settings.options line ++ "\n") ∧
      ∀ line ∈ equations lines,
        Machine.answer settings.options line = .ok (answer settings.options line) ∧
          '\n' ∉ line.toList ∧ '\n' ∉ (answer settings.options line).toList := by
  have alone := run_encode_eq accepted complete stays
  have both := run_encode_append_eq accepted complete stays later
  refine ⟨?_, by rw [both], by rw [alone]; rfl, ?_, fun line member => ⟨?_, ?_, ?_⟩⟩
  · rw [both, alone]
    simp only [Transcript.output, List.map_append, String.join_append]
  · rw [alone, Transcript.output, List.map_map]
    rfl
  · exact Machine.answer_eq (Nat.lt_succ_of_le small) line
  · exact newline_not_mem_of_mem_equations complete member
  · exact newline_not_mem_answer settings.options line

/-- A line of blanks is passed over, and nothing is read after the line that ends the session. -/
theorem run_third_and_letter :
    let arguments := ["--precision", "2"]
    let lines := ["3x = 1", "\t\r", "\u00a0x = y \r"]
    let later := bytes "exit\n" ++ [255]
    Settings.ofArguments? arguments = some { precision? := some 2 } ∧
      ({ precision? := some 2 } : Settings).options.precision ≤ 65535 ∧
      (∀ line ∈ lines, '\n' ∉ line.toList) ∧ (∀ line ∈ lines, Text.trim line ≠ "exit") ∧
      (run arguments (encode lines ++ later)).output =
        "Equ: 3x = 1\nSol: x = 0.33\n" ++
          "Equ: x = y\nSol: Unsupported operator, \"y\", at index 1\n" ∧
      (run arguments (encode lines ++ later)).ending.exitCode = 0 := by
  intro arguments lines later
  have accepted : Settings.ofArguments? arguments = some { precision? := some 2 } := by decide
  have small : ({ precision? := some 2 } : Settings).options.precision ≤ 65535 := by decide
  have complete : ∀ line ∈ lines, '\n' ∉ line.toList := by decide
  have stays : ∀ line ∈ lines, Text.trim line ≠ "exit" := by decide +kernel
  obtain ⟨output, code, -, printed, -⟩ := run_encode_append accepted small complete stays later
  have rest : run arguments later = ⟨[], .finished⟩ := by decide +kernel
  refine ⟨accepted, small, complete, stays, ?_, ?_⟩
  · rw [output, printed, rest]
    decide +kernel
  · rw [code, rest]
    rfl

end OneUnknown.Session
