import Mathlib.Logic.ExistsUnique
import RpnLang.Pipeline

/-!
# What a run reports

A run reports through one list of diagnostics, written from four places: the info lines of the
stages, the parser's trace lines, the machine's printed lines, and the report of a failed
translation. Whatever the source and the input, the list has one of four shapes, one for each
way a run can end (`Ending`):

* lexing failed: the lexical error's message and a status line with its code, 100 to 104;
* parsing failed: the lexer's info line, trace lines, and the parse error's message;
* the program ran to its end: the info lines of the translation around the trace lines, the
  printed lines, and the info line of the finished run;
* the machine stopped: the same, with the runtime error's message in place of that last line.

Main statement, `run_reports_one_ending`: every run has exactly one of these shapes. So nothing
is printed unless translation succeeded, a failed translation is reported only as a lexical or a
parse error, and every error is reported once.
-/

namespace RpnLang

/-- The status code of a lexical error is one of the five the lexer reports. -/
theorem LexError.code_mem (e : LexError) : e.code ∈ [100, 101, 102, 103, 104] := by
  unfold LexError.code LexFault.code
  split <;> simp

/-- How a run ended. -/
inductive Ending where
  /-- Lexing failed. -/
  | lexer
  /-- Parsing failed. -/
  | parser
  /-- The program ran to its end. -/
  | finished
  /-- The machine stopped with an error. -/
  | stopped
  deriving DecidableEq, Repr

/-- The diagnostics and the outcome of a run that ended one way. -/
inductive Reported : Ending → List Diagnostic → Outcome → Prop
  /-- The lexical error's message and its status code, nothing else. -/
  | lexer (e : LexError) : e.code ∈ [100, 101, 102, 103, 104] →
      Reported .lexer [.error e.message, .error s!"Lexer: Analysis failed with status {e.code}"]
        .translationFailed
  /-- The lexer's info line, the traces, and the parse error's message. -/
  | parser (traces : List String) (e : ParseError) :
      Reported .parser (.info lexedInfo :: traces.map .trace ++ [.error e.message])
        .translationFailed
  /-- The translation's info lines around the traces, the printed lines, the final info line. -/
  | finished (traces outputs : List String) :
      Reported .finished (.info lexedInfo :: traces.map .trace ++ parsedInfo.map .info ++
        outputs.map .output ++ [.info finishedInfo]) .success
  /-- The translation's info lines around the traces, the printed lines, the runtime error. -/
  | stopped (traces outputs : List String) (e : RunError) :
      Reported .stopped (.info lexedInfo :: traces.map .trace ++ parsedInfo.map .info ++
        outputs.map .output ++ [.error ("Runtime Error:\n\t" ++ e.message)]) .runtimeFailed

/-- Which way a run ended, read off its outcome and, for a failed translation, whether its
first diagnostic is an error. -/
def Ending.of (diags : List Diagnostic) : Outcome → Ending
  | .translationFailed =>
    match diags with
    | .error _ :: _ => .lexer
    | _ => .parser
  | .success => .finished
  | .runtimeFailed => .stopped

/-- The shapes do not overlap: the two failed translations differ in their first line, and the
other endings in their outcome. -/
theorem Reported.ending_eq {k : Ending} {diags : List Diagnostic} {o : Outcome}
    (h : Reported k diags o) : k = Ending.of diags o := by
  cases h <;> rfl

/-! ### The stages -/

/-- A translation fails in the lexer with no diagnostics, fails in the parser after the lexer's
info line and the traces, or succeeds after those and the parser's info lines. -/
theorem translate_cases (lines : List String) :
    (∃ e, translate lines = ([], .error (.lex e))) ∨
      (∃ (traces : List String) (e : ParseError), translate lines =
        (.info lexedInfo :: traces.map .trace, .error (.parse e))) ∨
      ∃ (traces : List String) (t : Translation), translate lines =
        (.info lexedInfo :: traces.map .trace ++ parsedInfo.map .info, .ok t) := by
  unfold translate
  split
  · rename_i e _
    exact .inl ⟨e, rfl⟩
  · rename_i lexed _
    -- the traces are the lines of the records the parser consumed
    rcases parse lexed.records.toList lexed.tables with ⟨traced, result⟩
    cases result with
    | error e => exact .inr (.inl ⟨traced.toList.map Record.traceLine, e, by simp⟩)
    | ok t => exact .inr (.inr ⟨traced.toList.map Record.traceLine, t, by simp⟩)

/-- Running translated code prints its lines and then ends with the final info line or the
runtime error. -/
theorem execute_cases (t : Translation) (input : List UInt8) :
    (∃ (outputs : List String) (tables : Tables), execute t input =
      (outputs.map .output ++ [.info finishedInfo], .success, tables)) ∨
      ∃ (outputs : List String) (e : RunError) (tables : Tables), execute t input =
        (outputs.map .output ++ [.error ("Runtime Error:\n\t" ++ e.message)], .runtimeFailed,
          tables) := by
  unfold execute
  split
  · exact .inl ⟨_, _, rfl⟩
  · rename_i e _ _
    exact .inr ⟨_, e, _, rfl⟩

/-- Every run ends in one of the four shapes. -/
theorem run_reported (lines : List String) (input : List UInt8) :
    ∃ k, Reported k (run lines input).1 (run lines input).2.1 := by
  unfold run
  rcases translate_cases lines with ⟨e, he⟩ | ⟨traces, e, he⟩ | ⟨traces, t, he⟩
  · exact ⟨.lexer, by simpa [he, TranslateError.report] using Reported.lexer e e.code_mem⟩
  · exact ⟨.parser, by simpa [he, TranslateError.report] using Reported.parser traces e⟩
  · rw [he]
    rcases execute_cases t input with ⟨outputs, tables, hx⟩ | ⟨outputs, e, tables, hx⟩
    · exact ⟨.finished, by simpa [hx] using Reported.finished traces outputs⟩
    · exact ⟨.stopped, by simpa [hx] using Reported.stopped traces outputs e⟩

/-- Whatever the source and the input, a run's diagnostics and outcome have exactly one of the
four shapes: a lexical error and its status code; the lexer's info line, traces and a parse
error; or the translation's info lines, traces, the printed lines, and then the final info line
or the runtime error. -/
theorem run_reports_one_ending (lines : List String) (input : List UInt8) :
    ∃! k, Reported k (run lines input).1 (run lines input).2.1 := by
  obtain ⟨k, hk⟩ := run_reported lines input
  exact ⟨k, hk, fun k' hk' => hk'.ending_eq.trans hk.ending_eq.symm⟩

end RpnLang
