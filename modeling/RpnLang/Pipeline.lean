import RpnLang.Lexer
import RpnLang.Machine
import RpnLang.Parser.Program

/-!
# Translating and running programs

Translation lexes the source lines and parses the records. Its diagnostics are an info line
when lexing succeeded, one trace line per record the parser consumed, and two info lines when
parsing succeeded. A failed translation is reported by its error message; a lexical error is
followed by a status line with its code.

Running translates and then, if that succeeded, runs the code on the machine with the given
input bytes. The machine's printed lines follow as output diagnostics, and the run ends with an
info line or with the runtime error.
-/

namespace RpnLang

/-- A message produced by one of the stages. -/
inductive Diagnostic where
  /-- A stage started or completed. -/
  | info (text : String)
  /-- The parser consumed a record. -/
  | trace (text : String)
  /-- A stage failed. -/
  | error (text : String)
  /-- The program printed a line. -/
  | output (text : String)
  deriving DecidableEq, Repr

namespace Diagnostic

/-- The diagnostic's text. -/
def text : Diagnostic → String
  | .info t | .trace t | .error t | .output t => t

end Diagnostic

/-- The trace line of a consumed record. -/
def Record.traceLine (r : Record) : String :=
  s!"ParseToken: in row {r.line} lexeme - '{r.lexeme}'|token - '{r.kind.name}'"

/-- Why a translation failed. -/
inductive TranslateError where
  /-- Lexing failed. -/
  | lex (e : LexError)
  /-- Parsing failed. -/
  | parse (e : ParseError)
  deriving DecidableEq, Repr

/-- The diagnostics that report a failed translation. -/
def TranslateError.report : TranslateError → List Diagnostic
  | .lex e => [.error e.message, .error s!"Lexer: Analysis failed with status {e.code}"]
  | .parse e => [.error e.message]

/-- The info line after lexing. -/
def lexedInfo : String := "Lexer: Lexical analyzer was successfully completed"

/-- The info lines after parsing. -/
def parsedInfo : List String :=
  ["Parser: syntactic analyzer was successfully completed", "RPN translation was successfully completed"]

/-- The info line after a successful run. -/
def finishedInfo : String := "Interpreter: program has finished successfully"

/-- Translates source lines: the diagnostics emitted along the way and the translation or the
error. -/
def translate (lines : List String) : List Diagnostic × Except TranslateError Translation :=
  match lex lines with
  | .error e => ([], .error (.lex e))
  | .ok lexed =>
    let (traced, result) := parse lexed.records.toList lexed.tables
    let diags := .info lexedInfo :: traced.toList.map (fun r => .trace r.traceLine)
    match result with
    | .error e => (diags, .error (.parse e))
    | .ok t => (diags ++ parsedInfo.map .info, .ok t)

/-- How a run ended. -/
inductive Outcome where
  /-- The program ran to its end. -/
  | success
  /-- The program could not be translated. -/
  | translationFailed
  /-- The machine stopped with an error. -/
  | runtimeFailed
  deriving DecidableEq, Repr

/-- Runs translated code on the given input: the diagnostics of the run, its outcome, and the
tables when the machine stopped. -/
def execute (t : Translation) (input : List UInt8) : List Diagnostic × Outcome × Tables :=
  match (Machine.run t.code.toList).run { tables := t.tables, unread := input } with
  | .ok () m => (m.outputs.toList.map .output ++ [.info finishedInfo], .success, m.tables)
  | .error e m =>
    (m.outputs.toList.map .output ++ [.error ("Runtime Error:\n\t" ++ e.message)], .runtimeFailed,
      m.tables)

/-- Translates and runs a program: all diagnostics, the outcome, and the tables after the run
(none when translation failed). -/
def run (lines : List String) (input : List UInt8) : List Diagnostic × Outcome × Option Tables :=
  match translate lines with
  | (diags, .error e) => (diags ++ e.report, .translationFailed, none)
  | (diags, .ok t) =>
    let (more, outcome, tables) := execute t input
    (diags ++ more, outcome, some tables)

end RpnLang
