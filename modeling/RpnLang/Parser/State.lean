import RpnLang.Brackets
import RpnLang.Code
import RpnLang.Tables

/-!
# The parser's state and its elementary steps

The parser reads the remaining records from the front. Besides the rest it keeps the code
emitted so far, the bracket stack, the tables (where declarations set types and a unary minus
interns a zero), and two logs of consumed records: those already traced and those held back by
active backtracking attempts. Code and logs only grow at their end, so they are kept newest
first, and a checkpoint simply keeps them as they were.

An attempt runs a production and, if the production fails, restores the rest, the code, the
held records and the bracket stack of its checkpoint; the tables are not rolled back. When the
outermost attempt ends, the records it held are traced. Every production answers with a `Reply`, which carries the
proof that it gave back no records; the consuming steps answer with a state that is strictly
shorter. Together with a rank per production this makes every production terminate.
-/

namespace RpnLang

/-- What went wrong while parsing. -/
inductive ParseFault where
  /-- The current record is not the expected lexeme of the expected kind. -/
  | unexpectedElements (got : String) (gotKind : TokenKind) (exp : String) (expKind : TokenKind)
  /-- The current record is not of the expected kind, or not an expression, or not the end. -/
  | unexpectedToken (got : String) (gotKind : TokenKind) (exp : String)
  /-- An assignment's target is not followed by `=`. -/
  | expectedAssign
  /-- No statement starts with this lexeme. -/
  | unexpectedStatement (lexeme : String)
  /-- The identifier was declared before. -/
  | duplicateDeclaration (name : String)
  /-- Neither a condition nor an arithmetic expression could be read. -/
  | noValidExpression
  /-- The records ended where more were needed. -/
  | unexpectedEof
  /-- A bracket could not be consumed, or brackets are left open. -/
  | bracket (e : BracketError)
  deriving DecidableEq, Repr

/-- The fault's description. -/
def ParseFault.text : ParseFault → String
  | .unexpectedElements got gotKind exp expKind =>
    s!"has unexpected elements - ('{got}' '{gotKind.name}'). Expected - ('{exp}' '{expKind.name}')"
  | .unexpectedToken got gotKind exp =>
    s!"has unexpected token - '{got}' ({gotKind.name}). Expected - '{exp}'"
  | .expectedAssign => "expected assign statement"
  | .unexpectedStatement lexeme => s!"cannot start a statement with '{lexeme}'"
  | .duplicateDeclaration name => s!"has duplicate declaration of '{name}'"
  | .noValidExpression => "has no valid expression"
  | .unexpectedEof => "unexpected end of input"
  | .bracket e => e.message

/-- A parse error: the line it is reported at and the fault. -/
structure ParseError where
  /-- The line of the record where the fault was found. -/
  line : Nat
  /-- What went wrong. -/
  fault : ParseFault
  deriving DecidableEq, Repr

/-- The error's message. -/
def ParseError.message (e : ParseError) : String :=
  s!"Parser Error:\n\tLine {e.line} " ++ e.fault.text

/-- The parser between two steps. -/
structure ParseState where
  /-- The records not yet consumed. -/
  rest : List Record
  /-- The code emitted so far, newest instruction first. -/
  code : List Instr := []
  /-- The brackets open so far. -/
  brackets : Brackets := {}
  /-- Consumed records whose trace is held back by an active attempt, newest first. -/
  held : List Record := []
  /-- Consumed records that have been traced, newest first. -/
  traced : List Record := []
  /-- The number of active attempts. -/
  depth : Nat := 0
  /-- The identifier and constant tables. -/
  tables : Tables
  /-- The line of the last record of the program, or 1 when there is none. -/
  lastLine : Nat
  deriving Inhabited

/-- What a production started in state `s` answers: success or an error, and the state after
it, which holds no more records than `s`. -/
structure Reply (s : ParseState) where
  /-- Success, or the error that stopped the production. -/
  result : Except ParseError Unit
  /-- The state after the production. -/
  state : ParseState
  /-- No records were given back. -/
  le : state.rest.length ≤ s.rest.length

/-- A state after a consuming step, strictly shorter than `s`. -/
abbrev Shorter (s : ParseState) := { t : ParseState // t.rest.length < s.rest.length }

namespace ParseState

/-- The line of the current record, else of the last record. -/
def line (s : ParseState) : Nat :=
  match s.rest with
  | r :: _ => r.line
  | [] => s.lastLine

/-- An error reported at the current line. -/
def error (s : ParseState) (f : ParseFault) : ParseError := ⟨s.line, f⟩

/-- The current record is this lexeme of this kind. -/
def check (s : ParseState) (lexeme : String) (kind : TokenKind) : Bool :=
  match s.rest with
  | r :: _ => r.Is lexeme kind
  | [] => false

/-- The current record has this kind. -/
def checkKind (s : ParseState) (kind : TokenKind) : Bool :=
  match s.rest with
  | r :: _ => r.kind == kind
  | [] => false

/-- The error for a current record that is not what was expected; at the end of the records,
the end itself is the error. -/
def unexpected (s : ParseState) (exp : String) : ParseError :=
  match s.rest with
  | r :: _ => s.error (.unexpectedToken r.lexeme r.kind exp)
  | [] => s.error .unexpectedEof

/-- Logs a consumed record: held back inside an attempt, traced otherwise. -/
def log (s : ParseState) (r : Record) : ParseState :=
  if s.depth = 0 then { s with traced := r :: s.traced } else { s with held := r :: s.held }

theorem log_rest (s : ParseState) (r : Record) : (s.log r).rest = s.rest := by
  unfold log; split <;> rfl

/-- Consumes the current record and logs it. -/
def advance (s : ParseState) : Except ParseError (Record × Shorter s) :=
  match h : s.rest with
  | [] => .error (s.error .unexpectedEof)
  | r :: tail =>
    .ok (r, ⟨({ s with rest := tail } : ParseState).log r, by rw [log_rest, h]; simp⟩)

/-- Consumes the current record if it is this lexeme of this kind. -/
def expect (s : ParseState) (lexeme : String) (kind : TokenKind) :
    Except ParseError (Record × Shorter s) :=
  match s.rest with
  | [] => .error (s.error .unexpectedEof)
  | r :: _ =>
    if r.Is lexeme kind then s.advance
    else .error (s.error (.unexpectedElements r.lexeme r.kind lexeme kind))

/-- Consumes the current record if it has this kind. -/
def expectKind (s : ParseState) (kind : TokenKind) : Except ParseError (Record × Shorter s) :=
  match s.rest with
  | [] => .error (s.error .unexpectedEof)
  | r :: _ => if r.kind == kind then s.advance else .error (s.unexpected kind.name)

/-- Consumes the bracket `c` through the bracket stack. At the end of the records the open
brackets are the error, if any are open. -/
def bracket (s : ParseState) (c : Char) : Except ParseError (Record × Shorter s) :=
  match s.rest with
  | [] =>
    match s.brackets.unclosed? with
    | some e => .error (s.error (.bracket e))
    | none => .error (s.error .unexpectedEof)
  | r :: _ =>
    match s.brackets.control r.lexeme c with
    | (some e, _) => .error (s.error (.bracket e))
    | (none, b) =>
      match ({ s with brackets := b } : ParseState).advance with
      | .error e => .error e
      | .ok (r, ⟨t, ht⟩) => .ok (r, ⟨t, ht⟩)

/-- Appends an instruction to the code. -/
def emit (s : ParseState) (i : Instr) : ParseState := { s with code := i :: s.code }

/-- What an attempt restores when its production fails. -/
structure Checkpoint where
  /-- The remaining records. -/
  rest : List Record
  /-- The code. -/
  code : List Instr
  /-- The held records. -/
  held : List Record
  /-- The bracket stack. -/
  brackets : Brackets

/-- The checkpoint of a state. -/
def checkpoint (s : ParseState) : Checkpoint := ⟨s.rest, s.code, s.held, s.brackets⟩

/-- The state inside one more attempt. -/
def enter (s : ParseState) : ParseState := { s with depth := s.depth + 1 }

/-- Leaves an attempt: rolls back to the checkpoint if the production failed, and traces the
held records once no attempt is active. -/
def leave (t : ParseState) (cp : Checkpoint) (failed : Bool) : ParseState :=
  let t := { t with depth := t.depth - 1 }
  let t := if failed then
      { t with rest := cp.rest, code := cp.code, held := cp.held, brackets := cp.brackets }
    else t
  if t.depth = 0 then { t with traced := t.held ++ t.traced, held := [] } else t

theorem leave_rest (t : ParseState) (cp : Checkpoint) (failed : Bool) :
    (t.leave cp failed).rest = if failed then cp.rest else t.rest := by
  unfold leave
  cases failed <;> simp only [Bool.false_eq_true, if_false, if_true] <;> split <;> rfl

end ParseState

namespace Reply

/-- A production that succeeded in state `t`. -/
def ok {s : ParseState} (t : ParseState) (h : t.rest.length ≤ s.rest.length) : Reply s :=
  ⟨.ok (), t, h⟩

/-- A consuming step's error, in the state before the step. -/
def fail (s : ParseState) (e : ParseError) : Reply s := ⟨.error e, s, Nat.le_refl _⟩

/-- The reply of a production started in a shorter state. -/
def widen {s t : ParseState} (r : Reply t) (h : t.rest.length ≤ s.rest.length) : Reply s :=
  ⟨r.result, r.state, Nat.le_trans r.le h⟩

/-- Continues after a successful reply; an error stops with its state. -/
def andThen {s : ParseState} (r : Reply s)
    (k : (t : ParseState) → t.rest.length ≤ s.rest.length → Reply t) : Reply s :=
  match r with
  | ⟨.ok (), t, h⟩ => (k t h).widen h
  | ⟨.error e, t, h⟩ => ⟨.error e, t, h⟩

/-- Ends an attempt begun in `s`: the production's reply, with its state rolled back on
failure. -/
def attempt {s : ParseState} (r : Reply s.enter) : Reply s :=
  let failed := match r.result with
    | .ok () => false
    | .error _ => true
  ⟨r.result, r.state.leave s.checkpoint failed, by
    rw [ParseState.leave_rest]
    have := r.le
    split
    · exact Nat.le_refl _
    · exact this⟩

end Reply

end RpnLang
