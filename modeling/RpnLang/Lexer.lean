import RpnLang.Automaton
import RpnLang.Tables
import RpnLang.Text.Quoted

/-!
# Lexing source lines into records

The lexer feeds the characters of each line, and a line feed after each line, through the
automaton. A character that lands on a keeping state joins the pending lexeme; blanks and line
feeds drop it (a line feed also counts a line); a finishing state closes the lexeme with the
character, a retracting state closes it without the character, which is then fed again from the
start state. A closed lexeme gets its kind from the reserved spellings or else from the state
that closed it. Identifiers are registered and literals interned under their lexeme, and a
record of line, lexeme, kind and table index is appended.

A lexical error names the line, the character and the cause: one of the four refusing states,
a literal out of range (an integer beyond 64 bits or a real whose double is infinite; the
character is the one that ended the literal), or one of two causes that the automaton's tables
never produce.
-/

namespace RpnLang

/-- Why lexing stopped. -/
inductive LexFault where
  /-- No token starts with the character (state 101). -/
  | unexpectedSymbol
  /-- A `!` was not followed by `=` (state 102). -/
  | expectedEq
  /-- The decimal point was not followed by a digit (state 103). -/
  | expectedDigit
  /-- The exponent mark was not followed by `-` or a digit, or its `-` not by a digit
  (state 104). -/
  | expectedSignOrDigit
  /-- The state has no transition for the character. -/
  | noTransition (state : Nat)
  /-- The lexeme has no kind. -/
  | unclassified
  /-- An integer literal beyond 64 bits, or a real literal whose double is infinite. -/
  | literalOutOfRange
  deriving DecidableEq, Repr

namespace LexFault

/-- The refusal that a refusing state stands for. -/
def ofState : Nat → LexFault
  | 101 => .unexpectedSymbol
  | 102 => .expectedEq
  | 103 => .expectedDigit
  | 104 => .expectedSignOrDigit
  | _ => .unclassified

/-- The status code: the refusing state's number, or 100 for the other causes. -/
def code : LexFault → Nat
  | .unexpectedSymbol => 101
  | .expectedEq => 102
  | .expectedDigit => 103
  | .expectedSignOrDigit => 104
  | _ => 100

/-- The cause in words. -/
def text : LexFault → String
  | .unexpectedSymbol => "unexpected symbol"
  | .expectedEq => "'=' was expected"
  | .expectedDigit => "Digit was expected"
  | .expectedSignOrDigit => "'-' or Digit were expected"
  | .noTransition s => s!"no transition out of state {s}"
  | .unclassified => "lexeme could not be classified"
  | .literalOutOfRange => "numeric literal out of range"

end LexFault

/-- A lexical error: where it happened, on which character, and why. -/
structure LexError where
  /-- The line being read. -/
  line : Nat
  /-- The character being fed. -/
  symbol : Char
  /-- The cause. -/
  fault : LexFault
  deriving DecidableEq, Repr

namespace LexError

/-- The status code of the cause. -/
def code (e : LexError) : Nat := e.fault.code

/-- The error's message: code, line, cause and the quoted character. -/
def message (e : LexError) : String :=
  s!"{e.code} Lexer: in line {e.line} {e.fault.text}, received - " ++ Text.quoteChar e.symbol

end LexError

/-- The value of a literal lexeme of a given kind: a 64-bit integer, a finite double, or the
truth value `true` exactly when the lexeme is `true`. -/
def literalValue? (lexeme : String) : TokenKind → Option Value
  | .int => (Decimal.readInt64? lexeme).map .int
  | .float | .exp => (Value.finiteFloat? lexeme).map .float
  | .boolval => some (.bool (lexeme == "true"))
  | _ => none

/-- The lexer between two characters. -/
structure Lexer where
  /-- The automaton state. -/
  state : Nat := Automaton.start
  /-- The characters of the pending lexeme. -/
  lexeme : String := ""
  /-- The current line, from 1. -/
  line : Nat := 1
  /-- The tables built so far. -/
  tables : Tables := {}
  /-- The records of the closed lexemes. -/
  records : Array Record := #[]
  deriving Inhabited

/-- The outcome of one pass of a character through the automaton. -/
inductive Fed where
  /-- The character has been used. -/
  | done (lx : Lexer)
  /-- A lexeme was closed before the character, which is to be fed again. -/
  | again (lx : Lexer)

namespace Lexer

/-- An error at the current line. -/
def fail (lx : Lexer) (c : Char) (f : LexFault) : LexError := ⟨lx.line, c, f⟩

/-- Appends the record of a classified lexeme, which a character `c` ended: an identifier is
registered and a literal interned under its lexeme, and the record carries the table index. -/
def emit (lx : Lexer) (lexeme : String) (kind : TokenKind) (c : Char) :
    Except LexError Lexer :=
  if kind = .ident then
    let (i, tables) := lx.tables.registerIdent lexeme
    .ok { lx with tables, records := lx.records.push ⟨lx.line, lexeme, kind, some i⟩ }
  else if kind.isConstant then
    match literalValue? lexeme kind with
    | none => .error (lx.fail c .literalOutOfRange)
    | some v =>
      let (i, tables) := lx.tables.internConst lexeme v
      .ok { lx with tables, records := lx.records.push ⟨lx.line, lexeme, kind, some i⟩ }
  else .ok { lx with records := lx.records.push ⟨lx.line, lexeme, kind, none⟩ }

/-- Closes the pending lexeme, which a character `c` ended in state `s`: classifies it and
emits its record. -/
def close (lx : Lexer) (s : Nat) (c : Char) : Except LexError Lexer :=
  let lexeme := lx.lexeme
  let lx := { lx with lexeme := "", state := Automaton.start }
  match (TokenKind.reserved? lexeme).or (Automaton.stateKind? s) with
  | none => .error (lx.fail c .unclassified)
  | some kind => lx.emit lexeme kind c

/-- One pass of a character: the transition, then what the landing state's disposition says. -/
def feed (lx : Lexer) (c : Char) : Except LexError Fed :=
  match Automaton.next? lx.state (SymbolClass.ofChar c) with
  | none => .error (lx.fail c (.noTransition lx.state))
  | some t =>
    match Automaton.disposition t with
    | .reject => .error (lx.fail c (LexFault.ofState t))
    | .keep => .ok (.done { lx with lexeme := lx.lexeme.push c, state := t })
    | .skip => .ok (.done { lx with lexeme := "", state := Automaton.start })
    | .newline => .ok (.done { lx with lexeme := "", line := lx.line + 1, state := Automaton.start })
    | .finish => (({ lx with lexeme := lx.lexeme.push c } : Lexer).close t c).map .done
    | .retract => (lx.close t c).map .again

/-- Feeds a character, feeding it again after a lexeme closed before it. The second pass starts
in the start state, from which no transition retracts, so two passes always suffice. -/
def step (lx : Lexer) (c : Char) : Except LexError Lexer :=
  match lx.feed c with
  | .error e => .error e
  | .ok (.done lx) => .ok lx
  | .ok (.again lx) =>
    match lx.feed c with
    | .error e => .error e
    | .ok (.done lx) => .ok lx
    | .ok (.again lx) => .ok lx

/-- Feeds the characters of a line and then a line feed. -/
def feedLine (lx : Lexer) (line : String) : Except LexError Lexer :=
  (line.toList ++ ['\n']).foldlM step lx

end Lexer

/-- The result of lexing: the records and the tables. -/
structure Lexed where
  /-- The records in source order. -/
  records : Array Record
  /-- The identifier and constant tables. -/
  tables : Tables
  deriving Inhabited

/-- Lexes a list of lines. -/
def lex (lines : List String) : Except LexError Lexed :=
  match lines.foldlM Lexer.feedLine {} with
  | .ok lx => .ok ⟨lx.records, lx.tables⟩
  | .error e => .error e

end RpnLang
