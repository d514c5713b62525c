import RpnLang.Token

/-!
# Reverse-Polish code

The parser's output is a flat list of instructions in reverse-Polish order: operands stand for
themselves, and every operator follows its operands. An instruction is either a token (its
lexeme and kind) or one of three control-flow markers, which the machine does not implement.
The code is shown as the lexemes joined by single spaces.
-/

namespace RpnLang

/-- The control-flow markers of conditional and loop statements. -/
inductive Marker where
  /-- Ends the body of an `if`. -/
  | ifEnd
  /-- Starts the body of a `do` loop. -/
  | loopStart
  /-- Ends a `do` loop after its condition. -/
  | loopEnd
  deriving DecidableEq, Repr, Inhabited

/-- The marker's lexeme. -/
def Marker.lexeme : Marker → String
  | .ifEnd => "IF"
  | .loopStart => "WHILE"
  | .loopEnd => "DO"

/-- One instruction of reverse-Polish code. -/
inductive Instr where
  /-- An operand or operator token. -/
  | token (lexeme : String) (kind : TokenKind)
  /-- A control-flow marker. -/
  | marker (m : Marker)
  deriving DecidableEq, Repr, Inhabited

namespace Instr

/-- The instruction that stands for a record's token. -/
def ofRecord (r : Record) : Instr := .token r.lexeme r.kind

/-- The instruction's lexeme. -/
def lexeme : Instr → String
  | .token l _ => l
  | .marker m => m.lexeme

end Instr

/-- The code shown as its lexemes separated by single spaces. -/
def renderCode (code : Array Instr) : String :=
  " ".intercalate (code.toList.map Instr.lexeme)

end RpnLang
