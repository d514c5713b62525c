/-!
# Token kinds and lexeme records

A finished lexeme carries one of thirteen token kinds. Reserved words and operator spellings
get their kind from a fixed table; any other lexeme gets it from the automaton state that
finished it. The lexer's result is a list of records: line, lexeme, kind and, for identifiers
and constants, the 1-based index of the table entry that the lexeme names.
-/

namespace RpnLang

/-- The kind of a finished lexeme. -/
inductive TokenKind where
  /-- A reserved word such as `program`, `int` or `print`. -/
  | keyword
  /-- An identifier. -/
  | ident
  /-- An integer literal. -/
  | int
  /-- A literal with a decimal point. -/
  | float
  /-- A literal with a decimal point and an exponent. -/
  | exp
  /-- `true` or `false`. -/
  | boolval
  /-- The assignment `=`. -/
  | assignOp
  /-- A comparison: `<`, `>`, `<=`, `>=`, `==`, `!=`. -/
  | relOp
  /-- `+` or `-`. -/
  | addOp
  /-- `*` or `/`. -/
  | multOp
  /-- `^`. -/
  | powOp
  /-- A bracket: `(`, `)`, `{`, `}`. -/
  | parOp
  /-- A separator: `;`, `,`, `:`. -/
  | punct
  deriving DecidableEq, Repr, Inhabited

namespace TokenKind

/-- The kind's name, as diagnostics and error texts write it. -/
def name : TokenKind → String
  | .keyword => "keyword"
  | .ident => "ident"
  | .int => "int"
  | .float => "float"
  | .exp => "exp"
  | .boolval => "boolval"
  | .assignOp => "assign_op"
  | .relOp => "rel_op"
  | .addOp => "add_op"
  | .multOp => "mult_op"
  | .powOp => "pow_op"
  | .parOp => "par_op"
  | .punct => "punct"

/-- Literal kinds: their lexemes are interned in the constant table. -/
def isConstant : TokenKind → Bool
  | .int | .float | .exp | .boolval => true
  | _ => false

/-- Operand kinds: identifiers and literals, which the machine pushes as they are. -/
def isOperand (k : TokenKind) : Bool :=
  k == .ident || k.isConstant

/-- The kind that a reserved spelling always has, whatever state finished it. -/
def reserved? : String → Option TokenKind
  | "program" | "int" | "float" | "boolean" | "while" | "do" | "if" | "then" | "input"
  | "print" => some .keyword
  | "true" | "false" => some .boolval
  | "=" => some .assignOp
  | "<=" | ">=" | "<" | ">" | "==" | "!=" => some .relOp
  | "." | "," | ":" | ";" | "E" => some .punct
  | "+" | "-" => some .addOp
  | "*" | "/" => some .multOp
  | "^" => some .powOp
  | "(" | ")" | "\x7b" | "\x7d" => some .parOp
  | _ => none

end TokenKind

/-- A finished lexeme in source order. -/
structure Record where
  /-- The 1-based source line the lexeme ends on. -/
  line : Nat
  /-- The characters of the lexeme. -/
  lexeme : String
  /-- The lexeme's token kind. -/
  kind : TokenKind
  /-- The 1-based table index, for identifiers and constants only. -/
  index : Option Nat
  deriving DecidableEq, Repr, Inhabited

namespace Record

/-- The record has exactly this lexeme and this kind. -/
def Is (r : Record) (lexeme : String) (kind : TokenKind) : Bool :=
  r.kind == kind && r.lexeme == lexeme

end Record

end RpnLang
