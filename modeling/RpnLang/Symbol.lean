/-!
# Symbol classes of source characters

The lexing automaton does not look at characters directly but at their symbol class: lower-case
letters, decimal digits, the two blanks, the line break, nineteen characters that are a class of
their own, and everything else. Only ASCII characters fall into the named classes, so every
other character of the source is `unknown` and can only end a lexeme or be refused.
-/

namespace RpnLang

/-- The class of a source character, as the lexing automaton sees it. -/
inductive SymbolClass where
  /-- A lower-case letter `a` to `z`. -/
  | letter
  /-- A decimal digit `0` to `9`. -/
  | digit
  /-- A space or a horizontal tab. -/
  | blank
  /-- The line feed. -/
  | newline
  /-- One of the characters that form a class of their own. -/
  | single (c : Char)
  /-- Any other character. -/
  | unknown
  deriving DecidableEq, Repr, Inhabited

namespace SymbolClass

/-- The nineteen characters that form a class of their own: operators, brackets, separators,
the decimal point, the double quote and the exponent mark `E`. -/
def singles : List Char :=
  ['+', '-', '*', '/', '^', '(', ')', '{', '}', ':', ';', ',', '.', '<', '>', '=', '!', '"', 'E']

/-- The symbol class of a character; the named classes are tried in order, so a letter or digit
is never a single. -/
def ofChar (c : Char) : SymbolClass :=
  if 'a' ≤ c ∧ c ≤ 'z' then .letter
  else if '0' ≤ c ∧ c ≤ '9' then .digit
  else if c = ' ' ∨ c = '\t' then .blank
  else if c = '\n' then .newline
  else if c ∈ singles then .single c
  else .unknown

-- Upper-case letters other than `E` have no class of their own, and the carriage return is no
-- blank.
example : ofChar 'A' = .unknown := by decide

example : ofChar '\r' = .unknown := by decide

end SymbolClass

end RpnLang
