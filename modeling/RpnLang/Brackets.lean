import RpnLang.Text.Quoted

/-!
# The bracket stack

While a program is read, every `{` and `(` that has been opened and not yet closed is on a
stack. A bracket is consumed only where the grammar expects that very bracket: an opener is
pushed, a closer pops the innermost opener, which must be its partner. A mismatched closer still
pops, so the stack after a failed step is the stack after its pop.
-/

namespace RpnLang

/-- Why a bracket could not be consumed, or why the brackets are not balanced. -/
inductive BracketError where
  /-- The lexeme is not the single bracket character that was expected. -/
  | unexpected (got : String) (expected : Char)
  /-- The closer does not close the innermost opener. -/
  | mismatched (opener closer : Char)
  /-- The closer came with no bracket open. -/
  | nothingToClose (closer : Char)
  /-- These brackets, outermost first, are still open. -/
  | unclosed (openers : List Char)
  deriving DecidableEq, Repr

namespace BracketError

/-- The error's message. -/
def message : BracketError → String
  | .unexpected got expected => s!"unexpected bracket '{got}', expected - '{expected}'"
  | .mismatched opener closer => s!"bracket '{closer}' does not match '{opener}'"
  | .nothingToClose closer => s!"bracket '{closer}' closes nothing"
  | .unclosed openers => "some brackets weren't closed: " ++ Text.quoteChars openers

end BracketError

/-- The opener a closing bracket closes. -/
def openerOf? : Char → Option Char
  | '}' => some '{'
  | ')' => some '('
  | _ => none

/-- The open brackets, innermost first. -/
structure Brackets where
  /-- Open brackets, the innermost at the head. -/
  stack : List Char := []
  deriving DecidableEq, Repr, Inhabited

namespace Brackets

/-- Consumes the lexeme where the bracket `expected` is due: it must be exactly that character;
an opener is pushed, a closer pops and must close the opener it pops. Returns the error, if
any, and the stack afterwards. -/
def control (b : Brackets) (lexeme : String) (expected : Char) : Option BracketError × Brackets :=
  match lexeme.toList with
  | [c] =>
    if c ≠ expected then (some (.unexpected lexeme expected), b)
    else if c = '{' ∨ c = '(' then (none, ⟨c :: b.stack⟩)
    else
      match openerOf? c with
      | none => (some (.unexpected lexeme expected), b)
      | some want =>
        match b.stack with
        | [] => (some (.nothingToClose c), b)
        | o :: rest => if o = want then (none, ⟨rest⟩) else (some (.mismatched o c), ⟨rest⟩)
  | _ => (some (.unexpected lexeme expected), b)

/-- The brackets still open, outermost first, as an error; none when all are closed. -/
def unclosed? (b : Brackets) : Option BracketError :=
  if b.stack.isEmpty then none else some (.unclosed b.stack.reverse)

end Brackets

end RpnLang
