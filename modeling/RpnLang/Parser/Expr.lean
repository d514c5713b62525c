import RpnLang.Parser.State

/-!
# Expressions

The expression grammar, from the loosest level to the tightest:

* a condition is `true`, `false`, a comparison in parentheses, or a comparison;
* a comparison is two arithmetic expressions around one comparison operator;
* an arithmetic expression is an optional sign, then terms joined by `+` and `-`;
* a term is chunks joined by `*` and `/`, a chunk is factors joined by `^`;
* a factor is an identifier, a literal, or an arithmetic expression in parentheses.

Operators of one level associate to the left and are emitted after their right operand. A
leading `-` emits a zero before the first term and `-` after it; the zero is interned in the
constant table. An expression on the right of `=` is read as a condition if that succeeds and
else as an arithmetic expression; a parenthesised comparison is tried before a plain one. Both
choices backtrack through attempts.

Each arithmetic production is ranked; a production calls another on the same records only if
that one has a lower rank, and every loop consumes a record before it repeats.
-/

namespace RpnLang

open ParseState

mutual

/-- An arithmetic expression: an optional sign, a term, and more terms joined by `+` or `-`.
A leading minus emits an interned zero before the first term and `-` after it. -/
def arith (s : ParseState) : Reply s :=
  if s.checkKind .addOp then
    match s.advance with
    | .error e => .fail s e
    | .ok (sign, ⟨t, h⟩) =>
      if sign.lexeme = "-" then
        let (zero, tables) := t.tables.internValue (.int 0)
        let t' := ({ t with tables } : ParseState).emit (.token zero .int)
        have h' : t'.rest.length < s.rest.length := h
        ((term t').andThen fun u _ =>
          (arithMore (u.emit (.token "-" .addOp))).widen (Nat.le_refl _)).widen (Nat.le_of_lt h')
      else
        ((term t).andThen fun u _ => arithMore u).widen (Nat.le_of_lt h)
  else
    (term s).andThen fun u _ => arithMore u
termination_by s.rest.length * 8 + 6
decreasing_by all_goals (try dsimp only [ParseState.emit] at *); omega

/-- More terms, each after a `+` or `-`, which is emitted after the term. -/
def arithMore (s : ParseState) : Reply s :=
  if s.checkKind .addOp then
    match s.advance with
    | .error e => .fail s e
    | .ok (op, ⟨t, h⟩) =>
      ((term t).andThen fun u _ =>
        (arithMore (u.emit (.ofRecord op))).widen (Nat.le_refl _)).widen (Nat.le_of_lt h)
  else .ok s (Nat.le_refl _)
termination_by s.rest.length * 8 + 5
decreasing_by all_goals (try dsimp only [ParseState.emit] at *); omega

/-- A term: chunks joined by `*` or `/`. -/
def term (s : ParseState) : Reply s :=
  (chunk s).andThen fun u _ => termMore u
termination_by s.rest.length * 8 + 4
decreasing_by all_goals omega

/-- More chunks, each after a `*` or `/`, which is emitted after the chunk. -/
def termMore (s : ParseState) : Reply s :=
  if s.checkKind .multOp then
    match s.advance with
    | .error e => .fail s e
    | .ok (op, ⟨t, h⟩) =>
      ((chunk t).andThen fun u _ =>
        (termMore (u.emit (.ofRecord op))).widen (Nat.le_refl _)).widen (Nat.le_of_lt h)
  else .ok s (Nat.le_refl _)
termination_by s.rest.length * 8 + 3
decreasing_by all_goals (try dsimp only [ParseState.emit] at *); omega

/-- A chunk: factors joined by `^`. -/
def chunk (s : ParseState) : Reply s :=
  (factor s).andThen fun u _ => chunkMore u
termination_by s.rest.length * 8 + 2
decreasing_by all_goals omega

/-- More factors, each after a `^`, which is emitted after the factor. -/
def chunkMore (s : ParseState) : Reply s :=
  if s.checkKind .powOp then
    match s.advance with
    | .error e => .fail s e
    | .ok (op, ⟨t, h⟩) =>
      ((factor t).andThen fun u _ =>
        (chunkMore (u.emit (.ofRecord op))).widen (Nat.le_refl _)).widen (Nat.le_of_lt h)
  else .ok s (Nat.le_refl _)
termination_by s.rest.length * 8 + 1
decreasing_by all_goals (try dsimp only [ParseState.emit] at *); omega

/-- A factor: an operand, emitted as it is, or an arithmetic expression in parentheses. -/
def factor (s : ParseState) : Reply s :=
  match s.rest with
  | [] => .fail s (s.error .unexpectedEof)
  | r :: _ =>
    if r.kind.isOperand then
      match s.advance with
      | .error e => .fail s e
      | .ok (r, ⟨t, h⟩) => .ok (t.emit (.ofRecord r)) (Nat.le_of_lt h)
    else if r.Is "(" .parOp then
      match s.bracket '(' with
      | .error e => .fail s e
      | .ok (_, ⟨t, h⟩) =>
        ((arith t).andThen fun u _ =>
          match u.bracket ')' with
          | .error e => .fail u e
          | .ok (_, ⟨v, hv⟩) => .ok v (Nat.le_of_lt hv)).widen (Nat.le_of_lt h)
    else .fail s (s.unexpected "<expression>")
termination_by s.rest.length * 8
decreasing_by all_goals omega

end

/-- Two arithmetic expressions around a comparison operator, which is emitted last. -/
def comparison (s : ParseState) : Reply s :=
  (arith s).andThen fun t _ =>
    match t.expectKind .relOp with
    | .error e => .fail t e
    | .ok (op, ⟨u, hu⟩) =>
      ((arith u).andThen fun v _ => .ok (v.emit (.ofRecord op)) (Nat.le_refl _)).widen
        (Nat.le_of_lt hu)

/-- A comparison between parentheses. -/
def parenComparison (s : ParseState) : Reply s :=
  match s.bracket '(' with
  | .error e => .fail s e
  | .ok (_, ⟨t, h⟩) =>
    ((comparison t).andThen fun u _ =>
      match u.bracket ')' with
      | .error e => .fail u e
      | .ok (_, ⟨v, hv⟩) => .ok v (Nat.le_of_lt hv)).widen (Nat.le_of_lt h)

/-- A condition: a truth literal, a parenthesised comparison if one can be read, or else a
comparison. -/
def condition (s : ParseState) : Reply s :=
  if s.checkKind .boolval then
    match s.advance with
    | .error e => .fail s e
    | .ok (r, ⟨t, h⟩) => .ok (t.emit (.ofRecord r)) (Nat.le_of_lt h)
  else if s.check "(" .parOp then
    match (parenComparison s.enter).attempt with
    | ⟨.ok (), t, h⟩ => .ok t h
    | ⟨.error _, t, h⟩ => (comparison t).widen h
  else comparison s

/-- The right side of an assignment: a condition if one can be read, else an arithmetic
expression; if neither can, the error is reported where the expression starts. -/
def expression (s : ParseState) : Reply s :=
  match (condition s.enter).attempt with
  | ⟨.ok (), t, h⟩ => .ok t h
  | ⟨.error _, t, h⟩ =>
    match (arith t.enter).attempt with
    | ⟨.ok (), u, hu⟩ => .ok u (Nat.le_trans hu h)
    | ⟨.error _, u, hu⟩ => ⟨.error (u.error .noValidExpression), u, Nat.le_trans hu h⟩

end RpnLang
