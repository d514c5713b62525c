import RpnLang.Machine
import RpnLang.Proofs.Derivation

/-!
# Running a derivation

A reference interpreter that walks a program's derivation instead of running its code. An
expression evaluates to an operand reference: a leaf is its own reference, resolved only where
an operator or a statement needs its value, so an error in a later operand can come before an
undeclared identifier in an earlier one. An operator evaluates its left side, then its right,
then resolves both and interns its result; a leading minus subtracts its term from the literal
zero.

Statements run in order. `x = e;` evaluates `e`, then requires `x` to be declared, then stores
the value. `input` and `print` treat their identifiers in order. `if (c) { S }` evaluates `c`,
runs `S` and then stops, since branching is not implemented; `do { S } while (c)` stops at
once.
-/

namespace RpnLang

/-- The operand reference an arithmetic derivation evaluates to. -/
def Arith.eval : Arith l → Step World Instr
  | .signed none first => first.eval
  | .signed (some sign) first =>
    if sign.1.lexeme = "-" then do
      let r ← first.eval
      World.apply (calculate "-") zeroInstr r
    else first.eval
  | .add left op right => do
    let a ← left.eval
    let b ← right.eval
    World.apply (calculate op.1.lexeme) a b
  | .term first => first.eval
  | .mul left op right => do
    let a ← left.eval
    let b ← right.eval
    World.apply (calculate op.1.lexeme) a b
  | .chunk first => first.eval
  | .pow left op right => do
    let a ← left.eval
    let b ← right.eval
    World.apply (calculate op.1.lexeme) a b
  | .operand r => pure (.ofRecord r.1)
  | .paren _ inner _ => inner.eval

/-- The truth value of a comparison, as a reference. -/
def Comparison.eval (c : Comparison) : Step World Instr := do
  let a ← c.left.eval
  let b ← c.right.eval
  World.apply (compareAs c.op.1.lexeme) a b

/-- The reference a condition evaluates to. -/
def Cond.eval : Cond → Step World Instr
  | .lit r => pure (.ofRecord r.1)
  | .compare c => c.eval
  | .paren _ c _ => c.eval

/-- The reference the right side of an assignment evaluates to. -/
def Rhs.eval : Rhs → Step World Instr
  | .cond c => c.eval
  | .arith e => e.eval

/-- One identifier of an `input` or a `print` list. -/
def ioStep (kw x : Record) : Step World Unit :=
  if kw.lexeme = "input" then World.input (.ofRecord x) else World.print (.ofRecord x)

mutual

/-- Runs a statement. -/
def Stmt.exec : Stmt → Step World Unit
  | .assign target _ rhs _ => do
    let r ← rhs.eval
    World.assign (.ofRecord target.1) r
  | .io kw _ names _ _ => names.idents.forM (ioStep kw.1)
  | .ifThen _ _ cond _ body => do
    let _ ← cond.eval
    body.exec
    throw (.notImplemented Marker.ifEnd.lexeme)
  | .doWhile .. => throw (.notImplemented Marker.loopStart.lexeme)

/-- Runs the statements of a block. -/
def Block.exec : Block → Step World Unit
  | .mk _ stmts _ => Stmt.execAll stmts

/-- Runs statements one after the other. -/
def Stmt.execAll : List Stmt → Step World Unit
  | [] => pure ()
  | s :: ss => do
    s.exec
    Stmt.execAll ss

end

/-- Runs a program: its statement block. -/
def Program.exec (p : Program) : Step World Unit :=
  p.body.exec

end RpnLang
