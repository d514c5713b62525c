import RpnLang.Code
import RpnLang.Value

/-!
# Derivations in the grammar of programs

A derivation is a tree of the grammar of programs with the records at its leaves:

* a program is `program`, a name, `{`, declarations, a statement block and `}`;
* a declaration is a type keyword, a comma-separated list of names and `;`;
* a statement is an assignment `x = e;`, an `input` or `print` list, `if (c) { ... }` or
  `do { ... } while (c)`;
* the right side of an assignment is a condition or an arithmetic expression, a condition is a
  truth literal, a comparison, or a comparison in parentheses;
* arithmetic has four levels, each an operand of the next tighter level followed by operators
  of its own level with their right operands.

A terminal is read as the parser reads it: brackets by their one character, keywords and
separators by lexeme and kind, operators, identifiers and literals by kind alone.

The yield of a derivation is the list of its records in order; its emission is the
reverse-Polish code it stands for. Operators follow their right operand, so operators of one
level associate to the left; a leading minus stands for a subtraction from an interned zero.
-/

namespace RpnLang

/-- A record read by its kind alone. -/
abbrev OfKind (kind : TokenKind) := { r : Record // r.kind = kind }

/-- A record read as the word `lexeme` of kind `kind`. -/
abbrev Word (lexeme : String) (kind : TokenKind) := { r : Record // r.Is lexeme kind = true }

/-- A record read as a word has the word's kind. -/
theorem Record.kind_of_is {r : Record} {lexeme : String} {kind : TokenKind}
    (h : r.Is lexeme kind = true) : r.kind = kind := by
  simp only [Record.Is, Bool.and_eq_true, beq_iff_eq] at h
  exact h.1

/-- A record read as the bracket `c`: its lexeme is that one character. -/
abbrev Bracket (c : Char) := { r : Record // r.lexeme.toList = [c] }

/-- An identifier or a literal, which is pushed as it is. -/
abbrev Operand := { r : Record // r.kind.isOperand = true }

/-- The keyword of an `input` or `print` list. -/
abbrev IoWord := { r : Record // r.kind = .keyword ∧ (r.lexeme = "input" ∨ r.lexeme = "print") }

/-- A type keyword: `int`, `float` or `boolean`. -/
abbrev TypeWord := { r : Record // r.kind = .keyword ∧ (Ty.ofKeyword? r.lexeme).isSome }

/-- The levels of arithmetic, from the loosest to the tightest. -/
inductive Level where
  /-- Terms joined by `+` and `-`, with an optional sign. -/
  | arith
  /-- Chunks joined by `*` and `/`. -/
  | term
  /-- Factors joined by `^`. -/
  | chunk
  /-- An operand or a parenthesised arithmetic expression. -/
  | factor
  deriving DecidableEq, Repr

/-- A derivation of arithmetic at a level. A level's operators chain to the left: the left
operand of an operator is the chain so far. -/
inductive Arith : Level → Type where
  /-- An optional sign and the first term. -/
  | signed (sign : Option (OfKind .addOp)) (first : Arith .term) : Arith .arith
  /-- An arithmetic expression, `+` or `-`, and one more term. -/
  | add (left : Arith .arith) (op : OfKind .addOp) (right : Arith .term) : Arith .arith
  /-- The first chunk of a term. -/
  | term (first : Arith .chunk) : Arith .term
  /-- A term, `*` or `/`, and one more chunk. -/
  | mul (left : Arith .term) (op : OfKind .multOp) (right : Arith .chunk) : Arith .term
  /-- The first factor of a chunk. -/
  | chunk (first : Arith .factor) : Arith .chunk
  /-- A chunk, `^`, and one more factor. -/
  | pow (left : Arith .chunk) (op : OfKind .powOp) (right : Arith .factor) : Arith .chunk
  /-- An identifier or a literal. -/
  | operand (r : Operand) : Arith .factor
  /-- An arithmetic expression in parentheses. -/
  | paren (lp : Bracket '(') (inner : Arith .arith) (rp : Bracket ')') : Arith .factor

/-- Two arithmetic expressions around a comparison operator. -/
structure Comparison where
  /-- The left side. -/
  left : Arith .arith
  /-- The comparison operator. -/
  op : OfKind .relOp
  /-- The right side. -/
  right : Arith .arith

/-- A condition of an `if`, a loop or an assignment. -/
inductive Cond where
  /-- `true` or `false`. -/
  | lit (r : OfKind .boolval)
  /-- A comparison. -/
  | compare (c : Comparison)
  /-- A comparison in parentheses. -/
  | paren (lp : Bracket '(') (c : Comparison) (rp : Bracket ')')

/-- The right side of an assignment. -/
inductive Rhs where
  /-- A condition. -/
  | cond (c : Cond)
  /-- An arithmetic expression. -/
  | arith (e : Arith .arith)

/-- A comma-separated list of identifiers. -/
structure Names where
  /-- The first identifier. -/
  first : OfKind .ident
  /-- Each further identifier with the comma before it. -/
  more : List (Word "," .punct × OfKind .ident)

mutual

/-- A statement. -/
inductive Stmt where
  /-- `x = e;` -/
  | assign (target : OfKind .ident) (eq : Word "=" .assignOp) (rhs : Rhs) (semi : Word ";" .punct)
  /-- `input(x, ...);` or `print(x, ...);` -/
  | io (kw : IoWord) (lp : Bracket '(') (names : Names) (rp : Bracket ')') (semi : Word ";" .punct)
  /-- `if (c) { ... }` -/
  | ifThen (kw : Word "if" .keyword) (lp : Bracket '(') (cond : Cond) (rp : Bracket ')')
      (body : Block)
  /-- `do { ... } while (c)` -/
  | doWhile (kw : Word "do" .keyword) (body : Block) (wkw : Word "while" .keyword)
      (lp : Bracket '(') (cond : Cond) (rp : Bracket ')')

/-- Statements between braces. -/
inductive Block where
  /-- The opening brace, the statements and the closing brace. -/
  | mk (lb : Bracket '{') (stmts : List Stmt) (rb : Bracket '}')

end

/-- A declaration of identifiers with one type. -/
structure Decl where
  /-- The type keyword. -/
  ty : TypeWord
  /-- The declared identifiers. -/
  names : Names
  /-- The closing `;`. -/
  semi : Word ";" .punct

/-- A whole program. -/
structure Program where
  /-- The keyword `program`. -/
  kw : Word "program" .keyword
  /-- The program's name. -/
  name : OfKind .ident
  /-- The opening brace. -/
  lb : Bracket '{'
  /-- The declarations. -/
  decls : List Decl
  /-- The statement block. -/
  body : Block
  /-- The closing brace. -/
  rb : Bracket '}'

/-! ### Yields -/

/-- The records of an arithmetic derivation, in order. -/
def Arith.yield : Arith l → List Record
  | .signed none first => first.yield
  | .signed (some sign) first => sign.1 :: first.yield
  | .add left op right => left.yield ++ op.1 :: right.yield
  | .term first => first.yield
  | .mul left op right => left.yield ++ op.1 :: right.yield
  | .chunk first => first.yield
  | .pow left op right => left.yield ++ op.1 :: right.yield
  | .operand r => [r.1]
  | .paren lp inner rp => lp.1 :: inner.yield ++ [rp.1]

/-- The records of a comparison. -/
def Comparison.yield (c : Comparison) : List Record :=
  c.left.yield ++ c.op.1 :: c.right.yield

/-- The records of a condition. -/
def Cond.yield : Cond → List Record
  | .lit r => [r.1]
  | .compare c => c.yield
  | .paren lp c rp => lp.1 :: c.yield ++ [rp.1]

/-- The records of the right side of an assignment. -/
def Rhs.yield : Rhs → List Record
  | .cond c => c.yield
  | .arith e => e.yield

/-- The identifiers of a list, in order. -/
def Names.idents (ns : Names) : List Record :=
  ns.first.1 :: ns.more.map (·.2.1)

/-- Every identifier of a list of names is an identifier record. -/
theorem Names.kind_of_mem_idents (ns : Names) : ∀ x ∈ ns.idents, x.kind = .ident := by
  intro x hx
  simp only [Names.idents, List.mem_cons, List.mem_map] at hx
  rcases hx with rfl | ⟨⟨_, y⟩, -, rfl⟩
  · exact ns.first.2
  · exact y.2

/-- The records of a list of identifiers. -/
def Names.yield (ns : Names) : List Record :=
  ns.first.1 :: ns.more.flatMap fun (comma, x) => [comma.1, x.1]

mutual

/-- The records of a statement. -/
def Stmt.yield : Stmt → List Record
  | .assign target eq rhs semi => target.1 :: eq.1 :: rhs.yield ++ [semi.1]
  | .io kw lp names rp semi => kw.1 :: lp.1 :: names.yield ++ [rp.1, semi.1]
  | .ifThen kw lp cond rp body => kw.1 :: lp.1 :: cond.yield ++ rp.1 :: body.yield
  | .doWhile kw body wkw lp cond rp => kw.1 :: body.yield ++ wkw.1 :: lp.1 :: cond.yield ++ [rp.1]

/-- The records of a block. -/
def Block.yield : Block → List Record
  | .mk lb stmts rb => lb.1 :: Stmt.yieldAll stmts ++ [rb.1]

/-- The records of statements, one after the other. -/
def Stmt.yieldAll : List Stmt → List Record
  | [] => []
  | s :: ss => s.yield ++ Stmt.yieldAll ss

end

/-- The records of a declaration. -/
def Decl.yield (d : Decl) : List Record :=
  d.ty.1 :: d.names.yield ++ [d.semi.1]

/-- The records of a program. -/
def Program.yield (p : Program) : List Record :=
  p.kw.1 :: p.name.1 :: p.lb.1 :: (p.decls.flatMap Decl.yield ++ p.body.yield ++ [p.rb.1])

/-! ### Emission -/

/-- The literal a leading minus subtracts from. -/
def zeroInstr : Instr := .token "0" .int

/-- The subtraction after the first term of a negated expression. -/
def minusInstr : Instr := .token "-" .addOp

/-- The code of an arithmetic derivation: operands as they are, each operator after its right
operand, a leading minus as a subtraction of the first term from zero, parentheses as nothing. -/
def Arith.emit : Arith l → List Instr
  | .signed none first => first.emit
  | .signed (some sign) first =>
    if sign.1.lexeme = "-" then zeroInstr :: first.emit ++ [minusInstr] else first.emit
  | .add left op right => left.emit ++ right.emit ++ [.ofRecord op.1]
  | .term first => first.emit
  | .mul left op right => left.emit ++ right.emit ++ [.ofRecord op.1]
  | .chunk first => first.emit
  | .pow left op right => left.emit ++ right.emit ++ [.ofRecord op.1]
  | .operand r => [.ofRecord r.1]
  | .paren _ inner _ => inner.emit

/-- The code of a comparison: both sides, then the operator. -/
def Comparison.emit (c : Comparison) : List Instr :=
  c.left.emit ++ c.right.emit ++ [.ofRecord c.op.1]

/-- The code of a condition. -/
def Cond.emit : Cond → List Instr
  | .lit r => [.ofRecord r.1]
  | .compare c => c.emit
  | .paren _ c _ => c.emit

/-- The code of the right side of an assignment. -/
def Rhs.emit : Rhs → List Instr
  | .cond c => c.emit
  | .arith e => e.emit

/-- The code of an `input` or `print` list: each identifier followed by the keyword. -/
def Names.emitWith (ns : Names) (kw : Record) : List Instr :=
  ns.idents.flatMap fun x => [.ofRecord x, .ofRecord kw]

mutual

/-- The code of a statement: the target, the right side and `=`; each listed identifier with
the keyword; the condition, the body and `IF`; `WHILE`, the body, the condition and `DO`. -/
def Stmt.emit : Stmt → List Instr
  | .assign target eq rhs _ => .ofRecord target.1 :: rhs.emit ++ [.ofRecord eq.1]
  | .io kw _ names _ _ => names.emitWith kw.1
  | .ifThen _ _ cond _ body => cond.emit ++ body.emit ++ [.marker .ifEnd]
  | .doWhile _ body _ _ cond _ => .marker .loopStart :: body.emit ++ cond.emit ++ [.marker .loopEnd]

/-- The code of a block: its statements' code. -/
def Block.emit : Block → List Instr
  | .mk _ stmts _ => Stmt.emitAll stmts

/-- The code of statements, one after the other. -/
def Stmt.emitAll : List Stmt → List Instr
  | [] => []
  | s :: ss => s.emit ++ Stmt.emitAll ss

end

/-- The code of a program: declarations emit nothing. -/
def Program.emit (p : Program) : List Instr :=
  p.body.emit

/-- The identifiers named in the declarations, in order. -/
def Program.declared (p : Program) : List Record :=
  p.decls.flatMap (·.names.idents)

/-- No identifier is named twice in the declarations. -/
def Program.DeclaredOnce (p : Program) : Prop :=
  (p.declared.map (·.lexeme)).Nodup

end RpnLang
