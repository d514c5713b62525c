import RpnLang.Arith
import RpnLang.Code
import RpnLang.Input
import RpnLang.Tables

/-!
# The stack machine

The machine runs reverse-Polish code from left to right over a stack of operand references.
Identifiers and literals are pushed as they are and resolved only when an operator uses them: an
identifier must be declared and hold a value, a literal is looked up by its lexeme in the
constant table. An arithmetic operator or a comparison pops its right operand, then its left,
and pushes a reference to the result, which is interned under its text. `=` pops a value and a
target, which must be a declared identifier, and stores the value without checking its type.
`input` reads one line for a declared identifier, `print` writes `x has value v (T)`. The
control-flow markers are not implemented and stop the machine.

What the program can observe, the tables, the input not yet read and the printed lines, is its
world; the machine is a world with an operand stack. Every step is a state transformer that may
stop with an error and keeps what it changed before it stopped: a line read by a failed `input`
stays read. The world's own steps resolve, store, intern, read and print; the machine pops their
operands and pushes their results.
-/

namespace RpnLang

/-- Why the machine stopped. -/
inductive RunError where
  /-- The identifier has no declared type. -/
  | undeclared (name : String)
  /-- The identifier holds no value yet. -/
  | uninitialized (name : String)
  /-- The literal is not in the constant table. -/
  | unknownConstant (key : String)
  /-- The target of an assignment or an input is not an identifier. -/
  | notAssignable (lexeme : String)
  /-- An arithmetic step or a comparison failed. -/
  | arith (e : ArithError)
  /-- The input line is blank. -/
  | emptyInput (name : String)
  /-- The input line is no value of the identifier's type. -/
  | invalidInput (name : String) (ty : Ty) (text : String)
  /-- No input line could be read. -/
  | inputUnavailable (f : InputFailure)
  /-- An operator found too few operands. -/
  | stackUnderflow (op : String)
  /-- A control-flow marker was reached. -/
  | notImplemented (lexeme : String)
  deriving DecidableEq, Repr

/-- The error's message. -/
def RunError.message : RunError → String
  | .undeclared name => s!"variable '{name}' was not declared"
  | .uninitialized name => s!"variable '{name}' wasn't initialized"
  | .unknownConstant key => s!"constant '{key}' is missing from the constant table"
  | .notAssignable lexeme => s!"'{lexeme}' cannot be assigned to"
  | .arith .divisionByZero => "division by zero"
  | .arith (.overflow op) => s!"result of '{op}' is out of range"
  | .arith (.notNumeric op ty) => s!"operator '{op}' expects numbers, got {ty.name}"
  | .arith (.incomparable l op r) =>
    s!"allowed to compare only boolean or number expressions ({l.name} {op} {r.name})"
  | .arith (.unsupported op) => s!"operator '{op}' is not supported"
  | .emptyInput name => s!"no data was provided for variable '{name}'"
  | .invalidInput name ty text => s!"invalid input '{text}' for variable '{name}' of type {ty.name}"
  | .inputUnavailable f => "could not read input: " ++ f.text
  | .stackUnderflow op => s!"'{op}' is missing an operand"
  | .notImplemented lexeme => s!"'{lexeme}' is not implemented"

/-- What a program observes and changes besides its operands. -/
structure World where
  /-- The tables: identifier values and interned constants. -/
  tables : Tables
  /-- The input bytes not yet read. -/
  unread : List UInt8
  /-- The lines printed so far. -/
  outputs : Array String := #[]
  deriving Inhabited

/-- A step of a program: it may stop with an error, keeping what it changed before. -/
abbrev Step (σ α : Type) := EStateM RunError σ α

namespace World

/-- A step that only looks at the world. -/
def inspect (f : World → Except RunError α) : Step World α := fun w =>
  match f w with
  | .ok a => .ok a w
  | .error e => .error e w

/-- The current value of an operand: a declared identifier's value or a literal's. -/
def valueOf (t : Tables) (i : Instr) : Except RunError Value :=
  match i with
  | .token name .ident =>
    match t.ident? name with
    | some e =>
      match e.ty, e.value with
      | some _, some v => .ok v
      | some _, none => .error (.uninitialized name)
      | none, _ => .error (.undeclared name)
    | none => .error (.undeclared name)
  | i =>
    match t.const? i.lexeme with
    | some c => .ok c.value
    | none => .error (.unknownConstant i.lexeme)

/-- The declared type of a target, which must be an identifier. -/
def typeOf (t : Tables) (i : Instr) : Except RunError Ty :=
  match i with
  | .token name .ident =>
    match t.ident? name with
    | some { ty := some ty, .. } => .ok ty
    | _ => .error (.undeclared name)
  | i => .error (.notAssignable i.lexeme)

/-- Resolves an operand. -/
def resolve (i : Instr) : Step World Value :=
  inspect fun w => valueOf w.tables i

/-- The declared type of a target. -/
def declared (i : Instr) : Step World Ty :=
  inspect fun w => typeOf w.tables i

/-- The token kind of a value's literal. -/
def kindOf : Value → TokenKind
  | .int _ => .int
  | .float _ => .float
  | .bool _ => .boolval

/-- Interns a computed value; the answer is a reference to it. -/
def intern (v : Value) : Step World Instr := fun w =>
  let (key, tables) := w.tables.internValue v
  .ok (.token key (kindOf v)) { w with tables }

/-- Applies an operator's computation to two operands and interns the result. -/
def apply (compute : Value → Value → Except ArithError Value) (left right : Instr) :
    Step World Instr := do
  let l ← resolve left
  let r ← resolve right
  match compute l r with
  | .ok v => intern v
  | .error e => throw (.arith e)

/-- `=`: the target must be declared, then the source's value is stored in it. -/
def assign (target source : Instr) : Step World Unit := do
  let _ ← declared target
  let v ← resolve source
  modify fun w => { w with tables := w.tables.store target.lexeme v }

/-- `input`: the target must be declared, then one line is read and its value stored. -/
def input (target : Instr) : Step World Unit := do
  let ty ← declared target
  let w ← get
  let (line, rest) := readLine w.unread
  set { w with unread := rest }
  match line with
  | .error f => throw (.inputUnavailable f)
  | .ok line =>
    let text := Text.trimBlank line
    if text.isEmpty then throw (.emptyInput target.lexeme)
    match Value.read? ty text with
    | none => throw (.invalidInput target.lexeme ty text)
    | some v => modify fun w => { w with tables := w.tables.store target.lexeme v }

/-- `print`: writes the operand's name, value and type. -/
def print (operand : Instr) : Step World Unit := do
  let v ← resolve operand
  modify fun w =>
    { w with outputs := w.outputs.push s!"{operand.lexeme} has value {v.text} ({v.ty.name})" }

end World

/-- The machine between two instructions: the world and the operand references, the top at
the head. -/
structure Machine extends World where
  /-- Operand references, the top at the head. -/
  stack : List Instr := []
  deriving Inhabited

namespace Machine

/-- Runs a step of the world on the machine's world. -/
def onWorld (x : Step World α) : Step Machine α := fun m =>
  match x m.toWorld with
  | .ok a w => .ok a { m with toWorld := w }
  | .error e w => .error e { m with toWorld := w }

/-- Pushes an operand reference. -/
def push (i : Instr) : Step Machine Unit :=
  modify fun m => { m with stack := i :: m.stack }

/-- Pops the top operand for an operator. -/
def pop (op : String) : Step Machine Instr := do
  let m ← get
  match m.stack with
  | i :: rest =>
    set { m with stack := rest }
    pure i
  | [] => throw (.stackUnderflow op)

/-- Pops the right operand and then the left one. -/
def popPair (op : String) : Step Machine (Instr × Instr) := do
  let right ← pop op
  let left ← pop op
  pure (left, right)

/-- A binary operator on the two top operands: the reference to its interned result replaces
them. -/
def binary (compute : Value → Value → Except ArithError Value) (op : String) :
    Step Machine Unit := do
  let (left, right) ← popPair op
  push (← onWorld (World.apply compute left right))

/-- An arithmetic operator on the two top operands. -/
def arithmetic (op : String) : Step Machine Unit :=
  binary (calculate op) op

/-- A comparison of the two top operands. -/
def compare (op : String) : Step Machine Unit :=
  binary (compareAs op) op

/-- `=`: the value of the top operand is stored in the target below it. -/
def assign (op : String) : Step Machine Unit := do
  let (target, source) ← popPair op
  onWorld (World.assign target source)

/-- A keyword for the top operand: the operand is popped and `act` runs on it. -/
def unary (op : String) (act : Instr → Step World Unit) : Step Machine Unit := do
  onWorld (act (← pop op))

/-- `input` for the top operand. -/
def readInput : Step Machine Unit :=
  unary "input" World.input

/-- `print` for the top operand. -/
def printTop : Step Machine Unit :=
  unary "print" World.print

/-- Executes one instruction. -/
def exec : Instr → Step Machine Unit
  | .marker mark => throw (.notImplemented mark.lexeme)
  | .token lexeme kind =>
    if kind.isOperand then push (.token lexeme kind)
    else if kind = .keyword ∧ lexeme = "input" then readInput
    else if kind = .keyword ∧ lexeme = "print" then printTop
    else if kind = .assignOp then assign lexeme
    else if kind = .addOp ∨ kind = .multOp ∨ kind = .powOp then arithmetic lexeme
    else if kind = .relOp then compare lexeme
    else throw (.arith (.unsupported lexeme))

/-- Runs code to its end or to the first error. -/
def run : List Instr → Step Machine Unit
  | [] => pure ()
  | i :: code => do
    exec i
    run code

end Machine

end RpnLang
