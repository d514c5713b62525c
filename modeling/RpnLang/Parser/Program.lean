import RpnLang.Parser.Expr

/-!
# Statements, declarations and programs

A program is `program`, a name and a brace block that holds declarations and then a statement
block. A declaration is a type keyword and a comma-separated list of new identifiers, ended by
`;`; declaring an identifier twice is an error reported at the second occurrence. A statement
block is a brace block of statements:

* `x = e;` emits `x`, the code of `e`, and `=`;
* `input(x, y);` and `print(x, y);` emit each identifier followed by the keyword;
* `if (c) { ... }` emits the condition, the body and the marker `IF`;
* `do { ... } while (c)` emits `WHILE`, the body, the condition and `DO`.

After the program's closing brace all brackets must be closed and no record may remain. The
parser's result is the code and the tables with the declared types; whether it succeeds or not,
it also yields the records it traced, in order.
-/

namespace RpnLang

open ParseState

/-- Declares an identifier with a type; an identifier that already has a type is a duplicate,
reported at the line of the name. -/
def Tables.declare (t : Tables) (name : Record) (ty : Ty) : Except ParseError Tables :=
  match t.ident? name.lexeme with
  | some e =>
    if e.ty.isSome then .error ⟨name.line, .duplicateDeclaration name.lexeme⟩
    else .ok (t.setType name.lexeme ty)
  | none => .ok ((t.registerIdent name.lexeme).2.setType name.lexeme ty)

/-- A comma-separated list of identifiers declared with one type. -/
def declNames (s : ParseState) (ty : Ty) : Reply s :=
  match s.expectKind .ident with
  | .error e => .fail s e
  | .ok (name, ⟨t, h⟩) =>
    match t.tables.declare name ty with
    | .error e => ⟨.error e, t, Nat.le_of_lt h⟩
    | .ok tables =>
      let t' : ParseState := { t with tables }
      have h' : t'.rest.length < s.rest.length := h
      if t'.check "," .punct then
        match t'.advance with
        | .error e => ⟨.error e, t', Nat.le_of_lt h'⟩
        | .ok (_, ⟨u, hu⟩) => (declNames u ty).widen (Nat.le_of_lt (Nat.lt_trans hu h'))
      else .ok t' (Nat.le_of_lt h')
termination_by s.rest.length

/-- The type that the current record declares, if it is a type keyword. -/
def ParseState.declaredType? (s : ParseState) : Option Ty :=
  match s.rest with
  | r :: _ => if r.kind = .keyword then Ty.ofKeyword? r.lexeme else none
  | [] => none

/-- Declarations: while the current record is a type keyword, a list of names and `;`. -/
def declarations (s : ParseState) : Reply s :=
  match s.declaredType? with
  | none => .ok s (Nat.le_refl _)
  | some ty =>
    match s.advance with
    | .error e => .fail s e
    | .ok (_, ⟨t, h⟩) =>
      ((declNames t ty).andThen fun u _ =>
        match u.expect ";" .punct with
        | .error e => .fail u e
        | .ok (_, ⟨v, hv⟩) => (declarations v).widen (Nat.le_of_lt hv)).widen (Nat.le_of_lt h)
termination_by s.rest.length

/-- The rest of an assignment after its target, which is emitted first. -/
def assignRest (s : ParseState) (target : Record) : Reply s :=
  let s' := s.emit (.ofRecord target)
  have h' : s'.rest.length = s.rest.length := rfl
  match s'.rest with
  | [] => ⟨.error (s'.error .unexpectedEof), s', Nat.le_of_eq h'⟩
  | r :: _ =>
    if r.Is "=" .assignOp then
      match s'.advance with
      | .error e => ⟨.error e, s', Nat.le_of_eq h'⟩
      | .ok (op, ⟨t, h⟩) =>
        ((expression t).andThen fun u _ =>
          match u.expect ";" .punct with
          | .error e => .fail u e
          | .ok (_, ⟨v, hv⟩) => .ok (v.emit (.ofRecord op)) (Nat.le_of_lt hv)).widen
          (Nat.le_of_lt (Nat.lt_of_lt_of_eq h h'))
    else ⟨.error (s'.error .expectedAssign), s', Nat.le_of_eq h'⟩

/-- The identifiers of an `input` or `print` list, each emitted with the keyword after it. -/
def ioNames (s : ParseState) (kw : Record) : Reply s :=
  match s.expectKind .ident with
  | .error e => .fail s e
  | .ok (name, ⟨t, h⟩) =>
    let t' := (t.emit (.ofRecord name)).emit (.ofRecord kw)
    have h' : t'.rest.length < s.rest.length := h
    if t'.check "," .punct then
      match t'.advance with
      | .error e => ⟨.error e, t', Nat.le_of_lt h'⟩
      | .ok (_, ⟨u, hu⟩) => (ioNames u kw).widen (Nat.le_of_lt (Nat.lt_trans hu h'))
    else .ok t' (Nat.le_of_lt h')
termination_by s.rest.length

/-- The rest of an `input` or `print` statement after its keyword. -/
def ioRest (s : ParseState) (kw : Record) : Reply s :=
  match s.bracket '(' with
  | .error e => .fail s e
  | .ok (_, ⟨t, h⟩) =>
    ((ioNames t kw).andThen fun u _ =>
      match u.bracket ')' with
      | .error e => .fail u e
      | .ok (_, ⟨v, hv⟩) =>
        match v.expect ";" .punct with
        | .error e => ⟨.error e, v, Nat.le_of_lt hv⟩
        | .ok (_, ⟨w, hw⟩) => .ok w (Nat.le_of_lt (Nat.lt_trans hw hv))).widen (Nat.le_of_lt h)

mutual

/-- A statement block: statements between braces. -/
def block (s : ParseState) : Reply s :=
  match s.bracket '{' with
  | .error e => .fail s e
  | .ok (_, ⟨t, h⟩) =>
    ((statements t).andThen fun u _ =>
      match u.bracket '}' with
      | .error e => .fail u e
      | .ok (_, ⟨v, hv⟩) => .ok v (Nat.le_of_lt hv)).widen (Nat.le_of_lt h)
termination_by s.rest.length * 4
decreasing_by all_goals omega

/-- Statements up to the closing brace or the end of the records. Each statement is chosen by
its first record, which is consumed before the rest of the statement is read. -/
def statements (s : ParseState) : Reply s :=
  match s.rest with
  | [] => .ok s (Nat.le_refl _)
  | r :: _ =>
    if r.Is "\x7d" .parOp then .ok s (Nat.le_refl _)
    else if r.kind = .ident || (r.kind = .keyword &&
        (r.lexeme = "input" || r.lexeme = "print" || r.lexeme = "if" || r.lexeme = "do")) then
      match s.advance with
      | .error e => .fail s e
      | .ok (first, ⟨t, h⟩) =>
        let body : Reply t :=
          if first.kind = .ident then assignRest t first
          else if first.lexeme = "if" then ifRest t
          else if first.lexeme = "do" then doRest t
          else ioRest t first
        (body.andThen fun u _ => (statements u).widen (Nat.le_refl _)).widen (Nat.le_of_lt h)
    else .fail s (s.error (.unexpectedStatement r.lexeme))
termination_by s.rest.length * 4 + 2
decreasing_by all_goals omega

/-- The rest of an `if` statement after its keyword. -/
def ifRest (s : ParseState) : Reply s :=
  match s.bracket '(' with
  | .error e => .fail s e
  | .ok (_, ⟨t, h⟩) =>
    ((condition t).andThen fun u _ =>
      match u.bracket ')' with
      | .error e => .fail u e
      | .ok (_, ⟨v, hv⟩) =>
        ((block v).andThen fun w _ => .ok (w.emit (.marker .ifEnd)) (Nat.le_refl _)).widen
          (Nat.le_of_lt hv)).widen (Nat.le_of_lt h)
termination_by s.rest.length * 4 + 1
decreasing_by all_goals omega

/-- The rest of a `do` loop after its keyword. -/
def doRest (s : ParseState) : Reply s :=
  let s' := s.emit (.marker .loopStart)
  have h' : s'.rest.length = s.rest.length := rfl
  ((block s').andThen fun t _ =>
    match t.expect "while" .keyword with
    | .error e => .fail t e
    | .ok (_, ⟨u, hu⟩) =>
      match u.bracket '(' with
      | .error e => ⟨.error e, u, Nat.le_of_lt hu⟩
      | .ok (_, ⟨v, hv⟩) =>
        ((condition v).andThen fun w _ =>
          match w.bracket ')' with
          | .error e => .fail w e
          | .ok (_, ⟨x, hx⟩) => .ok (x.emit (.marker .loopEnd)) (Nat.le_of_lt hx)).widen
          (Nat.le_of_lt (Nat.lt_trans hv hu))).widen (Nat.le_of_eq h')
termination_by s.rest.length * 4 + 1
decreasing_by all_goals (try dsimp only [ParseState.emit]); omega

end

/-- A whole program: header, declarations, statement block, closing brace, all brackets
closed, and no record left over. -/
def program (s : ParseState) : Reply s :=
  match s.expect "program" .keyword with
  | .error e => .fail s e
  | .ok (_, ⟨s1, h1⟩) =>
    match s1.expectKind .ident with
    | .error e => ⟨.error e, s1, Nat.le_of_lt h1⟩
    | .ok (_, ⟨s2, h2⟩) =>
      match s2.bracket '{' with
      | .error e => ⟨.error e, s2, Nat.le_of_lt (Nat.lt_trans h2 h1)⟩
      | .ok (_, ⟨s3, h3⟩) =>
        ((declarations s3).andThen fun s4 _ =>
          (block s4).andThen fun s5 _ =>
            match s5.bracket '}' with
            | .error e => .fail s5 e
            | .ok (_, ⟨s6, h6⟩) =>
              match s6.brackets.unclosed? with
              | some e => ⟨.error (s6.error (.bracket e)), s6, Nat.le_of_lt h6⟩
              | none =>
                if s6.rest.isEmpty then .ok s6 (Nat.le_of_lt h6)
                else ⟨.error (s6.unexpected "<end of program>"), s6, Nat.le_of_lt h6⟩).widen
          (Nat.le_of_lt (Nat.lt_trans h3 (Nat.lt_trans h2 h1)))

/-- A successful parse: the code and the tables with declared types. -/
structure Translation where
  /-- The reverse-Polish code. -/
  code : Array Instr
  /-- The tables after parsing. -/
  tables : Tables
  deriving Inhabited

/-- The state a parse starts in: the records and the tables, with nothing emitted, no bracket
open and empty logs; the end of the records is reported at the line of the last record. -/
def ParseState.initial (records : List Record) (tables : Tables) : ParseState :=
  let lastLine := match records.getLast? with
    | some r => r.line
    | none => 1
  { rest := records, tables, lastLine }

/-- The records of a program parsed against its tables: the records traced, in order, and the
translation or the error. -/
def parse (records : List Record) (tables : Tables) : Array Record × Except ParseError Translation :=
  let r := program (ParseState.initial records tables)
  (r.state.traced.reverse.toArray, r.result.map fun () => ⟨r.state.code.reverse.toArray, r.state.tables⟩)

end RpnLang
