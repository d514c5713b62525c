import RpnLang.Proofs.BracketStack
import RpnLang.Proofs.LongestMatch

/-!
# Every bracket call sees the brackets of the active productions

The productions that open a bracket are the program, blocks, `input` and `print` lists, `if` and
`do` statements, parenthesised comparisons and factors. Each consumes its opener and later its
closer through the bracket stack, and the stack is a separate piece of state that attempts copy
and restore. The predicates `BracketCalls.*` follow the productions' own recursion and thread
the list `opened` of brackets that the enclosing productions have consumed and not yet closed,
innermost first: each bracket call must find exactly that list on the stack, with the caller's
own opener on top when it reads its closer. They are stated on the states the productions
actually reach, after failed attempts too.

Main statements:
* `arith_calls_all`, `block_calls_all` and `program_calls`: every production, from every state,
  makes its bracket calls on the stack it inherits;
* `afterFinalBrace_closed`: after the program's final brace no bracket is open, so the check that
  follows it always passes;
* `lex_bracketsTagged`: the lexer spells as brackets only records of the bracket kind, so the
  open brackets that a parse reports are those the lexed records leave open;
* `parse_bracket_errors`: all of it for a parse of any records.
-/

namespace RpnLang

open ParseState

/-- When the reply is a success, `P` holds of the state it ended in. -/
def Reply.OnOk {s : ParseState} (r : Reply s)
    (P : (t : ParseState) → t.rest.length ≤ s.rest.length → Prop) : Prop :=
  r.result = .ok () → P r.state r.le

namespace BracketCalls

mutual

/-- The bracket calls of an arithmetic expression read from `s`, inside productions that have
opened `opened`. -/
def arith (s : ParseState) (opened : List Char) : Prop :=
  if s.checkKind .addOp then
    match s.advance with
    | .error _ => True
    | .ok (sign, ⟨t, h⟩) =>
      if sign.lexeme = "-" then
        let (zero, tables) := t.tables.internValue (.int 0)
        let t' := ({ t with tables } : ParseState).emit (.token zero .int)
        have _h' : t'.rest.length < s.rest.length := h
        term t' opened ∧
          (RpnLang.term t').OnOk fun u _ => arithMore (u.emit (.token "-" .addOp)) opened
      else term t opened ∧ (RpnLang.term t).OnOk fun u _ => arithMore u opened
  else term s opened ∧ (RpnLang.term s).OnOk fun u _ => arithMore u opened
termination_by s.rest.length * 8 + 6
decreasing_by all_goals (try dsimp only [ParseState.emit] at *); omega

/-- The bracket calls of the terms after the first, each after a `+` or `-`. -/
def arithMore (s : ParseState) (opened : List Char) : Prop :=
  if s.checkKind .addOp then
    match s.advance with
    | .error _ => True
    | .ok (op, ⟨t, _h⟩) =>
      term t opened ∧ (RpnLang.term t).OnOk fun u _ => arithMore (u.emit (.ofRecord op)) opened
  else True
termination_by s.rest.length * 8 + 5
decreasing_by all_goals (try dsimp only [ParseState.emit] at *); omega

/-- The bracket calls of a term. -/
def term (s : ParseState) (opened : List Char) : Prop :=
  chunk s opened ∧ (RpnLang.chunk s).OnOk fun u _ => termMore u opened
termination_by s.rest.length * 8 + 4
decreasing_by all_goals omega

/-- The bracket calls of the chunks after the first, each after a `*` or `/`. -/
def termMore (s : ParseState) (opened : List Char) : Prop :=
  if s.checkKind .multOp then
    match s.advance with
    | .error _ => True
    | .ok (op, ⟨t, _h⟩) =>
      chunk t opened ∧ (RpnLang.chunk t).OnOk fun u _ => termMore (u.emit (.ofRecord op)) opened
  else True
termination_by s.rest.length * 8 + 3
decreasing_by all_goals (try dsimp only [ParseState.emit] at *); omega

/-- The bracket calls of a chunk. -/
def chunk (s : ParseState) (opened : List Char) : Prop :=
  factor s opened ∧ (RpnLang.factor s).OnOk fun u _ => chunkMore u opened
termination_by s.rest.length * 8 + 2
decreasing_by all_goals omega

/-- The bracket calls of the factors after the first, each after a `^`. -/
def chunkMore (s : ParseState) (opened : List Char) : Prop :=
  if s.checkKind .powOp then
    match s.advance with
    | .error _ => True
    | .ok (op, ⟨t, _h⟩) =>
      factor t opened ∧
        (RpnLang.factor t).OnOk fun u _ => chunkMore (u.emit (.ofRecord op)) opened
  else True
termination_by s.rest.length * 8 + 1
decreasing_by all_goals (try dsimp only [ParseState.emit] at *); omega

/-- The bracket calls of a factor: an opening parenthesis sees `opened`, and after the expression
inside, the closing one sees the parenthesis on top of it. -/
def factor (s : ParseState) (opened : List Char) : Prop :=
  match s.rest with
  | [] => True
  | r :: _ =>
    if r.kind.isOperand then True
    else if r.Is "(" .parOp then
      s.brackets.stack = opened ∧
        match s.bracket '(' with
        | .error _ => True
        | .ok (_, ⟨t, _⟩) =>
          arith t ('(' :: opened) ∧
            (RpnLang.arith t).OnOk fun u _ => u.brackets.stack = '(' :: opened
    else True
termination_by s.rest.length * 8
decreasing_by all_goals omega

end

/-- The bracket calls of a comparison: those of its two sides. -/
def comparison (s : ParseState) (opened : List Char) : Prop :=
  arith s opened ∧ (RpnLang.arith s).OnOk fun t _ =>
    match t.expectKind .relOp with
    | .error _ => True
    | .ok (_, ⟨u, _⟩) => arith u opened

/-- The bracket calls of a comparison between parentheses. -/
def parenComparison (s : ParseState) (opened : List Char) : Prop :=
  s.brackets.stack = opened ∧
    match s.bracket '(' with
    | .error _ => True
    | .ok (_, ⟨t, _⟩) =>
      comparison t ('(' :: opened) ∧
        (RpnLang.comparison t).OnOk fun u _ => u.brackets.stack = '(' :: opened

/-- The bracket calls of a condition, including those of a parenthesised comparison that fails
and of the plain comparison read after its rollback. -/
def condition (s : ParseState) (opened : List Char) : Prop :=
  if s.checkKind .boolval then True
  else if s.check "(" .parOp then
    parenComparison s.enter opened ∧
      match (RpnLang.parenComparison s.enter).attempt with
      | ⟨.ok (), _, _⟩ => True
      | ⟨.error _, t, _⟩ => comparison t opened
  else comparison s opened

/-- The bracket calls of the right side of an assignment, including those of a condition that
fails and of the arithmetic expression read after its rollback. -/
def expression (s : ParseState) (opened : List Char) : Prop :=
  condition s.enter opened ∧
    match (RpnLang.condition s.enter).attempt with
    | ⟨.ok (), _, _⟩ => True
    | ⟨.error _, t, _⟩ => arith t.enter opened

/-- The bracket calls of an assignment after its target. -/
def assignRest (s : ParseState) (target : Record) (opened : List Char) : Prop :=
  let s' := s.emit (.ofRecord target)
  match s'.rest with
  | [] => True
  | r :: _ =>
    if r.Is "=" .assignOp then
      match s'.advance with
      | .error _ => True
      | .ok (_, ⟨t, _⟩) => expression t opened
    else True

/-- The bracket calls of an `input` or `print` list. -/
def ioRest (s : ParseState) (kw : Record) (opened : List Char) : Prop :=
  s.brackets.stack = opened ∧
    match s.bracket '(' with
    | .error _ => True
    | .ok (_, ⟨t, _⟩) => (ioNames t kw).OnOk fun u _ => u.brackets.stack = '(' :: opened

mutual

/-- The bracket calls of a statement block: its braces and those of its statements. -/
def block (s : ParseState) (opened : List Char) : Prop :=
  s.brackets.stack = opened ∧
    match s.bracket '{' with
    | .error _ => True
    | .ok (_, ⟨t, _⟩) =>
      statements t ('{' :: opened) ∧
        (RpnLang.statements t).OnOk fun u _ => u.brackets.stack = '{' :: opened
termination_by s.rest.length * 4
decreasing_by all_goals omega

/-- The bracket calls of a list of statements, each chosen by its first record. -/
def statements (s : ParseState) (opened : List Char) : Prop :=
  match s.rest with
  | [] => True
  | r :: _ =>
    if r.Is "\x7d" .parOp then True
    else if r.kind = .ident || (r.kind = .keyword &&
        (r.lexeme = "input" || r.lexeme = "print" || r.lexeme = "if" || r.lexeme = "do")) then
      match s.advance with
      | .error _ => True
      | .ok (first, ⟨t, _h⟩) =>
        let body : Reply t :=
          if first.kind = .ident then RpnLang.assignRest t first
          else if first.lexeme = "if" then RpnLang.ifRest t
          else if first.lexeme = "do" then RpnLang.doRest t
          else RpnLang.ioRest t first
        (if first.kind = .ident then assignRest t first opened
          else if first.lexeme = "if" then ifRest t opened
          else if first.lexeme = "do" then doRest t opened
          else ioRest t first opened) ∧
          body.OnOk fun u _ => statements u opened
    else True
termination_by s.rest.length * 4 + 2
decreasing_by all_goals omega

/-- The bracket calls of an `if` statement after its keyword. -/
def ifRest (s : ParseState) (opened : List Char) : Prop :=
  s.brackets.stack = opened ∧
    match s.bracket '(' with
    | .error _ => True
    | .ok (_, ⟨t, _h⟩) =>
      condition t ('(' :: opened) ∧
        (RpnLang.condition t).OnOk fun u _ =>
          u.brackets.stack = '(' :: opened ∧
            match u.bracket ')' with
            | .error _ => True
            | .ok (_, ⟨v, _⟩) => block v opened
termination_by s.rest.length * 4 + 1
decreasing_by all_goals omega

/-- The bracket calls of a `do` loop after its keyword. -/
def doRest (s : ParseState) (opened : List Char) : Prop :=
  let s' := s.emit (.marker .loopStart)
  block s' opened ∧
    (RpnLang.block s').OnOk fun t _ =>
      match t.expect "while" .keyword with
      | .error _ => True
      | .ok (_, ⟨u, _⟩) =>
        u.brackets.stack = opened ∧
          match u.bracket '(' with
          | .error _ => True
          | .ok (_, ⟨v, _⟩) =>
            condition v ('(' :: opened) ∧
              (RpnLang.condition v).OnOk fun w _ => w.brackets.stack = '(' :: opened
termination_by s.rest.length * 4 + 1
decreasing_by all_goals (try dsimp only [ParseState.emit]); omega

end

/-- The bracket calls of a program: its braces and those of its statement block. -/
def program (s : ParseState) (opened : List Char) : Prop :=
  match s.expect "program" .keyword with
  | .error _ => True
  | .ok (_, ⟨s1, _⟩) =>
    match s1.expectKind .ident with
    | .error _ => True
    | .ok (_, ⟨s2, _⟩) =>
      s2.brackets.stack = opened ∧
        match s2.bracket '{' with
        | .error _ => True
        | .ok (_, ⟨s3, _⟩) =>
          (declarations s3).OnOk fun s4 _ =>
            block s4 ('{' :: opened) ∧
              (RpnLang.block s4).OnOk fun s5 _ => s5.brackets.stack = '{' :: opened

end BracketCalls

/-- The state after the program's final brace, when the program is read up to it. -/
def ParseState.afterFinalBrace? (s : ParseState) : Option ParseState :=
  match s.expect "program" .keyword with
  | .error _ => none
  | .ok (_, ⟨s1, _⟩) =>
    match s1.expectKind .ident with
    | .error _ => none
    | .ok (_, ⟨s2, _⟩) =>
      match s2.bracket '{' with
      | .error _ => none
      | .ok (_, ⟨s3, _⟩) =>
        match declarations s3 with
        | ⟨.error _, _, _⟩ => none
        | ⟨.ok (), s4, _⟩ =>
          match block s4 with
          | ⟨.error _, _, _⟩ => none
          | ⟨.ok (), s5, _⟩ =>
            match s5.bracket '\x7d' with
            | .error _ => none
            | .ok (_, ⟨s6, _⟩) => some s6

/-! ### Replies that keep the stack -/

namespace Reply

variable {s : ParseState} {r : Reply s} {b : List Char}

/-- What follows a production that keeps the stack `b` starts with `b`. -/
theorem Brackets.onOk {P : (t : ParseState) → t.rest.length ≤ s.rest.length → Prop}
    (hr : r.Brackets b) (hk : ∀ t h, t.brackets.stack = b → P t h) : r.OnOk P :=
  fun hok => hk _ _ (hr.2.1 hok)

/-- A bracket-keeping production that succeeds ends on the stack it started with. -/
theorem Brackets.onOk_stack (hr : r.Brackets b) : r.OnOk fun t _ => t.brackets.stack = b :=
  hr.2.1

end Reply

open Reply

/-! ### Arithmetic -/

/-- Every arithmetic production makes its bracket calls on the stack it inherits, by their mutual
induction: a factor in parentheses passes its parenthesis on to the expression inside and finds it
on top again when it reads the closer. -/
theorem arith_calls_all :
    (∀ s opened, s.brackets.stack = opened → BracketCalls.arith s opened) ∧
    (∀ s opened, s.brackets.stack = opened → BracketCalls.arithMore s opened) ∧
    (∀ s opened, s.brackets.stack = opened → BracketCalls.term s opened) ∧
    (∀ s opened, s.brackets.stack = opened → BracketCalls.termMore s opened) ∧
    (∀ s opened, s.brackets.stack = opened → BracketCalls.chunk s opened) ∧
    (∀ s opened, s.brackets.stack = opened → BracketCalls.chunkMore s opened) ∧
    (∀ s opened, s.brackets.stack = opened → BracketCalls.factor s opened) := by
  apply arith.mutual_induct
    (fun s => ∀ opened, s.brackets.stack = opened → BracketCalls.arith s opened)
    (fun s => ∀ opened, s.brackets.stack = opened → BracketCalls.arithMore s opened)
    (fun s => ∀ opened, s.brackets.stack = opened → BracketCalls.term s opened)
    (fun s => ∀ opened, s.brackets.stack = opened → BracketCalls.termMore s opened)
    (fun s => ∀ opened, s.brackets.stack = opened → BracketCalls.chunk s opened)
    (fun s => ∀ opened, s.brackets.stack = opened → BracketCalls.chunkMore s opened)
    (fun s => ∀ opened, s.brackets.stack = opened → BracketCalls.factor s opened)
  · intro s hk e ha opened _
    rw [BracketCalls.arith, if_pos hk, ha]
    trivial
  · intro s hk sign t h ha hminus zero tables hint t' _ ihTerm ihMore opened hs
    obtain ⟨rfl, rfl⟩ : zero = (t.tables.internValue (.int 0)).1 ∧
        tables = (t.tables.internValue (.int 0)).2 := by rw [hint]; exact ⟨rfl, rfl⟩
    rw [BracketCalls.arith, if_pos hk, ha]
    simp only [if_pos hminus]
    have ht : t'.brackets.stack = opened := by
      show t.brackets.stack = _
      rw [advance_brackets ha, hs]
    exact ⟨ihTerm opened ht,
      ((arith_brackets_all.2.2.1 t').stack_eq ht).onOk fun u hu hus => ihMore u hu opened hus⟩
  · intro s hk sign t h ha hminus ihTerm ihMore opened hs
    rw [BracketCalls.arith, if_pos hk, ha]
    simp only [if_neg hminus]
    have ht : t.brackets.stack = opened := by rw [advance_brackets ha, hs]
    exact ⟨ihTerm opened ht,
      ((arith_brackets_all.2.2.1 t).stack_eq ht).onOk fun u hu hus => ihMore u hu opened hus⟩
  · intro s hk ihTerm ihMore opened hs
    rw [BracketCalls.arith, if_neg hk]
    exact ⟨ihTerm opened hs,
      ((arith_brackets_all.2.2.1 s).stack_eq hs).onOk fun u hu hus => ihMore u hu opened hus⟩
  · intro s hk e ha opened _
    rw [BracketCalls.arithMore, if_pos hk, ha]
    trivial
  · intro s hk op t h ha ihTerm ihMore opened hs
    rw [BracketCalls.arithMore, if_pos hk, ha]
    have ht : t.brackets.stack = opened := by rw [advance_brackets ha, hs]
    exact ⟨ihTerm opened ht,
      ((arith_brackets_all.2.2.1 t).stack_eq ht).onOk fun u hu hus => ihMore u hu opened hus⟩
  · intro s hk opened _
    rw [BracketCalls.arithMore, if_neg hk]
    trivial
  · intro s ihChunk ihMore opened hs
    rw [BracketCalls.term]
    exact ⟨ihChunk opened hs,
      ((arith_brackets_all.2.2.2.2.1 s).stack_eq hs).onOk fun u hu hus => ihMore u hu opened hus⟩
  · intro s hk e ha opened _
    rw [BracketCalls.termMore, if_pos hk, ha]
    trivial
  · intro s hk op t h ha ihChunk ihMore opened hs
    rw [BracketCalls.termMore, if_pos hk, ha]
    have ht : t.brackets.stack = opened := by rw [advance_brackets ha, hs]
    exact ⟨ihChunk opened ht,
      ((arith_brackets_all.2.2.2.2.1 t).stack_eq ht).onOk fun u hu hus => ihMore u hu opened hus⟩
  · intro s hk opened _
    rw [BracketCalls.termMore, if_neg hk]
    trivial
  · intro s ihFactor ihMore opened hs
    rw [BracketCalls.chunk]
    exact ⟨ihFactor opened hs,
      ((arith_brackets_all.2.2.2.2.2.2 s).stack_eq hs).onOk fun u hu hus => ihMore u hu opened hus⟩
  · intro s hk e ha opened _
    rw [BracketCalls.chunkMore, if_pos hk, ha]
    trivial
  · intro s hk op t h ha ihFactor ihMore opened hs
    rw [BracketCalls.chunkMore, if_pos hk, ha]
    have ht : t.brackets.stack = opened := by rw [advance_brackets ha, hs]
    exact ⟨ihFactor opened ht,
      ((arith_brackets_all.2.2.2.2.2.2 t).stack_eq ht).onOk fun u hu hus => ihMore u hu opened hus⟩
  · intro s hk opened _
    rw [BracketCalls.chunkMore, if_neg hk]
    trivial
  · intro s hs opened _
    rw [BracketCalls.factor]
    simp only [hs]
  · intro s r tail hs hop e ha opened _
    rw [BracketCalls.factor]
    simp only [hs, if_pos hop]
  · intro s r tail hs hop r' t h ha opened _
    rw [BracketCalls.factor]
    simp only [hs, if_pos hop]
  · intro s r tail hs hop hpar e hb opened hso
    rw [BracketCalls.factor]
    simp only [hs, if_neg hop, if_pos hpar, hb]
    exact ⟨hso, trivial⟩
  · intro s r tail hs hop hpar lp t h hb ihArith opened hso
    rw [BracketCalls.factor]
    simp only [hs, if_neg hop, if_pos hpar, hb]
    have ht : t.brackets.stack = '(' :: opened := by rw [(opener_ok hb (.inr rfl)).2, hso]
    exact ⟨hso, ihArith _ ht, ((arith_brackets t).stack_eq ht).onOk_stack⟩
  · intro s r tail hs hop hpar opened _
    rw [BracketCalls.factor]
    simp only [hs, if_neg hop, if_neg hpar]

/-- Every bracket call of an arithmetic expression sees the brackets of the productions around
it. -/
theorem arith_calls (s : ParseState) (opened : List Char) (hs : s.brackets.stack = opened) :
    BracketCalls.arith s opened :=
  arith_calls_all.1 s opened hs

/-! ### Conditions and right sides -/

/-- Every bracket call of a comparison sees the brackets of the productions around it. -/
theorem comparison_calls (s : ParseState) (opened : List Char) (hs : s.brackets.stack = opened) :
    BracketCalls.comparison s opened := by
  refine ⟨arith_calls s opened hs, ((arith_brackets s).stack_eq hs).onOk fun t _ ht => ?_⟩
  split
  · trivial
  · rename_i u _ he
    exact arith_calls u opened (by rw [advance_brackets (expectKind_ok he).2, ht])

/-- A parenthesised comparison opens its parenthesis on the stack it was called on, and its
comparison sees that parenthesis on top. -/
theorem parenComparison_calls (s : ParseState) (opened : List Char)
    (hs : s.brackets.stack = opened) : BracketCalls.parenComparison s opened := by
  refine ⟨hs, ?_⟩
  split
  · trivial
  · rename_i t _ hb
    have ht : t.brackets.stack = '(' :: opened := by rw [(opener_ok hb (.inr rfl)).2, hs]
    exact ⟨comparison_calls t _ ht, ((comparison_brackets t).stack_eq ht).onOk_stack⟩

/-- A failed attempt at a parenthesised comparison is rolled back to the stack it began with, so
the plain comparison read after it inherits that stack. -/
theorem condition_calls (s : ParseState) (opened : List Char) (hs : s.brackets.stack = opened) :
    BracketCalls.condition s opened := by
  unfold BracketCalls.condition
  split
  · trivial
  · split
    · refine ⟨parenComparison_calls s.enter opened hs, ?_⟩
      split
      · trivial
      · rename_i t _ heq
        exact comparison_calls t opened (by rw [(attempt_error heq).2, hs])
    · exact comparison_calls s opened hs

/-- Every bracket call of a right side sees the brackets of the productions around it, in both of
its attempts. -/
theorem expression_calls (s : ParseState) (opened : List Char) (hs : s.brackets.stack = opened) :
    BracketCalls.expression s opened := by
  refine ⟨condition_calls s.enter opened hs, ?_⟩
  split
  · trivial
  · rename_i t _ heq
    exact arith_calls t.enter opened (by show t.brackets.stack = _; rw [(attempt_error heq).2, hs])

/-! ### Statements -/

/-- Every bracket call of the rest of an assignment sees the brackets of the productions around
it. -/
theorem assignRest_calls (s : ParseState) (target : Record) (opened : List Char)
    (hs : s.brackets.stack = opened) : BracketCalls.assignRest s target opened := by
  unfold BracketCalls.assignRest
  dsimp only
  split
  · trivial
  · split
    · split
      · trivial
      · rename_i t _ ha
        exact expression_calls t opened (by rw [advance_brackets ha]; exact hs)
    · trivial

/-- A read or write statement opens and closes its parenthesis on the stack it was called on. -/
theorem ioRest_calls (s : ParseState) (kw : Record) (opened : List Char)
    (hs : s.brackets.stack = opened) : BracketCalls.ioRest s kw opened := by
  refine ⟨hs, ?_⟩
  split
  · trivial
  · rename_i t _ hb
    have ht : t.brackets.stack = '(' :: opened := by rw [(opener_ok hb (.inr rfl)).2, hs]
    exact ((ioNames_brackets kw t).stack_eq ht).onOk_stack

/-- The statement that a first record selects keeps the stack when it succeeds. -/
theorem statement_brackets (t : ParseState) (first : Record) :
    (if first.kind = .ident then assignRest t first
      else if first.lexeme = "if" then ifRest t
      else if first.lexeme = "do" then doRest t
      else ioRest t first).Brackets t.brackets.stack := by
  split
  · exact assignRest_brackets t first
  · split
    · exact block_brackets_all.2.2.2 t
    · split
      · exact block_brackets_all.2.2.1 t
      · exact ioRest_brackets t first

/-- Blocks, statement lists and the `if` and `do` statements make their bracket calls on the stack
they inherit, by their mutual induction. -/
theorem block_calls_all :
    (∀ s opened, s.brackets.stack = opened → BracketCalls.block s opened) ∧
    (∀ s opened, s.brackets.stack = opened → BracketCalls.statements s opened) ∧
    (∀ s opened, s.brackets.stack = opened → BracketCalls.doRest s opened) ∧
    (∀ s opened, s.brackets.stack = opened → BracketCalls.ifRest s opened) := by
  apply block.mutual_induct
    (fun s => ∀ opened, s.brackets.stack = opened → BracketCalls.block s opened)
    (fun s => ∀ opened, s.brackets.stack = opened → BracketCalls.statements s opened)
    (fun s => ∀ opened, s.brackets.stack = opened → BracketCalls.doRest s opened)
    (fun s => ∀ opened, s.brackets.stack = opened → BracketCalls.ifRest s opened)
  · intro s e hb opened hs
    rw [BracketCalls.block, hb]
    exact ⟨hs, trivial⟩
  · intro s lb t h hb ih opened hs
    rw [BracketCalls.block, hb]
    have ht : t.brackets.stack = '{' :: opened := by rw [(opener_ok hb (.inl rfl)).2, hs]
    exact ⟨hs, ih _ ht, ((block_brackets_all.2.1 t).stack_eq ht).onOk_stack⟩
  · intro s hs opened _
    rw [BracketCalls.statements]
    simp only [hs]
  · intro s r tail hs hclose opened _
    rw [BracketCalls.statements]
    simp only [hs, if_pos hclose]
  · intro s r tail hs hclose hstart e ha opened _
    rw [BracketCalls.statements]
    simp only [hs]
    rw [if_neg hclose, if_pos hstart, ha]
    trivial
  · intro s r tail hs hclose hstart first t h ha ihIf ihDo ihStmts opened hso
    rw [BracketCalls.statements]
    simp only [hs]
    rw [if_neg hclose, if_pos hstart, ha]
    have ht : t.brackets.stack = opened := by rw [advance_brackets ha, hso]
    refine ⟨?_, ((statement_brackets t first).stack_eq ht).onOk fun u hu hus =>
      ihStmts u hu opened hus⟩
    split
    · exact assignRest_calls t first opened ht
    · split
      · exact ihIf opened ht
      · split
        · exact ihDo opened ht
        · exact ioRest_calls t first opened ht
  · intro s r tail hs hclose hstart opened _
    rw [BracketCalls.statements]
    simp only [hs]
    rw [if_neg hclose, if_neg hstart]
    trivial
  · intro s s' _ ih opened hs
    rw [BracketCalls.doRest]
    refine ⟨ih opened hs, ((block_brackets_all.1 s').stack_eq hs).onOk fun t _ ht => ?_⟩
    split
    · trivial
    · rename_i u _ he
      have hu : u.brackets.stack = opened := by rw [advance_brackets (expect_ok he).2, ht]
      refine ⟨hu, ?_⟩
      split
      · trivial
      · rename_i v _ hbl
        have hv : v.brackets.stack = '(' :: opened := by rw [(opener_ok hbl (.inr rfl)).2, hu]
        exact ⟨condition_calls v _ hv, ((condition_brackets v).stack_eq hv).onOk_stack⟩
  · intro s e hb opened hs
    rw [BracketCalls.ifRest, hb]
    exact ⟨hs, trivial⟩
  · intro s lp t h hb ihBlock opened hs
    rw [BracketCalls.ifRest, hb]
    have ht : t.brackets.stack = '(' :: opened := by rw [(opener_ok hb (.inr rfl)).2, hs]
    refine ⟨hs, condition_calls t _ ht,
      ((condition_brackets t).stack_eq ht).onOk fun u hu hut => ⟨hut, ?_⟩⟩
    split
    · trivial
    · rename_i v hv hbr
      exact ihBlock u hu v hv opened (closer_ok hbr rfl hut).2

/-- Every bracket call of a block sees the brackets of the productions around it. -/
theorem block_calls (s : ParseState) (opened : List Char) (hs : s.brackets.stack = opened) :
    BracketCalls.block s opened :=
  block_calls_all.1 s opened hs

/-! ### Programs -/

/-- A program makes its bracket calls on the stack it inherits: its braces see it, and its
statement block sees the program's brace on top of it. -/
theorem program_calls (s : ParseState) (opened : List Char) (hs : s.brackets.stack = opened) :
    BracketCalls.program s opened := by
  unfold BracketCalls.program
  split
  · trivial
  · rename_i s1 _ he1
    split
    · trivial
    · rename_i s2 _ he2
      have hs2 : s2.brackets.stack = opened := by
        rw [advance_brackets (expectKind_ok he2).2, advance_brackets (expect_ok he1).2, hs]
      refine ⟨hs2, ?_⟩
      split
      · trivial
      · rename_i s3 _ hb3
        have hs3 : s3.brackets.stack = '{' :: opened := by
          rw [(opener_ok hb3 (.inl rfl)).2, hs2]
        refine ((declarations_brackets s3).stack_eq hs3).onOk fun s4 _ hs4 => ?_
        exact ⟨block_calls s4 _ hs4, ((block_brackets s4).stack_eq hs4).onOk_stack⟩

/-- What a successful reply ends in has the stack it keeps. -/
theorem Reply.Brackets.ok_stack {s t : ParseState} {r : Reply s} {b : List Char}
    {h : t.rest.length ≤ s.rest.length} (hr : r.Brackets b) (he : r = ⟨.ok (), t, h⟩) :
    t.brackets.stack = b := by
  subst he
  exact hr.2.1 rfl

/-- After the program's final brace no bracket is open when the program began with none, so the
check that follows the brace always passes. -/
theorem afterFinalBrace_closed {s t : ParseState} (hs : s.brackets.stack = [])
    (h : s.afterFinalBrace? = some t) : t.brackets.unclosed? = none := by
  unfold afterFinalBrace? at h
  split at h
  · cases h
  · rename_i s1 _ he1
    split at h
    · cases h
    · rename_i s2 _ he2
      split at h
      · cases h
      · rename_i s3 _ hb3
        have hs3 : s3.brackets.stack = ['{'] := by
          rw [(opener_ok hb3 (.inl rfl)).2, advance_brackets (expectKind_ok he2).2,
            advance_brackets (expect_ok he1).2, hs]
        split at h
        · cases h
        · rename_i s4 _ hd
          have hs4 : s4.brackets.stack = ['{'] :=
            ((declarations_brackets s3).stack_eq hs3).ok_stack hd
          split at h
          · cases h
          · rename_i s5 _ hbl
            have hs5 : s5.brackets.stack = ['{'] := ((block_brackets s4).stack_eq hs4).ok_stack hbl
            split at h
            · cases h
            · rename_i s6 _ hb6
              cases h
              exact (Brackets.unclosed?_eq_none_iff _).mpr (closer_ok hb6 rfl hs5).2

/-! ### Lexed records are tagged -/

namespace Lexical

/-- Every token of a scan has the shape of its kind. -/
theorem Scans.lexeme_of_mem {line : Nat} {s : List Char} {ts : List Scanned}
    (h : Scans line s ts) : ∀ x ∈ ts, Lexeme x.text x.kind := by
  induction h with
  | nil => intro x hx; cases hx
  | blank _ _ ih => exact ih
  | newline _ ih => exact ih
  | token hl _ _ ih =>
    intro x hx
    rcases List.mem_cons.mp hx with rfl | hx
    · exact hl
    · exact ih x hx

/-- The lexer gives the bracket kind to every record spelled as a bracket: a one-character
lexeme has the kind of its spelling. -/
theorem lex_bracketsTagged {lines : List String} {lexed : Lexed} (h : lex lines = .ok lexed) :
    BracketsTagged lexed.records.toList := by
  obtain ⟨ts, hscan, -, hrec, -⟩ := (lex_eq_ok_iff lines lexed).mp h
  intro r hr ⟨c, hc, hl⟩
  rw [hrec, List.mem_map] at hr
  obtain ⟨x, hx, rfl⟩ := hr
  have htext : x.text = [c] := by simpa [Scanned.record] using hl
  have hkind : (Scanned.record ts x).kind = kindOf [c] := by
    rw [← htext]
    exact (hscan.lexeme_of_mem x hx).kind_eq
  rw [hkind]
  simp only [List.mem_cons, List.not_mem_nil, or_false] at hc
  rcases hc with rfl | rfl | rfl | rfl <;> decide

end Lexical

/-! ### Parses -/

/-- A parse never fails with a closer that closes the wrong bracket or nothing. Every bracket call
of the program it runs sees exactly the brackets that the enclosing productions have opened and
not closed, and after the program's final brace none is open, so the check there passes. Open
brackets are reported only once all the records have been consumed and traced, as a nonempty
list: the list of brackets that the records leave open, outermost first, whenever only records
of the bracket kind are spelled as brackets, which holds of every output of the lexer. The
records of an accepted parse close every bracket they open. -/
theorem parse_bracket_errors (records : List Record) (tables : Tables) :
    BracketCalls.program (ParseState.initial records tables) [] ∧
    (∀ t, (ParseState.initial records tables).afterFinalBrace? = some t →
      t.brackets.unclosed? = none) ∧
    (∀ e, (parse records tables).2 = .error e →
      (∀ o c, e.fault ≠ .bracket (.mismatched o c)) ∧
      (∀ c, e.fault ≠ .bracket (.nothingToClose c)) ∧
      ∀ os, e.fault = .bracket (.unclosed os) →
        (parse records tables).1.toList = records ∧ os ≠ [] ∧
          (BracketsTagged records → os = (openAfter [] records).reverse)) ∧
    ((parse records tables).2.isOk = true → BracketsTagged records →
      openAfter [] records = []) ∧
    (∀ lines lexed, lex lines = .ok lexed → lexed.records.toList = records →
      BracketsTagged records) := by
  obtain ⟨herror, hok⟩ := parse_bracket_reports records tables
  refine ⟨program_calls _ [] rfl, fun _ => afterFinalBrace_closed rfl, herror, hok, ?_⟩
  intro lines lexed hlex hrec
  rw [← hrec]
  exact Lexical.lex_bracketsTagged hlex

/-- The records of `program p { {`: a program whose block is never closed. -/
def unclosedBlockRecords : List Record :=
  [⟨1, "program", .keyword, none⟩, ⟨1, "p", .ident, some 1⟩, ⟨1, "\x7b", .parOp, none⟩,
    ⟨2, "\x7b", .parOp, none⟩]

/-- The parse of `program p { {` runs out of records with both braces open and reports them. -/
theorem parse_bracket_errors_unclosed :
    (parse unclosedBlockRecords {}).2 = .error ⟨2, .bracket (.unclosed ['{', '{'])⟩ ∧
      ∀ os, ParseFault.bracket (.unclosed ['{', '{']) = .bracket (.unclosed os) →
        (parse unclosedBlockRecords {}).1.toList = unclosedBlockRecords ∧ os ≠ [] ∧
          (BracketsTagged unclosedBlockRecords →
            os = (openAfter [] unclosedBlockRecords).reverse) := by
  have h : (parse unclosedBlockRecords {}).2 =
      .error ⟨2, .bracket (.unclosed ['{', '{'])⟩ := by
    with_unfolding_all rfl
  exact ⟨h, ((parse_bracket_errors unclosedBlockRecords {}).2.2.1 _ h).2.2⟩

end RpnLang
