import RpnLang.Parser.Program
import RpnLang.Proofs.ParseSteps

/-!
# Parsing terminates

The productions call each other recursively, and an attempt that fails gives back the records
its production read, so the number of remaining records does not fall along a run. What falls
at every call is a measure: eight for every remaining record plus the rank of the production
called. Every loop and every descent into brackets consumes a record before it calls again; a
production calls another on the records it was given only if that one ranks lower; and an
attempt ends with no more records than it began with, so the choice tried after a failed
attempt starts no higher. The ranks:

* `factor` 0, `chunkMore` 1, `chunk` 2, `termMore` 3, `term` 4, `arithMore` 5, `arith` 6;
* `comparison` 7, `parenComparison` 8, `condition` 9, `expression` 10, `assignRest` 11;
* `block` 12, `ifRest` and `doRest` 13, `statements` 14, `program` 15;
* `declNames` and `ioNames` 0, `declarations` and `ioRest` 1.

To state termination, every production is written here once more with a budget of nested calls
(`Bounded`): each call spends one unit, and a call with nothing left answers `none`. Main
statement: with a budget of eight per record plus sixteen the bounded parser never runs out, and
it answers as the parser (`parse_within_budget`); the depth of nested calls is linear in the
number of records. Each production is proved to agree with its bounded form above its measure,
by the parser's own induction, one case per branch.
-/

namespace RpnLang

open ParseState

/-- What a production answers: success or an error, and the state after it. -/
abbrev Answer := Except ParseError Unit × ParseState

namespace Bounded

/-! ### Combinators -/

/-- Runs `k` from the state a successful production ended in; an error stops with its state. -/
def seq (o : Option Answer) (k : ParseState → Option Answer) : Option Answer :=
  o.bind fun p =>
    match p.1 with
    | .ok () => k p.2
    | .error e => some (.error e, p.2)

/-- Leaves an attempt begun in `s`: rolls back to its checkpoint if the production failed. -/
def attempt (s : ParseState) (o : Option Answer) : Option Answer :=
  o.map fun p =>
    match p.1 with
    | .ok () => (.ok (), p.2.leave s.checkpoint false)
    | .error e => (.error e, p.2.leave s.checkpoint true)

/-- Ordered choice: a success is kept, a failure goes on with `k` from the state it left. -/
def orElse (o : Option Answer) (k : ParseState → Option Answer) : Option Answer :=
  o.bind fun p =>
    match p.1 with
    | .ok () => some p
    | .error _ => k p.2

/-- Sequencing after an error stops with that error and its state. -/
@[simp] theorem seq_error (e : ParseError) (t : ParseState) (k : ParseState → Option Answer) :
    seq (some (.error e, t)) k = some (.error e, t) := rfl

/-- Sequencing after a success runs the continuation from the state it ended in. -/
@[simp] theorem seq_ok (t : ParseState) (k : ParseState → Option Answer) :
    seq (some (.ok (), t)) k = k t := rfl

/-- A failed first choice hands its state to the second. -/
@[simp] theorem orElse_error (e : ParseError) (t : ParseState) (k : ParseState → Option Answer) :
    orElse (some (.error e, t)) k = k t := rfl

/-- A successful first choice is the answer of the choice. -/
@[simp] theorem orElse_ok (t : ParseState) (k : ParseState → Option Answer) :
    orElse (some (.ok (), t)) k = some (.ok (), t) := rfl

/-! ### The productions with a budget

Each is the production of the same name, with the budget as its first explicit argument (after
the fixed parameter, if any); a call to another production passes one unit less. -/

mutual

def arith : Nat → ParseState → Option Answer
  | 0, _ => none
  | n + 1, s =>
    if s.checkKind .addOp then
      match s.advance with
      | .error e => some (.error e, s)
      | .ok (sign, ⟨t, _⟩) =>
        if sign.lexeme = "-" then
          let (zero, tables) := t.tables.internValue (.int 0)
          let t' := ({ t with tables } : ParseState).emit (.token zero .int)
          seq (term n t') fun u => arithMore n (u.emit (.token "-" .addOp))
        else seq (term n t) (arithMore n)
    else seq (term n s) (arithMore n)

def arithMore : Nat → ParseState → Option Answer
  | 0, _ => none
  | n + 1, s =>
    if s.checkKind .addOp then
      match s.advance with
      | .error e => some (.error e, s)
      | .ok (op, ⟨t, _⟩) => seq (term n t) fun u => arithMore n (u.emit (.ofRecord op))
    else some (.ok (), s)

def term : Nat → ParseState → Option Answer
  | 0, _ => none
  | n + 1, s => seq (chunk n s) (termMore n)

def termMore : Nat → ParseState → Option Answer
  | 0, _ => none
  | n + 1, s =>
    if s.checkKind .multOp then
      match s.advance with
      | .error e => some (.error e, s)
      | .ok (op, ⟨t, _⟩) => seq (chunk n t) fun u => termMore n (u.emit (.ofRecord op))
    else some (.ok (), s)

def chunk : Nat → ParseState → Option Answer
  | 0, _ => none
  | n + 1, s => seq (factor n s) (chunkMore n)

def chunkMore : Nat → ParseState → Option Answer
  | 0, _ => none
  | n + 1, s =>
    if s.checkKind .powOp then
      match s.advance with
      | .error e => some (.error e, s)
      | .ok (op, ⟨t, _⟩) => seq (factor n t) fun u => chunkMore n (u.emit (.ofRecord op))
    else some (.ok (), s)

def factor : Nat → ParseState → Option Answer
  | 0, _ => none
  | n + 1, s =>
    match s.rest with
    | [] => some (.error (s.error .unexpectedEof), s)
    | r :: _ =>
      if r.kind.isOperand then
        match s.advance with
        | .error e => some (.error e, s)
        | .ok (r, ⟨t, _⟩) => some (.ok (), t.emit (.ofRecord r))
      else if r.Is "(" .parOp then
        match s.bracket '(' with
        | .error e => some (.error e, s)
        | .ok (_, ⟨t, _⟩) =>
          seq (arith n t) fun u =>
            match u.bracket ')' with
            | .error e => some (.error e, u)
            | .ok (_, ⟨v, _⟩) => some (.ok (), v)
      else some (.error (s.unexpected "<expression>"), s)

end

def comparison : Nat → ParseState → Option Answer
  | 0, _ => none
  | n + 1, s =>
    seq (arith n s) fun t =>
      match t.expectKind .relOp with
      | .error e => some (.error e, t)
      | .ok (op, ⟨u, _⟩) => seq (arith n u) fun v => some (.ok (), v.emit (.ofRecord op))

def parenComparison : Nat → ParseState → Option Answer
  | 0, _ => none
  | n + 1, s =>
    match s.bracket '(' with
    | .error e => some (.error e, s)
    | .ok (_, ⟨t, _⟩) =>
      seq (comparison n t) fun u =>
        match u.bracket ')' with
        | .error e => some (.error e, u)
        | .ok (_, ⟨v, _⟩) => some (.ok (), v)

def condition : Nat → ParseState → Option Answer
  | 0, _ => none
  | n + 1, s =>
    if s.checkKind .boolval then
      match s.advance with
      | .error e => some (.error e, s)
      | .ok (r, ⟨t, _⟩) => some (.ok (), t.emit (.ofRecord r))
    else if s.check "(" .parOp then
      orElse (attempt s (parenComparison n s.enter)) (comparison n)
    else comparison n s

def expression : Nat → ParseState → Option Answer
  | 0, _ => none
  | n + 1, s =>
    orElse (attempt s (condition n s.enter)) fun t =>
      (attempt t (arith n t.enter)).map fun p =>
        match p.1 with
        | .ok () => p
        | .error _ => (.error (p.2.error .noValidExpression), p.2)

def declNames (ty : Ty) : Nat → ParseState → Option Answer
  | 0, _ => none
  | n + 1, s =>
    match s.expectKind .ident with
    | .error e => some (.error e, s)
    | .ok (name, ⟨t, _⟩) =>
      match t.tables.declare name ty with
      | .error e => some (.error e, t)
      | .ok tables =>
        let t' : ParseState := { t with tables }
        if t'.check "," .punct then
          match t'.advance with
          | .error e => some (.error e, t')
          | .ok (_, ⟨u, _⟩) => declNames ty n u
        else some (.ok (), t')

def declarations : Nat → ParseState → Option Answer
  | 0, _ => none
  | n + 1, s =>
    match s.declaredType? with
    | none => some (.ok (), s)
    | some ty =>
      match s.advance with
      | .error e => some (.error e, s)
      | .ok (_, ⟨t, _⟩) =>
        seq (declNames ty n t) fun u =>
          match u.expect ";" .punct with
          | .error e => some (.error e, u)
          | .ok (_, ⟨v, _⟩) => declarations n v

def assignRest (target : Record) : Nat → ParseState → Option Answer
  | 0, _ => none
  | n + 1, s =>
    let s' := s.emit (.ofRecord target)
    match s'.rest with
    | [] => some (.error (s'.error .unexpectedEof), s')
    | r :: _ =>
      if r.Is "=" .assignOp then
        match s'.advance with
        | .error e => some (.error e, s')
        | .ok (op, ⟨t, _⟩) =>
          seq (expression n t) fun u =>
            match u.expect ";" .punct with
            | .error e => some (.error e, u)
            | .ok (_, ⟨v, _⟩) => some (.ok (), v.emit (.ofRecord op))
      else some (.error (s'.error .expectedAssign), s')

def ioNames (kw : Record) : Nat → ParseState → Option Answer
  | 0, _ => none
  | n + 1, s =>
    match s.expectKind .ident with
    | .error e => some (.error e, s)
    | .ok (name, ⟨t, _⟩) =>
      let t' := (t.emit (.ofRecord name)).emit (.ofRecord kw)
      if t'.check "," .punct then
        match t'.advance with
        | .error e => some (.error e, t')
        | .ok (_, ⟨u, _⟩) => ioNames kw n u
      else some (.ok (), t')

def ioRest (kw : Record) : Nat → ParseState → Option Answer
  | 0, _ => none
  | n + 1, s =>
    match s.bracket '(' with
    | .error e => some (.error e, s)
    | .ok (_, ⟨t, _⟩) =>
      seq (ioNames kw n t) fun u =>
        match u.bracket ')' with
        | .error e => some (.error e, u)
        | .ok (_, ⟨v, _⟩) =>
          match v.expect ";" .punct with
          | .error e => some (.error e, v)
          | .ok (_, ⟨w, _⟩) => some (.ok (), w)

mutual

def block : Nat → ParseState → Option Answer
  | 0, _ => none
  | n + 1, s =>
    match s.bracket '{' with
    | .error e => some (.error e, s)
    | .ok (_, ⟨t, _⟩) =>
      seq (statements n t) fun u =>
        match u.bracket '}' with
        | .error e => some (.error e, u)
        | .ok (_, ⟨v, _⟩) => some (.ok (), v)

def statements : Nat → ParseState → Option Answer
  | 0, _ => none
  | n + 1, s =>
    match s.rest with
    | [] => some (.ok (), s)
    | r :: _ =>
      if r.Is "\x7d" .parOp then some (.ok (), s)
      else if r.kind = .ident || (r.kind = .keyword &&
          (r.lexeme = "input" || r.lexeme = "print" || r.lexeme = "if" || r.lexeme = "do")) then
        match s.advance with
        | .error e => some (.error e, s)
        | .ok (first, ⟨t, _⟩) =>
          let body :=
            if first.kind = .ident then assignRest first n t
            else if first.lexeme = "if" then ifRest n t
            else if first.lexeme = "do" then doRest n t
            else ioRest first n t
          seq body (statements n)
      else some (.error (s.error (.unexpectedStatement r.lexeme)), s)

def ifRest : Nat → ParseState → Option Answer
  | 0, _ => none
  | n + 1, s =>
    match s.bracket '(' with
    | .error e => some (.error e, s)
    | .ok (_, ⟨t, _⟩) =>
      seq (condition n t) fun u =>
        match u.bracket ')' with
        | .error e => some (.error e, u)
        | .ok (_, ⟨v, _⟩) => seq (block n v) fun w => some (.ok (), w.emit (.marker .ifEnd))

def doRest : Nat → ParseState → Option Answer
  | 0, _ => none
  | n + 1, s =>
    seq (block n (s.emit (.marker .loopStart))) fun t =>
      match t.expect "while" .keyword with
      | .error e => some (.error e, t)
      | .ok (_, ⟨u, _⟩) =>
        match u.bracket '(' with
        | .error e => some (.error e, u)
        | .ok (_, ⟨v, _⟩) =>
          seq (condition n v) fun w =>
            match w.bracket ')' with
            | .error e => some (.error e, w)
            | .ok (_, ⟨x, _⟩) => some (.ok (), x.emit (.marker .loopEnd))

end

def program : Nat → ParseState → Option Answer
  | 0, _ => none
  | n + 1, s =>
    match s.expect "program" .keyword with
    | .error e => some (.error e, s)
    | .ok (_, ⟨s1, _⟩) =>
      match s1.expectKind .ident with
      | .error e => some (.error e, s1)
      | .ok (_, ⟨s2, _⟩) =>
        match s2.bracket '{' with
        | .error e => some (.error e, s2)
        | .ok (_, ⟨s3, _⟩) =>
          seq (declarations n s3) fun s4 =>
            seq (block n s4) fun s5 =>
              match s5.bracket '}' with
              | .error e => some (.error e, s5)
              | .ok (_, ⟨s6, _⟩) =>
                match s6.brackets.unclosed? with
                | some e => some (.error (s6.error (.bracket e)), s6)
                | none =>
                  if s6.rest.isEmpty then some (.ok (), s6)
                  else some (.error (s6.unexpected "<end of program>"), s6)

/-- Parses with a budget of nested calls: `none` when the budget runs out. -/
def parse (n : Nat) (records : List Record) (tables : Tables) :
    Option (Array Record × Except ParseError Translation) :=
  let lastLine := match records.getLast? with
    | some r => r.line
    | none => 1
  (program n { rest := records, tables, lastLine }).map fun p =>
    (p.2.traced.reverse.toArray, p.1.map fun _ => ⟨p.2.code.reverse.toArray, p.2.tables⟩)

end Bounded

/-! ### Agreement above the measure -/

/-- A reply's result and state, without the bound on its records. -/
def Reply.answer {s : ParseState} (r : Reply s) : Answer := (r.result, r.state)

@[simp] theorem Reply.answer_mk {s t : ParseState} (res : Except ParseError Unit)
    (h : t.rest.length ≤ s.rest.length) : (⟨res, t, h⟩ : Reply s).answer = (res, t) := rfl

@[simp] theorem Reply.answer_widen {s t : ParseState} (r : Reply t)
    (h : t.rest.length ≤ s.rest.length) : (r.widen h).answer = r.answer := rfl

/-- The bounded production `b` answers as the production `p` from `s` with every budget above
the measure of `s` at rank `k`. -/
def Bounded.Agrees (b : Nat → ParseState → Option Answer) (p : (s : ParseState) → Reply s)
    (k : Nat) (s : ParseState) : Prop :=
  ∀ n, 8 * s.rest.length + k < n → b n s = some (p s).answer

/-- To show agreement it is enough to look at budgets of the form `n + 1`: no budget above the
measure is zero. -/
theorem Bounded.Agrees.of_succ {b : Nat → ParseState → Option Answer}
    {p : (s : ParseState) → Reply s} {k : Nat} {s : ParseState}
    (h : ∀ n, 8 * s.rest.length + k ≤ n → b (n + 1) s = some (p s).answer) :
    Bounded.Agrees b p k s := by
  intro n hn
  obtain ⟨m, rfl⟩ : ∃ m, n = m + 1 := ⟨n - 1, by omega⟩
  exact h m (by omega)

/-- Sequencing agrees with `Reply.andThen` when both parts agree. -/
theorem Bounded.seq_andThen {s : ParseState} {r : Reply s} {o : Option Answer}
    {k : (t : ParseState) → t.rest.length ≤ s.rest.length → Reply t}
    {f : ParseState → Option Answer} (ho : o = some r.answer)
    (hf : ∀ t h, f t = some (k t h).answer) : Bounded.seq o f = some (r.andThen k).answer := by
  subst ho
  obtain ⟨res, t, h⟩ := r
  rcases res with e | ⟨⟩
  · rfl
  · exact hf t h

/-- Leaving an attempt with a bounded answer gives the answer of `Reply.attempt`. -/
theorem Bounded.attempt_some {s : ParseState} (r : Reply s.enter) :
    Bounded.attempt s (some r.answer) = some r.attempt.answer := by
  obtain ⟨res, t, h⟩ := r
  rcases res with e | ⟨⟩ <;> rfl

/-- The arithmetic productions agree with their bounded forms above their measures, by their
mutual induction. -/
theorem arith_agrees :
    (∀ s, Bounded.Agrees Bounded.arith arith 6 s) ∧
    (∀ s, Bounded.Agrees Bounded.arithMore arithMore 5 s) ∧
    (∀ s, Bounded.Agrees Bounded.term term 4 s) ∧
    (∀ s, Bounded.Agrees Bounded.termMore termMore 3 s) ∧
    (∀ s, Bounded.Agrees Bounded.chunk chunk 2 s) ∧
    (∀ s, Bounded.Agrees Bounded.chunkMore chunkMore 1 s) ∧
    (∀ s, Bounded.Agrees Bounded.factor factor 0 s) := by
  apply arith.mutual_induct (Bounded.Agrees Bounded.arith arith 6)
    (Bounded.Agrees Bounded.arithMore arithMore 5) (Bounded.Agrees Bounded.term term 4)
    (Bounded.Agrees Bounded.termMore termMore 3) (Bounded.Agrees Bounded.chunk chunk 2)
    (Bounded.Agrees Bounded.chunkMore chunkMore 1) (Bounded.Agrees Bounded.factor factor 0)
  · intro s hk e ha
    refine Bounded.Agrees.of_succ fun n _ => ?_
    rw [Bounded.arith, arith]
    simp only [if_pos hk, ha]
    rfl
  · intro s hk sign t h ha hminus zero tables hint t' ht' ihTerm ihMore
    obtain ⟨rfl, rfl⟩ : zero = (t.tables.internValue (.int 0)).1 ∧
        tables = (t.tables.internValue (.int 0)).2 := by rw [hint]; exact ⟨rfl, rfl⟩
    refine Bounded.Agrees.of_succ fun n hn => ?_
    rw [Bounded.arith, arith]
    simp only [if_pos hk, ha, if_pos hminus, Reply.answer_widen]
    apply Bounded.seq_andThen (ihTerm n (by omega))
    intro u hu
    exact ihMore u hu n (by simp only [emit_rest]; omega)
  · intro s hk sign t h ha hminus ihTerm ihMore
    refine Bounded.Agrees.of_succ fun n hn => ?_
    rw [Bounded.arith, arith]
    simp only [if_pos hk, ha, if_neg hminus, Reply.answer_widen]
    apply Bounded.seq_andThen (ihTerm n (by omega))
    intro u hu
    exact ihMore u hu n (by omega)
  · intro s hk ihTerm ihMore
    refine Bounded.Agrees.of_succ fun n hn => ?_
    rw [Bounded.arith, arith]
    simp only [if_neg hk]
    apply Bounded.seq_andThen (ihTerm n (by omega))
    intro u hu
    exact ihMore u hu n (by omega)
  · intro s hk e ha
    refine Bounded.Agrees.of_succ fun n _ => ?_
    rw [Bounded.arithMore, arithMore]
    simp only [if_pos hk, ha]
    rfl
  · intro s hk op t h ha ihTerm ihMore
    refine Bounded.Agrees.of_succ fun n hn => ?_
    rw [Bounded.arithMore, arithMore]
    simp only [if_pos hk, ha, Reply.answer_widen]
    apply Bounded.seq_andThen (ihTerm n (by omega))
    intro u hu
    exact ihMore u hu n (by simp only [emit_rest]; omega)
  · intro s hk
    refine Bounded.Agrees.of_succ fun n _ => ?_
    rw [Bounded.arithMore, arithMore]
    simp only [if_neg hk]
    rfl
  · intro s ihChunk ihMore
    refine Bounded.Agrees.of_succ fun n hn => ?_
    rw [Bounded.term, term]
    apply Bounded.seq_andThen (ihChunk n (by omega))
    intro u hu
    exact ihMore u hu n (by omega)
  · intro s hk e ha
    refine Bounded.Agrees.of_succ fun n _ => ?_
    rw [Bounded.termMore, termMore]
    simp only [if_pos hk, ha]
    rfl
  · intro s hk op t h ha ihChunk ihMore
    refine Bounded.Agrees.of_succ fun n hn => ?_
    rw [Bounded.termMore, termMore]
    simp only [if_pos hk, ha, Reply.answer_widen]
    apply Bounded.seq_andThen (ihChunk n (by omega))
    intro u hu
    exact ihMore u hu n (by simp only [emit_rest]; omega)
  · intro s hk
    refine Bounded.Agrees.of_succ fun n _ => ?_
    rw [Bounded.termMore, termMore]
    simp only [if_neg hk]
    rfl
  · intro s ihFactor ihMore
    refine Bounded.Agrees.of_succ fun n hn => ?_
    rw [Bounded.chunk, chunk]
    apply Bounded.seq_andThen (ihFactor n (by omega))
    intro u hu
    exact ihMore u hu n (by omega)
  · intro s hk e ha
    refine Bounded.Agrees.of_succ fun n _ => ?_
    rw [Bounded.chunkMore, chunkMore]
    simp only [if_pos hk, ha]
    rfl
  · intro s hk op t h ha ihFactor ihMore
    refine Bounded.Agrees.of_succ fun n hn => ?_
    rw [Bounded.chunkMore, chunkMore]
    simp only [if_pos hk, ha, Reply.answer_widen]
    apply Bounded.seq_andThen (ihFactor n (by omega))
    intro u hu
    exact ihMore u hu n (by simp only [emit_rest]; omega)
  · intro s hk
    refine Bounded.Agrees.of_succ fun n _ => ?_
    rw [Bounded.chunkMore, chunkMore]
    simp only [if_neg hk]
    rfl
  · intro s hs
    refine Bounded.Agrees.of_succ fun n _ => ?_
    rw [Bounded.factor, factor]
    simp only [hs]
    rfl
  · intro s r tail hs hop e ha
    refine Bounded.Agrees.of_succ fun n _ => ?_
    rw [Bounded.factor, factor]
    simp only [hs, if_pos hop, ha]
    rfl
  · intro s r tail hs hop r' t h ha
    refine Bounded.Agrees.of_succ fun n _ => ?_
    rw [Bounded.factor, factor]
    simp only [hs, if_pos hop, ha]
    rfl
  · intro s r tail hs hop hpar e hb
    refine Bounded.Agrees.of_succ fun n _ => ?_
    rw [Bounded.factor, factor]
    simp only [hs, if_neg hop, if_pos hpar, hb]
    rfl
  · intro s r tail hs hop hpar lp t h hb ihArith
    refine Bounded.Agrees.of_succ fun n hn => ?_
    rw [Bounded.factor, factor]
    simp only [hs, if_neg hop, if_pos hpar, hb, Reply.answer_widen]
    apply Bounded.seq_andThen (ihArith n (by omega))
    intro u _
    rcases u.bracket ')' with e | ⟨_, v, hv⟩ <;> rfl
  · intro s r tail hs hop hpar
    refine Bounded.Agrees.of_succ fun n _ => ?_
    rw [Bounded.factor, factor]
    simp only [hs, if_neg hop, if_neg hpar]
    rfl

/-! ### Comparisons, conditions and right sides -/

/-- A comparison agrees with its bounded form from every state, at rank 7. -/
theorem comparison_agrees (s : ParseState) : Bounded.Agrees Bounded.comparison comparison 7 s := by
  refine Bounded.Agrees.of_succ fun n hn => ?_
  rw [Bounded.comparison, comparison]
  apply Bounded.seq_andThen (arith_agrees.1 s n (by omega))
  intro t ht
  rcases t.expectKind .relOp with e | ⟨op, u, hu⟩
  · rfl
  · simp only [Reply.answer_widen]
    apply Bounded.seq_andThen (arith_agrees.1 u n (by omega))
    intro v _
    rfl

/-- A parenthesised comparison agrees with its bounded form from every state, at rank 8, one above
the comparison it calls. -/
theorem parenComparison_agrees (s : ParseState) :
    Bounded.Agrees Bounded.parenComparison parenComparison 8 s := by
  refine Bounded.Agrees.of_succ fun n hn => ?_
  rw [Bounded.parenComparison, parenComparison]
  rcases s.bracket '(' with e | ⟨lp, t, h⟩
  · rfl
  · simp only [Reply.answer_widen]
    apply Bounded.seq_andThen (comparison_agrees t n (by omega))
    intro u _
    rcases u.bracket ')' with e | ⟨_, v, hv⟩ <;> rfl

/-- A condition agrees with its bounded form from every state, at rank 9: both of its attempts are
answered alike. -/
theorem condition_agrees (s : ParseState) : Bounded.Agrees Bounded.condition condition 9 s := by
  refine Bounded.Agrees.of_succ fun n hn => ?_
  rw [Bounded.condition, condition]
  by_cases hb : s.checkKind .boolval = true
  · simp only [if_pos hb]
    rcases s.advance with e | ⟨r, t, h⟩ <;> rfl
  · by_cases hc : s.check "(" .parOp = true
    · simp only [if_neg hb, if_pos hc]
      rw [parenComparison_agrees s.enter n (by simp only [enter_rest]; omega),
        Bounded.attempt_some]
      rcases (parenComparison s.enter).attempt with ⟨res, t, h⟩
      rcases res with e | ⟨⟩
      · exact comparison_agrees t n (by omega)
      · rfl
    · simp only [if_neg hb, if_neg hc]
      exact comparison_agrees s n (by omega)

/-- The right side of an assignment agrees with its bounded form from every state, at rank 10. -/
theorem expression_agrees (s : ParseState) :
    Bounded.Agrees Bounded.expression expression 10 s := by
  refine Bounded.Agrees.of_succ fun n hn => ?_
  rw [Bounded.expression, expression]
  rw [condition_agrees s.enter n (by simp only [enter_rest]; omega), Bounded.attempt_some]
  rcases (condition s.enter).attempt with ⟨res, t, h⟩
  rcases res with e | ⟨⟩
  · simp only [Reply.answer_mk, Bounded.orElse_error]
    rw [arith_agrees.1 t.enter n (by simp only [enter_rest]; omega), Bounded.attempt_some]
    rcases (arith t.enter).attempt with ⟨res', u, hu⟩
    rcases res' with e' | ⟨⟩ <;> rfl
  · rfl

/-! ### Declarations, assignments and input and output lists -/

/-- A declared name list agrees with its bounded form, by induction along the list: each name
consumes a record. -/
theorem declNames_agrees (ty : Ty) (s : ParseState) :
    Bounded.Agrees (Bounded.declNames ty) (fun s => declNames s ty) 0 s := by
  induction s using declNames.induct ty with
  | case1 s e he =>
    refine Bounded.Agrees.of_succ fun n _ => ?_
    rw [Bounded.declNames, declNames, he]
    rfl
  | case2 s name t h he e hd =>
    refine Bounded.Agrees.of_succ fun n _ => ?_
    rw [Bounded.declNames, declNames, he]
    simp only [hd]
    rfl
  | case3 s name t h he tables hd t' _ hc e ha =>
    refine Bounded.Agrees.of_succ fun n _ => ?_
    dsimp only [t'] at hc ha
    rw [Bounded.declNames, declNames, he]
    simp only [hd, if_pos hc, ha]
    rfl
  | case4 s name t h he tables hd t' ht' hc comma u hu ha ih =>
    refine Bounded.Agrees.of_succ fun n hn => ?_
    dsimp only [t'] at hc ha
    rw [Bounded.declNames, declNames, he]
    simp only [hd, if_pos hc, ha, Reply.answer_widen]
    exact ih n (by omega)
  | case5 s name t h he tables hd t' _ hc =>
    refine Bounded.Agrees.of_succ fun n _ => ?_
    dsimp only [t'] at hc
    rw [Bounded.declNames, declNames, he]
    simp only [hd, if_neg hc]
    rfl

/-- The declarations agree with their bounded form, one rank above the name lists they call. -/
theorem declarations_agrees (s : ParseState) :
    Bounded.Agrees Bounded.declarations declarations 1 s := by
  induction s using declarations.induct with
  | case1 s hty =>
    refine Bounded.Agrees.of_succ fun n _ => ?_
    rw [Bounded.declarations, declarations, hty]
    rfl
  | case2 s ty hty e ha =>
    refine Bounded.Agrees.of_succ fun n _ => ?_
    rw [Bounded.declarations, declarations, hty]
    simp only [ha]
    rfl
  | case3 s ty hty kw t h ha ih =>
    refine Bounded.Agrees.of_succ fun n hn => ?_
    rw [Bounded.declarations, declarations, hty]
    simp only [ha, Reply.answer_widen]
    apply Bounded.seq_andThen (declNames_agrees ty t n (by omega))
    intro u hu
    rcases u.expect ";" .punct with e | ⟨semi, v, hv⟩
    · rfl
    · simp only [Reply.answer_widen]
      exact ih u hu v hv n (by omega)

/-- The rest of an assignment agrees with its bounded form from every state, at rank 11. -/
theorem assignRest_agrees (target : Record) (s : ParseState) :
    Bounded.Agrees (Bounded.assignRest target) (fun s => assignRest s target) 11 s := by
  refine Bounded.Agrees.of_succ fun n hn => ?_
  rw [Bounded.assignRest, assignRest]
  cases hs : s.rest with
  | nil =>
    have h0 : (s.emit (.ofRecord target)).rest = [] := hs
    simp only [h0]
    rfl
  | cons r tail =>
    have h0 : (s.emit (.ofRecord target)).rest = r :: tail := hs
    simp only [h0]
    by_cases hr : r.Is "=" .assignOp = true
    · simp only [if_pos hr]
      rcases (s.emit (.ofRecord target)).advance with e | ⟨op, t, h⟩
      · rfl
      · simp only [Reply.answer_widen]
        simp only [emit_rest] at h
        apply Bounded.seq_andThen (expression_agrees t n (by omega))
        intro u _
        rcases u.expect ";" .punct with e | ⟨semi, v, hv⟩ <;> rfl
    · simp only [if_neg hr]
      rfl

/-- The names of a read or write statement agree with their bounded form, by induction along the
list. -/
theorem ioNames_agrees (kw : Record) (s : ParseState) :
    Bounded.Agrees (Bounded.ioNames kw) (fun s => ioNames s kw) 0 s := by
  induction s using ioNames.induct kw with
  | case1 s e he =>
    refine Bounded.Agrees.of_succ fun n _ => ?_
    rw [Bounded.ioNames, ioNames, he]
    rfl
  | case2 s name t h he t' _ hc e ha =>
    refine Bounded.Agrees.of_succ fun n _ => ?_
    dsimp only [t'] at hc ha
    rw [Bounded.ioNames, ioNames, he]
    simp only [if_pos hc, ha]
    rfl
  | case3 s name t h he t' ht' hc comma u hu ha ih =>
    refine Bounded.Agrees.of_succ fun n hn => ?_
    dsimp only [t'] at hc ha
    rw [Bounded.ioNames, ioNames, he]
    simp only [if_pos hc, ha, Reply.answer_widen]
    exact ih n (by omega)
  | case4 s name t h he t' _ hc =>
    refine Bounded.Agrees.of_succ fun n _ => ?_
    dsimp only [t'] at hc
    rw [Bounded.ioNames, ioNames, he]
    simp only [if_neg hc]
    rfl

/-- The rest of a read or write statement agrees with its bounded form, one rank above its name
list. -/
theorem ioRest_agrees (kw : Record) (s : ParseState) :
    Bounded.Agrees (Bounded.ioRest kw) (fun s => ioRest s kw) 1 s := by
  refine Bounded.Agrees.of_succ fun n hn => ?_
  rw [Bounded.ioRest, ioRest]
  rcases s.bracket '(' with e | ⟨lp, t, h⟩
  · rfl
  · simp only [Reply.answer_widen]
    apply Bounded.seq_andThen (ioNames_agrees kw t n (by omega))
    intro u _
    rcases u.bracket ')' with e | ⟨rp, v, hv⟩
    · rfl
    · dsimp only
      rcases v.expect ";" .punct with e | ⟨semi, w, hw⟩ <;> rfl

/-! ### Blocks, statements and programs -/

/-- Blocks, statement lists and the `if` and `do` statements agree with their bounded forms, by
their mutual induction. -/
theorem block_agrees_all :
    (∀ s, Bounded.Agrees Bounded.block block 12 s) ∧
    (∀ s, Bounded.Agrees Bounded.statements statements 14 s) ∧
    (∀ s, Bounded.Agrees Bounded.doRest doRest 13 s) ∧
    (∀ s, Bounded.Agrees Bounded.ifRest ifRest 13 s) := by
  apply block.mutual_induct (Bounded.Agrees Bounded.block block 12)
    (Bounded.Agrees Bounded.statements statements 14) (Bounded.Agrees Bounded.doRest doRest 13)
    (Bounded.Agrees Bounded.ifRest ifRest 13)
  · intro s e hb
    refine Bounded.Agrees.of_succ fun n _ => ?_
    rw [Bounded.block, block, hb]
    rfl
  · intro s lb t h hb ih
    refine Bounded.Agrees.of_succ fun n hn => ?_
    rw [Bounded.block, block, hb]
    simp only [Reply.answer_widen]
    apply Bounded.seq_andThen (ih n (by omega))
    intro u _
    rcases u.bracket '}' with e | ⟨rb, v, hv⟩ <;> rfl
  · intro s hs
    refine Bounded.Agrees.of_succ fun n _ => ?_
    rw [Bounded.statements, statements]
    simp only [hs]
    rfl
  · intro s r tail hs hclose
    refine Bounded.Agrees.of_succ fun n _ => ?_
    rw [Bounded.statements, statements]
    simp only [hs, if_pos hclose]
    rfl
  · intro s r tail hs hclose hstart e ha
    refine Bounded.Agrees.of_succ fun n _ => ?_
    rw [Bounded.statements, statements]
    simp only [hs, if_neg hclose, if_pos hstart, ha]
    rfl
  · intro s r tail hs hclose hstart first t h ha ihIf ihDo ihStmts
    refine Bounded.Agrees.of_succ fun n hn => ?_
    rw [Bounded.statements, statements]
    simp only [hs, if_neg hclose, if_pos hstart, ha, Reply.answer_widen]
    apply Bounded.seq_andThen
    · by_cases hi : first.kind = .ident
      · simp only [if_pos hi]
        exact assignRest_agrees first t n (by omega)
      · by_cases hf : first.lexeme = "if"
        · simp only [if_neg hi, if_pos hf]
          exact ihIf n (by omega)
        · by_cases hd : first.lexeme = "do"
          · simp only [if_neg hi, if_neg hf, if_pos hd]
            exact ihDo n (by omega)
          · simp only [if_neg hi, if_neg hf, if_neg hd]
            exact ioRest_agrees first t n (by omega)
    · intro u hu
      exact ihStmts u hu n (by omega)
  · intro s r tail hs hclose hstart
    refine Bounded.Agrees.of_succ fun n _ => ?_
    rw [Bounded.statements, statements]
    simp only [hs, if_neg hclose, if_neg hstart]
    rfl
  · intro s s' hs' ih
    refine Bounded.Agrees.of_succ fun n hn => ?_
    rw [Bounded.doRest, doRest]
    simp only [Reply.answer_widen]
    apply Bounded.seq_andThen (ih n (by omega))
    intro t ht
    rcases t.expect "while" .keyword with e | ⟨wh, u, hu⟩
    · rfl
    · dsimp only
      rcases u.bracket '(' with e | ⟨lp, v, hv⟩
      · rfl
      · simp only [Reply.answer_widen]
        apply Bounded.seq_andThen (condition_agrees v n (by omega))
        intro w _
        rcases w.bracket ')' with e | ⟨rp, x, hx⟩ <;> rfl
  · intro s e hb
    refine Bounded.Agrees.of_succ fun n _ => ?_
    rw [Bounded.ifRest, ifRest, hb]
    rfl
  · intro s lp t h hb ihBlock
    refine Bounded.Agrees.of_succ fun n hn => ?_
    rw [Bounded.ifRest, ifRest, hb]
    simp only [Reply.answer_widen]
    apply Bounded.seq_andThen (condition_agrees t n (by omega))
    intro u hu
    rcases u.bracket ')' with e | ⟨rp, v, hv⟩
    · rfl
    · simp only [Reply.answer_widen]
      apply Bounded.seq_andThen (ihBlock u hu v hv n (by omega))
      intro w _
      rfl

/-- A whole program agrees with its bounded form from every state, at rank 15, the top of the
ranks. -/
theorem program_agrees (s : ParseState) : Bounded.Agrees Bounded.program program 15 s := by
  refine Bounded.Agrees.of_succ fun n hn => ?_
  rw [Bounded.program, program]
  rcases s.expect "program" .keyword with e | ⟨kw, s1, h1⟩
  · rfl
  · dsimp only
    rcases s1.expectKind .ident with e | ⟨name, s2, h2⟩
    · rfl
    · dsimp only
      rcases s2.bracket '{' with e | ⟨lb, s3, h3⟩
      · rfl
      · simp only [Reply.answer_widen]
        apply Bounded.seq_andThen (declarations_agrees s3 n (by omega))
        intro s4 h4
        apply Bounded.seq_andThen (block_agrees_all.1 s4 n (by omega))
        intro s5 _
        rcases s5.bracket '}' with e | ⟨rb, s6, h6⟩
        · rfl
        · dsimp only
          rcases s6.brackets.unclosed? with _ | e
          · cases s6.rest.isEmpty <;> rfl
          · rfl

/-- Parsing terminates: with a budget of eight nested calls per record plus sixteen, the bounded
parser never runs out, and it answers as the parser. -/
theorem parse_within_budget (records : List Record) (tables : Tables) (n : Nat)
    (hn : 8 * records.length + 16 ≤ n) :
    Bounded.parse n records tables = some (parse records tables) := by
  unfold Bounded.parse parse
  dsimp only
  rw [program_agrees _ n ?_]
  · rfl
  · dsimp only
    omega

/-- The records of `program p { boolean b; { b = (1 < 2); } }`, whose right side is first tried
as a parenthesised comparison. -/
def comparisonProgramRecords : List Record :=
  [⟨1, "program", .keyword, none⟩, ⟨1, "p", .ident, some 1⟩, ⟨1, "\x7b", .parOp, none⟩,
    ⟨1, "boolean", .keyword, none⟩, ⟨1, "b", .ident, some 2⟩, ⟨1, ";", .punct, none⟩,
    ⟨1, "\x7b", .parOp, none⟩, ⟨1, "b", .ident, some 2⟩, ⟨1, "=", .assignOp, none⟩,
    ⟨1, "(", .parOp, none⟩, ⟨1, "1", .int, some 1⟩, ⟨1, "<", .relOp, none⟩,
    ⟨1, "2", .int, some 2⟩, ⟨1, ")", .parOp, none⟩, ⟨1, ";", .punct, none⟩,
    ⟨1, "\x7d", .parOp, none⟩, ⟨1, "\x7d", .parOp, none⟩]

/-- The budget of `parse_within_budget` suffices for a program whose right side backtracks: 152
nested calls parse it as the parser does. -/
theorem parse_within_budget_comparison :
    8 * comparisonProgramRecords.length + 16 ≤ 152 ∧
      Bounded.parse 152 comparisonProgramRecords {} = some (parse comparisonProgramRecords {}) :=
  ⟨by decide, parse_within_budget _ _ 152 (by decide)⟩

end RpnLang
