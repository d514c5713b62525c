import RpnLang.Parser.Program
import RpnLang.Proofs.ParseSteps

/-!
# Relations that every production keeps

A production changes the parser's state only through a few elementary steps: consuming a
record, replacing the bracket stack, emitting an instruction, interning the zero of a unary
minus, declaring an identifier, and running a production one attempt deeper and then leaving the
attempt, with or without a rollback. A relation between a state and a later one that every such
step respects and that composes (`ParseState.Invariant`) therefore holds between the state a
production starts in and the state it ends in, whether it succeeded or failed.

That is proved here once, by the parser's own mutual induction, one case per branch of the
code. Each fact about all the states of a parse is then an instance: one relation and its eight
step obligations. Expressions never declare an identifier, so a relation that only the other
seven steps keep (`ParseState.ExprInvariant`) holds across every expression production.
-/

namespace RpnLang

open ParseState

/-- A relation between a parser state and a later one that every step of an expression keeps:
every elementary step but the declaration of an identifier. -/
structure ParseState.ExprInvariant (R : ParseState → ParseState → Prop) : Prop where
  /-- Nothing happened. -/
  refl : ∀ s, R s s
  /-- Steps compose. -/
  trans : ∀ {s t u}, R s t → R t u → R s u
  /-- The current record is consumed and logged. -/
  advance : ∀ {s r} {t : Shorter s}, s.advance = .ok (r, t) → R s t.1
  /-- The bracket stack is replaced, before a bracket is consumed. -/
  brackets : ∀ s (b : Brackets), R s { s with brackets := b }
  /-- An instruction is appended to the code. -/
  emit : ∀ s i, R s (s.emit i)
  /-- The zero of a unary minus is interned. -/
  zero : ∀ s, R s { s with tables := (s.tables.internValue (.int 0)).2 }
  /-- A production ran one attempt deeper, and the attempt is left. -/
  attempt : ∀ {s t} (failed : Bool), R s.enter t → R s (t.leave s.checkpoint failed)

/-- A relation between a parser state and a later one that every elementary step keeps. -/
structure ParseState.Invariant (R : ParseState → ParseState → Prop) : Prop
    extends ParseState.ExprInvariant R where
  /-- An identifier record is consumed and declared. -/
  declare : ∀ {s name ty tables} {t : Shorter s}, s.expectKind .ident = .ok (name, t) →
    t.1.tables.declare name ty = .ok tables → R s { t.1 with tables }

namespace Reply

@[simp] theorem widen_state {s t : ParseState} (r : Reply t) (h : t.rest.length ≤ s.rest.length) :
    (r.widen h).state = r.state := rfl

@[simp] theorem fail_state (s : ParseState) (e : ParseError) : (Reply.fail s e).state = s := rfl

@[simp] theorem ok_state {s t : ParseState} (h : t.rest.length ≤ s.rest.length) :
    (Reply.ok t h : Reply s).state = t := rfl

end Reply

namespace ParseState.ExprInvariant

variable {R : ParseState → ParseState → Prop}

/-! ### Consuming steps and combinators -/

/-- Expecting a record of a given lexeme and kind is a consumption step, so an expression invariant
holds across it. -/
theorem expect (hR : ExprInvariant R) {s : ParseState} {lexeme : String} {kind : TokenKind}
    {r : Record} {t : Shorter s} (e : s.expect lexeme kind = .ok (r, t)) : R s t.1 :=
  hR.advance (expect_ok e).2

/-- Expecting a record of a given kind is a consumption step, so an expression invariant holds
across it. -/
theorem expectKind (hR : ExprInvariant R) {s : ParseState} {kind : TokenKind} {r : Record}
    {t : Shorter s} (e : s.expectKind kind = .ok (r, t)) : R s t.1 :=
  hR.advance (expectKind_ok e).2

/-- Consuming a bracket replaces the stack and then consumes the record. -/
theorem bracket (hR : ExprInvariant R) {s : ParseState} {c : Char} {r : Record} {t : Shorter s}
    (e : s.bracket c = .ok (r, t)) : R s t.1 := by
  unfold ParseState.bracket at e
  split at e
  · split at e <;> cases e
  · split at e
    · cases e
    · rename_i b _
      split at e
      · cases e
      · rename_i t' ht' he
        cases e
        exact hR.trans (hR.brackets s b) (hR.advance he)

/-- A production followed by another keeps the relation if both do. -/
theorem andThen (hR : ExprInvariant R) {s : ParseState} {r : Reply s}
    {k : (t : ParseState) → t.rest.length ≤ s.rest.length → Reply t} (hr : R s r.state)
    (hk : ∀ t h, R t (k t h).state) : R s (r.andThen k).state := by
  obtain ⟨res, t, h⟩ := r
  cases res with
  | error e => exact hr
  | ok u =>
    cases u
    exact hR.trans hr (hk t h)

/-- An attempt keeps the relation if its production does. -/
theorem attempted (hR : ExprInvariant R) {s : ParseState} {r : Reply s.enter}
    (hr : R s.enter r.state) : R s r.attempt.state :=
  hR.attempt _ hr

/-- The state an attempt answers with, read off the attempt's reply. -/
theorem of_attempt (hR : ExprInvariant R) {s t : ParseState} {r : Reply s.enter}
    {res : Except ParseError Unit} {h : t.rest.length ≤ s.rest.length}
    (hr : R s.enter r.state) (heq : r.attempt = ⟨res, t, h⟩) : R s t := by
  have := hR.attempted hr
  rwa [heq] at this

/-! ### Arithmetic -/

/-- The seven arithmetic productions keep the relation, by their mutual induction. -/
theorem arith_all (hR : ExprInvariant R) :
    (∀ s, R s (arith s).state) ∧ (∀ s, R s (arithMore s).state) ∧
    (∀ s, R s (term s).state) ∧ (∀ s, R s (termMore s).state) ∧
    (∀ s, R s (chunk s).state) ∧ (∀ s, R s (chunkMore s).state) ∧
    (∀ s, R s (factor s).state) := by
  apply arith.mutual_induct (fun s => R s (arith s).state) (fun s => R s (arithMore s).state)
    (fun s => R s (term s).state) (fun s => R s (termMore s).state)
    (fun s => R s (chunk s).state) (fun s => R s (chunkMore s).state)
    (fun s => R s (factor s).state)
  · intro s hk e ha
    rw [arith, if_pos hk, ha]
    exact hR.refl s
  · intro s hk sign t h ha hminus zero tables hint t' _ ihTerm ihMore
    obtain ⟨rfl, rfl⟩ : zero = (t.tables.internValue (.int 0)).1 ∧
        tables = (t.tables.internValue (.int 0)).2 := by rw [hint]; exact ⟨rfl, rfl⟩
    rw [arith, if_pos hk, ha]
    simp only [if_pos hminus]
    have hst : R s t' := hR.trans (hR.advance ha) (hR.trans (hR.zero t) (hR.emit _ _))
    exact hR.trans hst (hR.andThen ihTerm fun u hu => hR.trans (hR.emit u _) (ihMore u hu))
  · intro s hk sign t h ha hminus ihTerm ihMore
    rw [arith, if_pos hk, ha]
    simp only [if_neg hminus]
    exact hR.trans (hR.advance ha) (hR.andThen ihTerm ihMore)
  · intro s hk ihTerm ihMore
    rw [arith, if_neg hk]
    exact hR.andThen ihTerm ihMore
  · intro s hk e ha
    rw [arithMore, if_pos hk, ha]
    exact hR.refl s
  · intro s hk op t h ha ihTerm ihMore
    rw [arithMore, if_pos hk, ha]
    exact hR.trans (hR.advance ha)
      (hR.andThen ihTerm fun u hu => hR.trans (hR.emit u _) (ihMore u hu))
  · intro s hk
    rw [arithMore, if_neg hk]
    exact hR.refl s
  · intro s ihChunk ihMore
    rw [term]
    exact hR.andThen ihChunk ihMore
  · intro s hk e ha
    rw [termMore, if_pos hk, ha]
    exact hR.refl s
  · intro s hk op t h ha ihChunk ihMore
    rw [termMore, if_pos hk, ha]
    exact hR.trans (hR.advance ha)
      (hR.andThen ihChunk fun u hu => hR.trans (hR.emit u _) (ihMore u hu))
  · intro s hk
    rw [termMore, if_neg hk]
    exact hR.refl s
  · intro s ihFactor ihMore
    rw [chunk]
    exact hR.andThen ihFactor ihMore
  · intro s hk e ha
    rw [chunkMore, if_pos hk, ha]
    exact hR.refl s
  · intro s hk op t h ha ihFactor ihMore
    rw [chunkMore, if_pos hk, ha]
    exact hR.trans (hR.advance ha)
      (hR.andThen ihFactor fun u hu => hR.trans (hR.emit u _) (ihMore u hu))
  · intro s hk
    rw [chunkMore, if_neg hk]
    exact hR.refl s
  · intro s hs
    simp only [factor, hs]
    exact hR.refl s
  · intro s r tail hs hop e ha
    simp only [factor, hs]
    simp only [if_pos hop, ha]
    exact hR.refl s
  · intro s r tail hs hop r' t h ha
    simp only [factor, hs]
    simp only [if_pos hop, ha]
    exact hR.trans (hR.advance ha) (hR.emit t _)
  · intro s r tail hs hop hpar e hb
    simp only [factor, hs]
    simp only [if_neg hop, if_pos hpar, hb]
    exact hR.refl s
  · intro s r tail hs hop hpar lp t h hb ihArith
    simp only [factor, hs]
    simp only [if_neg hop, if_pos hpar, hb]
    refine hR.trans (hR.bracket hb) (hR.andThen ihArith fun u _ => ?_)
    split
    · exact hR.refl u
    · rename_i v _ hbr
      exact hR.bracket hbr
  · intro s r tail hs hop hpar
    simp only [factor, hs]
    simp only [if_neg hop, if_neg hpar]
    exact hR.refl s

/-- An expression invariant holds between the state an arithmetic expression starts in and the state
it ends in. -/
theorem arith_state (hR : ExprInvariant R) (s : ParseState) : R s (arith s).state :=
  hR.arith_all.1 s

/-! ### Conditions and right sides -/

/-- An expression invariant holds across a comparison: two arithmetic expressions and the operator
between them. -/
theorem comparison_state (hR : ExprInvariant R) (s : ParseState) : R s (comparison s).state := by
  unfold comparison
  refine hR.andThen (hR.arith_state s) fun t _ => ?_
  split
  · exact hR.refl t
  · rename_i u _ he
    exact hR.trans (hR.expectKind he) (hR.andThen (hR.arith_state u) fun v _ => hR.emit v _)

/-- An expression invariant holds across a parenthesised comparison, the brackets included. -/
theorem parenComparison_state (hR : ExprInvariant R) (s : ParseState) :
    R s (parenComparison s).state := by
  unfold parenComparison
  split
  · exact hR.refl s
  · rename_i t _ hb
    refine hR.trans (hR.bracket hb) (hR.andThen (hR.comparison_state t) fun u _ => ?_)
    split
    · exact hR.refl u
    · rename_i v _ hbr
      exact hR.bracket hbr

/-- An expression invariant holds across a condition, whichever of its two attempts answers. -/
theorem condition_state (hR : ExprInvariant R) (s : ParseState) : R s (condition s).state := by
  unfold condition
  split
  · -- a truth literal
    split
    · exact hR.refl s
    · rename_i t _ ha
      exact hR.trans (hR.advance ha) (hR.emit t _)
  · split
    · -- a parenthesised comparison is attempted first, a plain one after its rollback
      split
      · rename_i heq
        exact hR.of_attempt (hR.parenComparison_state s.enter) heq
      · rename_i t _ heq
        exact hR.trans (hR.of_attempt (hR.parenComparison_state s.enter) heq)
          (hR.comparison_state t)
    · exact hR.comparison_state s

/-- An expression invariant holds across the right side of an assignment, whichever alternative is
chosen. -/
theorem expression_state (hR : ExprInvariant R) (s : ParseState) : R s (expression s).state := by
  unfold expression
  split
  · rename_i heq
    exact hR.of_attempt (hR.condition_state s.enter) heq
  · rename_i t _ heq
    have ht := hR.of_attempt (hR.condition_state s.enter) heq
    split
    · rename_i heq'
      exact hR.trans ht (hR.of_attempt (hR.arith_state t.enter) heq')
    · rename_i heq'
      exact hR.trans ht (hR.of_attempt (hR.arith_state t.enter) heq')

end ParseState.ExprInvariant

namespace ParseState.Invariant

variable {R : ParseState → ParseState → Prop}

/-! ### Declarations and statements -/

/-- An invariant holds across a declared name list, by induction along the list. -/
theorem declNames_state (hR : Invariant R) (ty : Ty) (s : ParseState) :
    R s (declNames s ty).state := by
  induction s using declNames.induct ty with
  | case1 s e he =>
    rw [declNames, he]
    exact hR.refl s
  | case2 s name t h he e hd =>
    rw [declNames, he]
    simp only [hd]
    exact hR.expectKind he
  | case3 s name t h he tables hd t' _ hc e ha =>
    rw [declNames, he]
    simp only [hd]
    rw [if_pos hc, ha]
    exact hR.declare he hd
  | case4 s name t h he tables hd t' _ hc comma u hu ha ih =>
    rw [declNames, he]
    simp only [hd]
    rw [if_pos hc, ha]
    exact hR.trans (hR.declare he hd) (hR.trans (hR.advance ha) ih)
  | case5 s name t h he tables hd t' _ hc =>
    rw [declNames, he]
    simp only [hd]
    rw [if_neg hc]
    exact hR.declare he hd

/-- An invariant holds across the declarations, by induction along them. -/
theorem declarations_state (hR : Invariant R) (s : ParseState) :
    R s (declarations s).state := by
  induction s using declarations.induct with
  | case1 s hty =>
    rw [declarations, hty]
    exact hR.refl s
  | case2 s ty hty e ha =>
    rw [declarations, hty]
    simp only [ha]
    exact hR.refl s
  | case3 s ty hty kw t h ha ih =>
    rw [declarations, hty]
    simp only [ha]
    refine hR.trans (hR.advance ha) (hR.andThen (hR.declNames_state ty t) fun u hu => ?_)
    split
    · exact hR.refl u
    · rename_i v hv he
      exact hR.trans (hR.expect he) (ih u hu v hv)

/-- An invariant holds across the rest of an assignment. -/
theorem assignRest_state (hR : Invariant R) (s : ParseState) (target : Record) :
    R s (assignRest s target).state := by
  have hs := hR.emit s (.ofRecord target)
  unfold assignRest
  dsimp only
  split
  · exact hs
  · split
    · split
      · exact hs
      · rename_i t _ ha
        refine hR.trans hs (hR.trans (hR.advance ha)
          (hR.andThen (hR.expression_state t) fun u _ => ?_))
        split
        · exact hR.refl u
        · rename_i v _ he
          exact hR.trans (hR.expect he) (hR.emit v _)
    · exact hs

/-- An invariant holds across the names of a read or write statement, by induction along the
list. -/
theorem ioNames_state (hR : Invariant R) (kw : Record) (s : ParseState) :
    R s (ioNames s kw).state := by
  induction s using ioNames.induct kw with
  | case1 s e he =>
    rw [ioNames, he]
    exact hR.refl s
  | case2 s name t h he t' _ hc e ha =>
    rw [ioNames, he]
    simp only
    rw [if_pos hc, ha]
    exact hR.trans (hR.expectKind he) (hR.trans (hR.emit _ _) (hR.emit _ _))
  | case3 s name t h he t' _ hc comma u hu ha ih =>
    rw [ioNames, he]
    simp only
    rw [if_pos hc, ha]
    exact hR.trans (hR.trans (hR.expectKind he) (hR.trans (hR.emit _ _) (hR.emit _ _)))
      (hR.trans (hR.advance ha) ih)
  | case4 s name t h he t' _ hc =>
    rw [ioNames, he]
    simp only
    rw [if_neg hc]
    exact hR.trans (hR.expectKind he) (hR.trans (hR.emit _ _) (hR.emit _ _))

/-- An invariant holds across the rest of a read or write statement. -/
theorem ioRest_state (hR : Invariant R) (s : ParseState) (kw : Record) :
    R s (ioRest s kw).state := by
  unfold ioRest
  split
  · exact hR.refl s
  · rename_i t _ hb
    refine hR.trans (hR.bracket hb) (hR.andThen (hR.ioNames_state kw t) fun u _ => ?_)
    split
    · exact hR.refl u
    · rename_i v _ hbr
      split
      · exact hR.bracket hbr
      · rename_i he
        exact hR.trans (hR.bracket hbr) (hR.expect he)

/-- Blocks, statement lists and the `if` and `do` statements keep the relation, by their mutual
induction. -/
theorem block_all (hR : Invariant R) :
    (∀ s, R s (block s).state) ∧ (∀ s, R s (statements s).state) ∧
    (∀ s, R s (doRest s).state) ∧ (∀ s, R s (ifRest s).state) := by
  apply block.mutual_induct (fun s => R s (block s).state) (fun s => R s (statements s).state)
    (fun s => R s (doRest s).state) (fun s => R s (ifRest s).state)
  · intro s e hb
    rw [block, hb]
    exact hR.refl s
  · intro s lb t h hb ih
    rw [block, hb]
    refine hR.trans (hR.bracket hb) (hR.andThen ih fun u _ => ?_)
    split
    · exact hR.refl u
    · rename_i hbr
      exact hR.bracket hbr
  · intro s hs
    rw [statements]
    simp only [hs]
    exact hR.refl s
  · intro s r tail hs hclose
    rw [statements]
    simp only [hs]
    rw [if_pos hclose]
    exact hR.refl s
  · intro s r tail hs hclose hstart e ha
    rw [statements]
    simp only [hs]
    rw [if_neg hclose, if_pos hstart, ha]
    exact hR.refl s
  · intro s r tail hs hclose hstart first t h ha ihIf ihDo ihStmts
    rw [statements]
    simp only [hs]
    rw [if_neg hclose, if_pos hstart, ha]
    have hbody : R t (if first.kind = .ident then assignRest t first
        else if first.lexeme = "if" then ifRest t
        else if first.lexeme = "do" then doRest t
        else ioRest t first).state := by
      split
      · exact hR.assignRest_state t first
      · split
        · exact ihIf
        · split
          · exact ihDo
          · exact hR.ioRest_state t first
    exact hR.trans (hR.advance ha) (hR.andThen hbody ihStmts)
  · intro s r tail hs hclose hstart
    rw [statements]
    simp only [hs]
    rw [if_neg hclose, if_neg hstart]
    exact hR.refl s
  · intro s s' _ ih
    rw [doRest]
    refine hR.trans (hR.emit s _) (hR.andThen ih fun t _ => ?_)
    split
    · exact hR.refl t
    · rename_i u _ he
      split
      · exact hR.expect he
      · rename_i v _ hbl
        refine hR.trans (hR.trans (hR.expect he) (hR.bracket hbl))
          (hR.andThen (hR.condition_state v) fun w _ => ?_)
        split
        · exact hR.refl w
        · rename_i x _ hbr
          exact hR.trans (hR.bracket hbr) (hR.emit x _)
  · intro s e hb
    rw [ifRest, hb]
    exact hR.refl s
  · intro s lp t h hb ihBlock
    rw [ifRest, hb]
    refine hR.trans (hR.bracket hb) (hR.andThen (hR.condition_state t) fun u hu => ?_)
    split
    · exact hR.refl u
    · rename_i v hv hbr
      exact hR.trans (hR.bracket hbr)
        (hR.andThen (ihBlock u hu v hv) fun w _ => hR.emit w _)

/-- An invariant holds between the state a block starts in and the state it ends in. -/
theorem block_state (hR : Invariant R) (s : ParseState) : R s (block s).state :=
  hR.block_all.1 s

/-! ### Programs -/

/-- An invariant holds between the state a whole program starts in and the state it ends in. -/
theorem program_state (hR : Invariant R) (s : ParseState) : R s (program s).state := by
  unfold program
  split
  · exact hR.refl s
  · rename_i s1 _ he1
    split
    · exact hR.expect he1
    · rename_i s2 _ he2
      have h2 : R s s2 := hR.trans (hR.expect he1) (hR.expectKind he2)
      split
      · exact h2
      · rename_i s3 _ hb3
        refine hR.trans (hR.trans h2 (hR.bracket hb3))
          (hR.andThen (hR.declarations_state s3) fun s4 _ => ?_)
        refine hR.andThen (hR.block_state s4) fun s5 _ => ?_
        split
        · exact hR.refl s5
        · rename_i s6 _ hb6
          have h6 := hR.bracket hb6
          split
          · exact h6
          · split
            · exact h6
            · exact h6

end ParseState.Invariant

end RpnLang
