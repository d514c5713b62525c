import RpnLang.Pipeline
import RpnLang.Proofs.Evaluation
import RpnLang.Proofs.ParseProgram

/-!
# The machine runs a program as its derivation

Running the code of a derivation on the machine does what the reference interpreter does on
the derivation itself: the same answer, the same error, and the same world afterwards, that is
the same tables, the same input left unread and the same printed lines. Only the operand stack
of a failed run can differ, and nothing observes it.

The proof is the usual one for a compiler to a stack machine, with the code that follows left
open: the code of an expression followed by any code `k` runs as the expression's evaluation,
a push of its reference, and then `k`; the code of a statement followed by `k` runs as the
statement and then `k`. Two steps *agree* when they succeed alike with the same machine, or fail
alike with the same error and world; agreement is kept by sequencing, and a push commutes with
a step of the world up to agreement.
-/

namespace RpnLang

namespace Machine

section Agreement

variable {α β : Type}

/-- Steps are equal when they give the same result on every state. -/
theorem step_ext {σ : Type} {x y : Step σ α} (h : ∀ s, x.run s = y.run s) : x = y :=
  funext h

/-- Two results agree: the same answer and machine, or the same error and world. -/
def ResultAgree : EStateM.Result RunError Machine α → EStateM.Result RunError Machine α → Prop
  | .ok a m, .ok b m' => a = b ∧ m = m'
  | .error e m, .error e' m' => e = e' ∧ m.toWorld = m'.toWorld
  | _, _ => False

theorem ResultAgree.refl (r : EStateM.Result RunError Machine α) : ResultAgree r r := by
  cases r <;> simp [ResultAgree]

theorem ResultAgree.trans {r r' r'' : EStateM.Result RunError Machine α}
    (h : ResultAgree r r') (h' : ResultAgree r' r'') : ResultAgree r r'' := by
  cases r <;> cases r' <;> cases r'' <;> simp_all [ResultAgree]

/-- Two steps agree on every machine. -/
def Agree (x y : Step Machine α) : Prop :=
  ∀ m, ResultAgree (x.run m) (y.run m)

theorem Agree.refl (x : Step Machine α) : Agree x x :=
  fun _ => ResultAgree.refl _

theorem Agree.trans {x y z : Step Machine α} (h : Agree x y) (h' : Agree y z) : Agree x z :=
  fun m => (h m).trans (h' m)

/-- Equal steps agree. -/
theorem Agree.of_eq {x y : Step Machine α} (h : x = y) : Agree x y :=
  h ▸ Agree.refl x

instance : Trans (@Agree α) (@Agree α) (@Agree α) := ⟨Agree.trans⟩

/-- Sequencing keeps agreement. -/
theorem Agree.bind {x y : Step Machine α} {f g : α → Step Machine β} (hx : Agree x y)
    (hf : ∀ a, Agree (f a) (g a)) : Agree (x >>= f) (y >>= g) := by
  intro m
  have hxy := hx m
  simp only [EStateM.run_bind]
  cases hrx : x.run m with
  | ok a m' =>
    cases hry : y.run m with
    | ok b m'' =>
      rw [hrx, hry] at hxy
      obtain ⟨rfl, rfl⟩ := hxy
      exact hf a m'
    | error e m'' =>
      rw [hrx, hry] at hxy
      exact hxy.elim
  | error e m' =>
    cases hry : y.run m with
    | ok b m'' =>
      rw [hrx, hry] at hxy
      exact hxy.elim
    | error e' m'' =>
      rw [hrx, hry] at hxy
      exact hxy

end Agreement

/-! ### Instructions -/

/-- Running code executes its first instruction and then runs the rest. -/
theorem run_cons (i : Instr) (code : List Instr) :
    run (i :: code) = (exec i >>= fun _ => run code) :=
  rfl

/-- An operand's instruction pushes it. -/
theorem exec_operand {r : Record} (h : r.kind.isOperand = true) :
    exec (.ofRecord r) = push (.ofRecord r) := by
  simp [Instr.ofRecord, exec, h]

/-- An arithmetic operator's instruction runs the arithmetic step for its spelling. -/
theorem exec_arith_op {lexeme : String} {kind : TokenKind}
    (h : kind = .addOp ∨ kind = .multOp ∨ kind = .powOp) :
    exec (.token lexeme kind) = arithmetic lexeme := by
  rcases h with rfl | rfl | rfl <;> rfl

/-- A relational operator's instruction runs the comparison for its spelling. -/
theorem exec_relOp (lexeme : String) : exec (.token lexeme .relOp) = compare lexeme := rfl

/-- The assignment operator's instruction runs the assignment step. -/
theorem exec_assignOp (lexeme : String) : exec (.token lexeme .assignOp) = assign lexeme := rfl

/-- The `input` keyword reads an input line. -/
theorem exec_input : exec (.token "input" .keyword) = readInput := rfl

/-- The `print` keyword prints the top of the stack. -/
theorem exec_print : exec (.token "print" .keyword) = printTop := rfl

/-- A marker stops the run: `if` and `do` are not implemented. -/
theorem exec_marker (mark : Marker) : exec (.marker mark) = throw (.notImplemented mark.lexeme) :=
  rfl

/-! ### The stack around the steps of the world -/

section Stack

variable {α β : Type}

/-- A world step run on the machine leaves the stack alone. -/
theorem run_onWorld (x : Step World α) (m : Machine) :
    (onWorld x).run m = match x.run m.toWorld with
      | .ok a w => .ok a { m with toWorld := w }
      | .error e w => .error e { m with toWorld := w } :=
  rfl

/-- Lifting a world step to the machine commutes with sequencing. -/
theorem onWorld_bind (x : Step World α) (f : α → Step World β) :
    onWorld (x >>= f) = (onWorld x >>= fun a => onWorld (f a)) := by
  apply step_ext
  intro m
  simp only [run_onWorld, EStateM.run_bind]
  cases x.run m.toWorld <;> rfl

/-- Lifting a returned value returns it. -/
theorem onWorld_pure (a : α) : onWorld (pure a : Step World α) = (pure a : Step Machine α) :=
  rfl

/-- Lifting an error throws it. -/
theorem onWorld_throw (e : RunError) :
    onWorld (throw e : Step World α) = (throw e : Step Machine α) :=
  rfl

/-- A push commutes with a step of the world; if the step fails, only the stack differs. -/
theorem push_onWorld (a : Instr) (x : Step World α) (g : α → Step Machine β) :
    Agree (push a >>= fun _ => onWorld x >>= g)
      (onWorld x >>= fun b => push a >>= fun _ => g b) := by
  intro m
  simp only [push, EStateM.run_bind, EStateM.run_modify, run_onWorld]
  cases x.run m.toWorld with
  | ok b w => exact ResultAgree.refl _
  | error e w => exact ⟨rfl, rfl⟩

/-- A push before a failure is not observed. -/
theorem push_throw (a : Instr) (e : RunError) :
    Agree (push a >>= fun _ => (throw e : Step Machine α)) (throw e) :=
  fun _ => ⟨rfl, rfl⟩

/-- A binary operator after pushes of its two operands applies to them. -/
theorem push_push_binary (a b : Instr) (compute : Value → Value → Except ArithError Value)
    (op : String) :
    (push a >>= fun _ => push b >>= fun _ => binary compute op) =
      (onWorld (World.apply compute a b) >>= push) := by
  apply step_ext
  intro m
  simp only [push, binary, popPair, pop, EStateM.run_bind, EStateM.run_modify,
    EStateM.run_get, EStateM.run_set, EStateM.run_pure]

/-- `=` after pushes of its target and source assigns. -/
theorem push_push_assign (a b : Instr) (op : String) :
    (push a >>= fun _ => push b >>= fun _ => assign op) = onWorld (World.assign a b) := by
  apply step_ext
  intro m
  simp only [push, assign, popPair, pop, EStateM.run_bind, EStateM.run_modify,
    EStateM.run_get, EStateM.run_set, EStateM.run_pure]

/-- A keyword after a push of its operand acts on it. -/
theorem push_unary (a : Instr) (op : String) (act : Instr → Step World Unit) :
    (push a >>= fun _ => unary op act) = onWorld (act a) := by
  apply step_ext
  intro m
  simp only [push, unary, pop, EStateM.run_bind, EStateM.run_modify,
    EStateM.run_get, EStateM.run_set, EStateM.run_pure]

end Stack

/-! ### Code that computes a reference, code that runs a step -/

/-- Followed by any code `k`, the code runs as the evaluation `x`, a push of the reference it
gives, and `k`. -/
def Computes (code : List Instr) (x : Step World Instr) : Prop :=
  ∀ k, Agree (run (code ++ k)) (onWorld x >>= fun r => push r >>= fun _ => run k)

/-- Followed by any code `k`, the code runs as the step `x` and then `k`. -/
def Runs (code : List Instr) (x : Step World Unit) : Prop :=
  ∀ k, Agree (run (code ++ k)) (onWorld x >>= fun _ => run k)

/-- An operand pushes itself. -/
theorem computes_operand {lexeme : String} {kind : TokenKind} (h : kind.isOperand = true) :
    Computes [.token lexeme kind] (pure (.token lexeme kind)) := by
  intro k
  apply Agree.of_eq
  simp [run_cons, exec, h, onWorld_pure]

/-- Two operands and then an instruction that consumes them: whatever the instruction does
after pushes of the two references, the whole code does after the two evaluations. -/
theorem binary_agree {γ : Type} {cl cr : List Instr} {el er : Step World Instr} {op : Instr}
    {k : List Instr} (f : Instr → Instr → Step World γ) (K : γ → Step Machine Unit)
    (hl : Computes cl el) (hr : Computes cr er)
    (hop : ∀ a b, Agree (push a >>= fun _ => push b >>= fun _ => run (op :: k))
      (onWorld (f a b) >>= K)) :
    Agree (run (cl ++ cr ++ op :: k)) (onWorld (el >>= fun a => er >>= fun b => f a b) >>= K) :=
  calc run (cl ++ cr ++ op :: k)
    _ = run (cl ++ (cr ++ op :: k)) := by rw [List.append_assoc]
    Agree _ (onWorld el >>= fun a => push a >>= fun _ => run (cr ++ op :: k)) := hl _
    Agree _ (onWorld el >>= fun a => push a >>= fun _ =>
        onWorld er >>= fun b => push b >>= fun _ => run (op :: k)) :=
      Agree.bind (Agree.refl _) fun a => Agree.bind (Agree.refl _) fun _ => hr _
    -- the left reference waits on the stack while the right side is evaluated
    Agree _ (onWorld el >>= fun a => onWorld er >>= fun b =>
        push a >>= fun _ => push b >>= fun _ => run (op :: k)) :=
      Agree.bind (Agree.refl _) fun a => push_onWorld a er _
    Agree _ (onWorld el >>= fun a => onWorld er >>= fun b => onWorld (f a b) >>= K) :=
      Agree.bind (Agree.refl _) fun a => Agree.bind (Agree.refl _) fun b => hop a b
    _ = onWorld (el >>= fun a => er >>= fun b => f a b) >>= K := by
      simp only [onWorld_bind, bind_assoc]

/-- Two operands and an operator whose result is pushed. -/
theorem computes_binary {cl cr : List Instr} {el er : Step World Instr} {op : Instr}
    (f : Instr → Instr → Step World Instr) (hl : Computes cl el) (hr : Computes cr er)
    (hop : ∀ a b, (push a >>= fun _ => push b >>= fun _ => exec op) = onWorld (f a b) >>= push) :
    Computes (cl ++ cr ++ [op]) (el >>= fun a => er >>= fun b => f a b) := by
  intro k
  have hk : ∀ a b, Agree (push a >>= fun _ => push b >>= fun _ => run (op :: k))
      (onWorld (f a b) >>= fun r => push r >>= fun _ => run k) := by
    intro a b
    apply Agree.of_eq
    calc (push a >>= fun _ => push b >>= fun _ => run (op :: k))
      _ = (push a >>= fun _ => push b >>= fun _ => exec op) >>= (fun _ => run k) := by
        simp only [run_cons, bind_assoc]
      _ = onWorld (f a b) >>= fun r => push r >>= fun _ => run k := by
        rw [hop, bind_assoc]
  simpa [List.append_assoc, bind_assoc] using binary_agree f _ hl hr hk

/-- An error stops the rest of the step. -/
theorem throw_bind (e : RunError) (f : α → Step Machine β) :
    ((throw e : Step Machine α) >>= f) = throw e :=
  rfl

/-- A marker stops the machine whatever code follows. -/
theorem run_marker (mark : Marker) (k : List Instr) :
    run (.marker mark :: k) = throw (.notImplemented mark.lexeme) := by
  rw [run_cons, exec_marker, throw_bind]

/-- The keyword of an `input` or `print` list after a push of an identifier. -/
theorem push_exec_io (kw : IoWord) (a : Instr) :
    (push a >>= fun _ => exec (.ofRecord kw.1)) =
      onWorld (if kw.1.lexeme = "input" then World.input a else World.print a) := by
  obtain ⟨r, hk, hl | hl⟩ := kw
  · simp only [Instr.ofRecord, hk, hl, exec_input, if_true]
    exact push_unary a _ _
  · simp only [Instr.ofRecord, hk, hl, exec_print]
    rw [if_neg (by decide)]
    exact push_unary a _ _

/-- An arithmetic operator of the derivation after pushes of its operands. -/
theorem push_push_operator {k : TokenKind} (hk : k = .addOp ∨ k = .multOp ∨ k = .powOp)
    (op : OfKind k) (a b : Instr) :
    (push a >>= fun _ => push b >>= fun _ => exec (.ofRecord op.1)) =
      onWorld (World.apply (calculate op.1.lexeme) a b) >>= push := by
  obtain ⟨r, hr⟩ := op
  subst hr
  rw [Instr.ofRecord, exec_arith_op hk]
  exact push_push_binary a b _ _

end Machine

open Machine

/-- The code of an arithmetic derivation computes the reference the derivation evaluates to. -/
theorem arith_computes {l : Level} (e : Arith l) : Computes e.emit e.eval := by
  induction e with
  | signed sign first ih =>
    cases sign with
    | none => simpa [Arith.emit, Arith.eval] using ih
    | some sign =>
      by_cases hminus : sign.1.lexeme = "-"
      · -- a leading minus subtracts the term from the literal zero
        have hz : Computes [zeroInstr] (pure zeroInstr) := computes_operand rfl
        have h : Computes ([zeroInstr] ++ first.emit ++ [minusInstr]) _ :=
          computes_binary (World.apply (calculate "-")) hz ih fun a b => by
            unfold minusInstr
            rw [exec_arith_op (Or.inl rfl)]
            exact push_push_binary a b _ "-"
        simpa [Arith.emit, Arith.eval, hminus] using h
      · simpa [Arith.emit, Arith.eval, hminus] using ih
  | add left op right ihl ihr =>
    exact computes_binary _ ihl ihr (push_push_operator (Or.inl rfl) op)
  | term first ih => exact ih
  | mul left op right ihl ihr =>
    exact computes_binary _ ihl ihr (push_push_operator (Or.inr (Or.inl rfl)) op)
  | chunk first ih => exact ih
  | pow left op right ihl ihr =>
    exact computes_binary _ ihl ihr (push_push_operator (Or.inr (Or.inr rfl)) op)
  | operand r =>
    obtain ⟨r, hr⟩ := r
    exact computes_operand hr
  | paren lp inner rp ih => exact ih

/-- The code of a comparison computes its truth value. -/
theorem comparison_computes (c : Comparison) : Computes c.emit c.eval := by
  obtain ⟨left, ⟨op, hop⟩, right⟩ := c
  refine computes_binary (World.apply (compareAs op.lexeme)) (arith_computes left)
    (arith_computes right) fun a b => ?_
  rw [Instr.ofRecord, hop, exec_relOp]
  exact push_push_binary a b _ op.lexeme

/-- The code of a condition computes its truth value. -/
theorem cond_computes (c : Cond) : Computes c.emit c.eval := by
  cases c with
  | lit r =>
    obtain ⟨r, hr⟩ := r
    exact computes_operand (by rw [hr]; rfl)
  | compare c => exact comparison_computes c
  | paren lp c rp => exact comparison_computes c

/-- The code of a right side computes its value. -/
theorem rhs_computes (e : Rhs) : Computes e.emit e.eval := by
  cases e with
  | cond c => exact cond_computes c
  | arith e => exact arith_computes e

/-! ### Statements -/

theorem runs_nil : Runs [] (pure ()) := by
  intro k
  apply Agree.of_eq
  simp [onWorld_pure]

/-- Code that runs one step, then code that runs another, runs the two in order. -/
theorem runs_append {c c' : List Instr} {x x' : Step World Unit} (h : Runs c x) (h' : Runs c' x') :
    Runs (c ++ c') (x >>= fun _ => x') := by
  intro k
  calc Machine.run (c ++ c' ++ k)
    _ = Machine.run (c ++ (c' ++ k)) := by rw [List.append_assoc]
    Agree _ (onWorld x >>= fun _ => Machine.run (c' ++ k)) := h _
    Agree _ (onWorld x >>= fun _ => onWorld x' >>= fun _ => Machine.run k) :=
      Agree.bind (Agree.refl _) fun _ => h' k
    _ = onWorld (x >>= fun _ => x') >>= fun _ => Machine.run k := by
      simp only [onWorld_bind, bind_assoc]

/-- `x = e;`: the target is pushed, the right side computed, and `=` assigns. -/
theorem assign_runs (target : OfKind .ident) (eq : Word "=" .assignOp) (rhs : Rhs) :
    Runs (.ofRecord target.1 :: rhs.emit ++ [.ofRecord eq.1])
      (do let r ← rhs.eval; World.assign (.ofRecord target.1) r) := by
  intro k
  have hexec : exec (.ofRecord eq.1) = assign eq.1.lexeme := by
    rw [Instr.ofRecord, Record.kind_of_is eq.2, exec_assignOp]
  have ht : Computes [.ofRecord target.1] (pure (.ofRecord target.1)) :=
    computes_operand (by rw [target.2]; rfl)
  have h : Agree (Machine.run ([.ofRecord target.1] ++ rhs.emit ++ .ofRecord eq.1 :: k)) _ :=
    binary_agree (fun a b => World.assign a b) (fun _ => Machine.run k) ht (rhs_computes rhs)
      fun a b => by
        apply Agree.of_eq
        calc (push a >>= fun _ => push b >>= fun _ => Machine.run (.ofRecord eq.1 :: k))
          _ = (push a >>= fun _ => push b >>= fun _ => assign eq.1.lexeme) >>=
              fun _ => Machine.run k := by
            simp only [run_cons, hexec, bind_assoc]
          _ = onWorld (World.assign a b) >>= fun _ => Machine.run k := by
            rw [push_push_assign]
  simpa [List.append_assoc] using h

/-- `input` or `print`: each identifier is pushed and taken by the keyword at once. -/
theorem io_runs (kw : IoWord) (xs : List Record) (hxs : ∀ x ∈ xs, x.kind = .ident) :
    Runs (xs.flatMap fun x => [.ofRecord x, .ofRecord kw.1]) (xs.forM (ioStep kw.1)) := by
  induction xs with
  | nil => simpa using runs_nil
  | cons x xs ih =>
    have hx : Runs [.ofRecord x, .ofRecord kw.1] (ioStep kw.1 x) := by
      intro k
      apply Agree.of_eq
      have hop : exec (.ofRecord x) = push (.ofRecord x) :=
        exec_operand (by rw [hxs x List.mem_cons_self]; rfl)
      simp only [List.cons_append, List.nil_append, run_cons, hop]
      rw [← bind_assoc, push_exec_io, ioStep]
    simpa using runs_append hx (ih fun y hy => hxs y (List.mem_cons_of_mem x hy))

/-- `if (c) { S }`: the condition's reference waits under the body, then the marker stops. -/
theorem ifThen_runs (cond : Cond) {body : List Instr} {x : Step World Unit} (h : Runs body x) :
    Runs (cond.emit ++ body ++ [.marker .ifEnd])
      (do let _ ← cond.eval; x; throw (.notImplemented Marker.ifEnd.lexeme)) := by
  intro k
  calc Machine.run (cond.emit ++ body ++ [.marker .ifEnd] ++ k)
    _ = Machine.run (cond.emit ++ (body ++ (.marker .ifEnd :: k))) := by simp
    Agree _ (onWorld cond.eval >>= fun r => push r >>= fun _ =>
        Machine.run (body ++ .marker .ifEnd :: k)) := cond_computes cond _
    Agree _ (onWorld cond.eval >>= fun r => push r >>= fun _ =>
        onWorld x >>= fun _ => Machine.run (.marker .ifEnd :: k)) :=
      Agree.bind (Agree.refl _) fun _ => Agree.bind (Agree.refl _) fun _ => h _
    Agree _ (onWorld cond.eval >>= fun r => onWorld x >>= fun _ =>
        push r >>= fun _ => Machine.run (.marker .ifEnd :: k)) :=
      Agree.bind (Agree.refl _) fun r => push_onWorld r x _
    Agree _ (onWorld cond.eval >>= fun _ => onWorld x >>= fun _ =>
        throw (.notImplemented Marker.ifEnd.lexeme)) :=
      Agree.bind (Agree.refl _) fun r => Agree.bind (Agree.refl _) fun _ => by
        rw [run_marker]
        exact push_throw r _
    _ = onWorld (do let _ ← cond.eval; x; throw (.notImplemented Marker.ifEnd.lexeme)) >>=
        fun _ => Machine.run k := by
      simp only [onWorld_bind, onWorld_throw, bind_assoc, throw_bind]

/-- `do { S } while (c)`: the loop's first marker stops the machine. -/
theorem doWhile_runs (code : List Instr) :
    Runs (.marker .loopStart :: code) (throw (.notImplemented Marker.loopStart.lexeme)) := by
  intro k
  apply Agree.of_eq
  rw [List.cons_append, run_marker, onWorld_throw, throw_bind]

mutual

/-- The code of a statement runs as the statement. -/
theorem stmt_runs : (st : Stmt) → Runs st.emit st.exec
  | .assign target eq rhs _ => assign_runs target eq rhs
  | .io kw _ names _ _ => io_runs kw names.idents names.kind_of_mem_idents
  | .ifThen _ _ cond _ body => ifThen_runs cond (block_runs body)
  | .doWhile _ body _ _ cond _ => doWhile_runs (body.emit ++ cond.emit ++ [.marker .loopEnd])

/-- The code of a block runs as the block. -/
theorem block_runs : (b : Block) → Runs b.emit b.exec
  | .mk _ stmts _ => stmts_runs stmts

/-- The code of statements runs as the statements in order. -/
theorem stmts_runs : (ss : List Stmt) → Runs (Stmt.emitAll ss) (Stmt.execAll ss)
  | [] => runs_nil
  | st :: ss => runs_append (stmt_runs st) (stmts_runs ss)

end

/-! ### Programs -/

namespace Machine

variable {α : Type}

/-- What a run shows of the machine: the answer or the error, and the world. -/
def observe : EStateM.Result RunError Machine α → EStateM.Result RunError World α
  | .ok a m => .ok a m.toWorld
  | .error e m => .error e m.toWorld

/-- Agreeing results show the same. -/
theorem ResultAgree.observe_eq {r r' : EStateM.Result RunError Machine α}
    (h : ResultAgree r r') : observe r = observe r' := by
  cases r <;> cases r' <;> simp_all [ResultAgree, observe]

/-- A step of the world run on the machine shows what it does to the world. -/
theorem observe_onWorld (x : Step World α) (m : Machine) :
    observe ((onWorld x).run m) = x.run m.toWorld := by
  rw [run_onWorld]
  cases x.run m.toWorld <;> rfl

end Machine

/-- The code of a program's derivation, run on any machine, shows what the derivation does to
the machine's world. -/
theorem run_program_emit (p : Program) (m : Machine) :
    observe ((Machine.run p.emit).run m) = p.exec.run m.toWorld := by
  have h := block_runs p.body [] m
  have hend : (onWorld p.body.exec >>= fun _ => Machine.run []) = onWorld p.body.exec := by
    simp [Machine.run]
  rw [List.append_nil, hend] at h
  rw [Program.emit, h.observe_eq, observe_onWorld, Program.exec]

/-- A translated source was lexed, and its records parsed to the translation. -/
theorem translate_ok {lines : List String} {tr : Translation}
    (h : (translate lines).2 = .ok tr) :
    ∃ lexed, lex lines = .ok lexed ∧ (parse lexed.records.toList lexed.tables).2 = .ok tr := by
  unfold translate at h
  split at h
  · cases h
  · rename_i lexed hlex
    refine ⟨lexed, hlex, ?_⟩
    rcases hp : parse lexed.records.toList lexed.tables with ⟨traced, result⟩
    simp only [hp] at h
    cases result with
    | error e => cases h
    | ok t =>
      cases h
      rfl

/-- Every accepted source is lexed to records that are the yield of a derivation whose emission
is the code; on every input, running the code on the machine shows the same answer or error,
and leaves the same tables, unread input and printed lines, as running the derivation. -/
theorem run_matches_derivation {lines : List String} {tr : Translation}
    (h : (translate lines).2 = .ok tr) :
    ∃ lexed, lex lines = .ok lexed ∧ ∃ p : Program, p.yield = lexed.records.toList ∧
      tr.code.toList = p.emit ∧ ∀ input : List UInt8,
        observe ((Machine.run tr.code.toList).run { tables := tr.tables, unread := input }) =
          p.exec.run { tables := tr.tables, unread := input } := by
  obtain ⟨lexed, hlex, hparse⟩ := translate_ok h
  obtain ⟨p, hyield, hp⟩ := parse_derivation hparse
  refine ⟨lexed, hlex, p, hyield, hp, fun input => ?_⟩
  rw [hp]
  exact run_program_emit p _

/-- The lines of `program p { int x; { x = 1; print(x); } }`. -/
def printProgramLines : List String :=
  ["program p \x7b", "int x;", "\x7b", "x = 1;", "print(x);", "\x7d", "\x7d"]

/-- Its translation: the code `x 1 = x print`, with `x` declared `int` and `1` interned. -/
def printProgramTranslation : Translation :=
  ⟨#[.token "x" .ident, .token "1" .int, .token "=" .assignOp, .token "x" .ident,
    .token "print" .keyword], ⟨#[⟨"p", 1, none, none⟩, ⟨"x", 2, some .int, none⟩], #[⟨"1", 1, .int 1⟩]⟩⟩

/-- A program with a `print` statement: its code is the emission of its derivation and runs it on
every input. -/
theorem run_matches_derivation_print :
    (translate printProgramLines).2 = .ok printProgramTranslation ∧
    ∃ lexed, lex printProgramLines = .ok lexed ∧ ∃ p : Program, p.yield = lexed.records.toList ∧
      printProgramTranslation.code.toList = p.emit ∧ ∀ input : List UInt8,
        observe ((Machine.run printProgramTranslation.code.toList).run
          { tables := printProgramTranslation.tables, unread := input }) =
          p.exec.run { tables := printProgramTranslation.tables, unread := input } := by
  have h : (translate printProgramLines).2 = .ok printProgramTranslation := by
    with_unfolding_all rfl
  exact ⟨h, run_matches_derivation h⟩

end RpnLang
