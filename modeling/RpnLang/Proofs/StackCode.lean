import RpnLang.Proofs.Derivation
import RpnLang.Proofs.LexedRecords

/-!
# Well-formed stack code

A checker reads code from left to right over a layout of the operand stack that records, for
each entry, whether it is an identifier. Operands push, `=` pops a source and an identifier
target below it, an arithmetic operator or a comparison pops two entries and pushes a value,
`input` and `print` pop an identifier, and markers leave the stack alone; an instruction that
finds too few entries, or no identifier where one is needed, or that is none of these, fails
the check. Counting entries, operands count `+1`, `=` counts `-2`, operators `-1`, `input` and
`print` `-1` and markers `0`.

The code of every derivation passes: an expression pushes one entry, an assignment or an
`input` or `print` statement leaves the layout as it found it, and `if` and `do` leave their
condition's entry. Every instruction of the code comes from a record of the derivation, or is the
zero and the minus of a leading sign, or a marker.
-/

namespace RpnLang

/-- One instruction of stack code, over a layout that says for each entry whether it is an
identifier. -/
def stackStep (st : List Bool) : Instr → Option (List Bool)
  | .marker _ => some st
  | .token lexeme kind =>
    if kind = .ident then some (true :: st)
    else if kind.isConstant then some (false :: st)
    else if kind = .assignOp then
      match st with
      | _ :: true :: rest => some rest
      | _ => none
    else if kind = .keyword ∧ (lexeme = "input" ∨ lexeme = "print") then
      match st with
      | true :: rest => some rest
      | _ => none
    else if kind = .addOp ∨ kind = .multOp ∨ kind = .powOp ∨ kind = .relOp then
      match st with
      | _ :: _ :: rest => some (false :: rest)
      | _ => none
    else none

/-- The layout after code, if every instruction passes the check. -/
def stackRun (code : List Instr) (st : List Bool) : Option (List Bool) :=
  code.foldlM stackStep st

/-- Well-formed stack code: from the empty stack every instruction finds what it needs. -/
def StackCode (code : List Instr) : Prop :=
  (stackRun code []).isSome = true

instance (code : List Instr) : Decidable (StackCode code) :=
  inferInstanceAs (Decidable (_ = true))

@[simp] theorem stackRun_nil (st : List Bool) : stackRun [] st = some st := rfl

/-- Code is checked one instruction at a time, from the left. -/
theorem stackRun_cons (i : Instr) (code : List Instr) (st : List Bool) :
    stackRun (i :: code) st = (stackStep st i).bind (stackRun code) := rfl

/-- Code that passes the check from `st` starts with an instruction that passes it. -/
theorem stackRun_cons_isSome {i : Instr} {code : List Instr} {st : List Bool}
    (h : (stackRun (i :: code) st).isSome = true) :
    ∃ st', stackStep st i = some st' ∧ (stackRun code st').isSome = true := by
  rw [stackRun_cons] at h
  cases hs : stackStep st i with
  | none =>
    rw [hs] at h
    cases h
  | some st' =>
    rw [hs] at h
    exact ⟨st', rfl, h⟩

/-- Checking concatenated code checks the second part on the layout the first leaves. -/
theorem stackRun_append (c c' : List Instr) (st : List Bool) :
    stackRun (c ++ c') st = (stackRun c st).bind (stackRun c') := by
  simp only [stackRun, List.foldlM_append]
  rfl

/-- Code whose layout change is `f`, whatever layout it starts on. -/
def Shifts (code : List Instr) (f : List Bool → List Bool) : Prop :=
  ∀ st, stackRun code st = some (f st)

/-- Layout changes of concatenated code compose. -/
theorem Shifts.append {c c' : List Instr} {f g : List Bool → List Bool} (h : Shifts c f)
    (h' : Shifts c' g) : Shifts (c ++ c') (g ∘ f) := by
  intro st
  rw [stackRun_append, h st, Option.bind_some, h' (f st), Function.comp_apply]

/-- An identifier pushes an identifier entry, a literal a value entry. -/
theorem shifts_operand {lexeme : String} {kind : TokenKind} (h : kind.isOperand = true) :
    Shifts [.token lexeme kind] (decide (kind = .ident) :: ·) := by
  intro st
  by_cases hid : kind = .ident
  · simp [stackRun_cons, stackStep, hid]
  · have hc : kind.isConstant = true := by
      simpa [TokenKind.isOperand, hid] using h
    simp [stackRun_cons, stackStep, hid, hc]

/-- An operator pops two entries and pushes a value. -/
theorem shifts_operator {lexeme : String} {kind : TokenKind}
    (h : kind = .addOp ∨ kind = .multOp ∨ kind = .powOp ∨ kind = .relOp) (a b : Bool)
    (st : List Bool) : stackRun [.token lexeme kind] (b :: a :: st) = some (false :: st) := by
  rcases h with rfl | rfl | rfl | rfl <;> rfl

/-- Two operands and an operator push one value entry. -/
theorem shifts_binary {cl cr : List Instr} {a b : Bool} {lexeme : String} {kind : TokenKind}
    (hl : Shifts cl (a :: ·)) (hr : Shifts cr (b :: ·))
    (hk : kind = .addOp ∨ kind = .multOp ∨ kind = .powOp ∨ kind = .relOp) :
    Shifts (cl ++ cr ++ [.token lexeme kind]) (false :: ·) := by
  intro st
  rw [stackRun_append, stackRun_append, hl st, Option.bind_some, hr, Option.bind_some,
    shifts_operator hk]

/-- An operator record of the derivation is the token of its kind. -/
theorem ofRecord_ofKind {k : TokenKind} (op : OfKind k) :
    Instr.ofRecord op.1 = .token op.1.lexeme k := by
  rw [Instr.ofRecord, op.2]

/-! ### The code of derivations -/

/-- The code of an arithmetic derivation pushes one entry. -/
theorem arith_shifts {l : Level} (e : Arith l) : ∃ b, Shifts e.emit (b :: ·) := by
  induction e with
  | signed sign first ih =>
    obtain ⟨b, hb⟩ := ih
    cases sign with
    | none => exact ⟨b, hb⟩
    | some sign =>
      by_cases hminus : sign.1.lexeme = "-"
      · -- the zero and the first term, then the minus
        refine ⟨false, ?_⟩
        have hz : Shifts [.token "0" .int] (false :: ·) := shifts_operand rfl
        have h : Shifts ([.token "0" .int] ++ first.emit ++ [.token "-" .addOp]) (false :: ·) :=
          shifts_binary hz hb (Or.inl rfl)
        simpa [Arith.emit, hminus, zeroInstr, minusInstr] using h
      · exact ⟨b, by simpa [Arith.emit, hminus] using hb⟩
  | add left op right ihl ihr =>
    obtain ⟨a, ha⟩ := ihl
    obtain ⟨b, hb⟩ := ihr
    refine ⟨false, ?_⟩
    rw [Arith.emit, ofRecord_ofKind]
    exact shifts_binary ha hb (Or.inl rfl)
  | term first ih => exact ih
  | mul left op right ihl ihr =>
    obtain ⟨a, ha⟩ := ihl
    obtain ⟨b, hb⟩ := ihr
    refine ⟨false, ?_⟩
    rw [Arith.emit, ofRecord_ofKind]
    exact shifts_binary ha hb (Or.inr (Or.inl rfl))
  | chunk first ih => exact ih
  | pow left op right ihl ihr =>
    obtain ⟨a, ha⟩ := ihl
    obtain ⟨b, hb⟩ := ihr
    refine ⟨false, ?_⟩
    rw [Arith.emit, ofRecord_ofKind]
    exact shifts_binary ha hb (Or.inr (Or.inr (Or.inl rfl)))
  | operand r => exact ⟨_, shifts_operand r.2⟩
  | paren lp inner rp ih => exact ih

/-- A comparison pushes one value entry. -/
theorem comparison_shifts (c : Comparison) : Shifts c.emit (false :: ·) := by
  obtain ⟨a, ha⟩ := arith_shifts c.left
  obtain ⟨b, hb⟩ := arith_shifts c.right
  rw [Comparison.emit, ofRecord_ofKind]
  exact shifts_binary ha hb (Or.inr (Or.inr (Or.inr rfl)))

/-- A condition pushes one entry. -/
theorem cond_shifts (c : Cond) : ∃ b, Shifts c.emit (b :: ·) := by
  cases c with
  | lit r => exact ⟨_, shifts_operand (by rw [r.2]; rfl)⟩
  | compare c => exact ⟨false, comparison_shifts c⟩
  | paren lp c rp => exact ⟨false, comparison_shifts c⟩

/-- The right side of an assignment pushes one entry. -/
theorem rhs_shifts (e : Rhs) : ∃ b, Shifts e.emit (b :: ·) := by
  cases e with
  | cond c => exact cond_shifts c
  | arith e => exact arith_shifts e

/-- An assignment leaves the layout as it found it: its target is an identifier entry under the
value when `=` comes. -/
theorem assign_shifts (target : OfKind .ident) (eq : Word "=" .assignOp) (rhs : Rhs) :
    Shifts (.ofRecord target.1 :: rhs.emit ++ [.ofRecord eq.1]) id := by
  obtain ⟨b, hb⟩ := rhs_shifts rhs
  intro st
  have hpush : stackStep st (.token target.1.lexeme .ident) = some (true :: st) := by
    simp [stackStep]
  rw [ofRecord_ofKind target, show Instr.ofRecord eq.1 = .token eq.1.lexeme .assignOp by
    rw [Instr.ofRecord, Record.kind_of_is eq.2]]
  rw [List.cons_append, stackRun_cons, hpush, Option.bind_some, stackRun_append, hb,
    Option.bind_some]
  simp [stackRun_cons, stackStep, TokenKind.isConstant]

/-- Each identifier of an `input` or `print` list is pushed and popped at once. -/
theorem io_shifts (kw : IoWord) (xs : List Record) (hxs : ∀ x ∈ xs, x.kind = .ident) :
    Shifts (xs.flatMap fun x => [.ofRecord x, .ofRecord kw.1]) id := by
  obtain ⟨r, hk, hl⟩ := kw
  induction xs with
  | nil => exact fun _ => rfl
  | cons x xs ih =>
    intro st
    have hx := hxs x List.mem_cons_self
    have hpair : stackRun [.ofRecord x, .ofRecord r] st = some st := by
      simp [stackRun_cons, stackStep, Instr.ofRecord, TokenKind.isConstant, hx, hk, hl]
    rw [List.flatMap_cons, stackRun_append, hpair, Option.bind_some,
      ih (fun y hy => hxs y (List.mem_cons_of_mem x hy))]

/-- Assignments, `input` and `print`: the statements that keep the layout. -/
def Stmt.isSimple : Stmt → Bool
  | .assign .. | .io .. => true
  | _ => false

/-- Assignments, `input` and `print` statements leave the layout where they found it. -/
theorem simple_shifts : (st : Stmt) → st.isSimple = true → Shifts st.emit id
  | .assign target eq rhs _, _ => assign_shifts target eq rhs
  | .io kw _ names _ _, _ => io_shifts kw names.idents names.kind_of_mem_idents
  | .ifThen .., h => absurd h (by simp [Stmt.isSimple])
  | .doWhile .., h => absurd h (by simp [Stmt.isSimple])

/-- Code that pushes `extra`, then code that pushes `extra'`. -/
theorem Shifts.append_push {c c' : List Instr} {extra extra' : List Bool}
    (h : Shifts c (extra ++ ·)) (h' : Shifts c' (extra' ++ ·)) :
    Shifts (c ++ c') ((extra' ++ extra) ++ ·) := by
  intro st
  rw [h.append h' st, Function.comp_apply]
  simp only [List.append_assoc]

/-- A marker keeps the layout. -/
theorem shifts_marker (m : Marker) : Shifts [.marker m] ([] ++ ·) :=
  fun _ => rfl

mutual

/-- The code of a statement pushes some entries: none for the simple statements, the entries
its conditions leave for `if` and `do`. -/
theorem stmt_shifts : (st : Stmt) → ∃ extra, Shifts st.emit (extra ++ ·)
  | .assign target eq rhs _ => ⟨[], assign_shifts target eq rhs⟩
  | .io kw _ names _ _ => ⟨[], io_shifts kw names.idents names.kind_of_mem_idents⟩
  | .ifThen _ _ cond _ body => by
    obtain ⟨c, hc⟩ := cond_shifts cond
    obtain ⟨extra, hb⟩ := block_shifts body
    exact ⟨_, ((show Shifts cond.emit ([c] ++ ·) from hc).append_push hb).append_push
      (shifts_marker .ifEnd)⟩
  | .doWhile _ body _ _ cond _ => by
    obtain ⟨c, hc⟩ := cond_shifts cond
    obtain ⟨extra, hb⟩ := block_shifts body
    have h := (((shifts_marker .loopStart).append_push hb).append_push
      (show Shifts cond.emit ([c] ++ ·) from hc)).append_push (shifts_marker .loopEnd)
    exact ⟨c :: extra, by simpa [Stmt.emit] using h⟩

/-- A block pushes only the entries its conditions leave. -/
theorem block_shifts : (b : Block) → ∃ extra, Shifts b.emit (extra ++ ·)
  | .mk _ stmts _ => stmts_shifts stmts

/-- A statement list pushes only the entries its conditions leave. -/
theorem stmts_shifts : (ss : List Stmt) → ∃ extra, Shifts (Stmt.emitAll ss) (extra ++ ·)
  | [] => ⟨[], fun _ => rfl⟩
  | st :: ss => by
    obtain ⟨e, he⟩ := stmt_shifts st
    obtain ⟨e', he'⟩ := stmts_shifts ss
    exact ⟨_, he.append_push he'⟩

end

/-- The code of every program is well-formed stack code. -/
theorem program_stackCode (p : Program) : StackCode p.emit := by
  obtain ⟨extra, h⟩ := block_shifts p.body
  simp [StackCode, Program.emit, h []]

/-! ### Operators the machine computes with -/

/-- An operator's lexeme is one the machine computes with: `+ - * / ^` for arithmetic, the six
comparisons for a comparison. -/
def Instr.Supported : Instr → Prop
  | .token lexeme kind =>
    (kind = .addOp ∨ kind = .multOp ∨ kind = .powOp → lexeme ∈ ["+", "-", "*", "/", "^"]) ∧
      (kind = .relOp → lexeme ∈ [">=", "<=", ">", "<", "!=", "=="])
  | .marker _ => True

/-- Every reserved operator spelling is one the machine computes with. -/
theorem supported_of_reserved? {lexeme : String} {kind : TokenKind}
    (h : TokenKind.reserved? lexeme = some kind) : (Instr.token lexeme kind).Supported := by
  unfold TokenKind.reserved? at h
  split at h <;> cases h <;> simp [Instr.Supported]

/-- The instruction of a record whose kind is reserved for its spelling. -/
theorem ofRecord_supported {r : Record} (h : r.Reserved) : (Instr.ofRecord r).Supported := by
  cases hop : r.kind.isOperand with
  | false => rw [Instr.ofRecord]; exact supported_of_reserved? (h hop)
  | true =>
    -- an operand is no operator
    rw [Instr.ofRecord]
    constructor
    · intro hk
      exfalso
      rcases hk with hk | hk | hk <;> rw [hk] at hop <;> exact absurd hop (by decide)
    · intro hk
      exfalso
      rw [hk] at hop
      exact absurd hop (by decide)

/-- The zero of a leading minus is supported. -/
theorem zeroInstr_supported : zeroInstr.Supported := by
  simp [zeroInstr, Instr.Supported]

/-- The minus of a leading minus is supported. -/
theorem minusInstr_supported : minusInstr.Supported := by
  simp [minusInstr, Instr.Supported]

/-- Every marker is supported. -/
theorem marker_supported (m : Marker) : (Instr.marker m).Supported := trivial

/-- Every operator of an arithmetic derivation's code is supported when every record of its
yield has the kind reserved for its spelling. -/
theorem arith_supported {l : Level} (e : Arith l) (h : ∀ r ∈ e.yield, r.Reserved) :
    ∀ i ∈ e.emit, i.Supported := by
  induction e with
  | signed sign first ih =>
    cases sign with
    | none => exact ih h
    | some sign =>
      have hf := ih fun r hr => h r (by simp [Arith.yield, hr])
      by_cases hminus : sign.1.lexeme = "-"
      · simp only [Arith.emit, if_pos hminus, List.forall_mem_cons, List.forall_mem_append,
          List.not_mem_nil, false_implies, implies_true, and_true]
        exact ⟨⟨zeroInstr_supported, hf⟩, minusInstr_supported⟩
      · simpa [Arith.emit, hminus] using hf
  | add left op right ihl ihr | mul left op right ihl ihr | pow left op right ihl ihr =>
    simp only [Arith.emit, List.forall_mem_cons, List.forall_mem_append, List.not_mem_nil,
      false_implies, implies_true, and_true]
    exact ⟨⟨ihl fun r hr => h r (by simp [Arith.yield, hr]),
      ihr fun r hr => h r (by simp [Arith.yield, hr])⟩,
      ofRecord_supported (h op.1 (by simp [Arith.yield]))⟩
  | term first ih | chunk first ih => exact ih h
  | operand r =>
    simp only [Arith.emit, List.forall_mem_cons, List.not_mem_nil, false_implies, implies_true,
      and_true]
    exact ofRecord_supported (h r.1 (by simp [Arith.yield]))
  | paren lp inner rp ih => exact ih fun r hr => h r (by simp [Arith.yield, hr])

/-- Every instruction of a comparison's code is supported when its records have their reserved
kinds. -/
theorem comparison_supported (c : Comparison) (h : ∀ r ∈ c.yield, r.Reserved) :
    ∀ i ∈ c.emit, i.Supported := by
  simp only [Comparison.emit, List.forall_mem_cons, List.forall_mem_append, List.not_mem_nil,
    false_implies, implies_true, and_true]
  exact ⟨⟨arith_supported _ fun r hr => h r (by simp [Comparison.yield, hr]),
    arith_supported _ fun r hr => h r (by simp [Comparison.yield, hr])⟩,
    ofRecord_supported (h c.op.1 (by simp [Comparison.yield]))⟩

/-- Every instruction of a condition's code is supported when its records have their reserved
kinds. -/
theorem cond_supported (c : Cond) (h : ∀ r ∈ c.yield, r.Reserved) :
    ∀ i ∈ c.emit, i.Supported := by
  cases c with
  | lit r =>
    simp only [Cond.emit, List.forall_mem_cons, List.not_mem_nil, false_implies, implies_true,
      and_true]
    exact ofRecord_supported (h r.1 (by simp [Cond.yield]))
  | compare c => exact comparison_supported c h
  | paren lp c rp => exact comparison_supported c fun r hr => h r (by simp [Cond.yield, hr])

/-- Every instruction of a right side's code is supported when its records have their reserved
kinds. -/
theorem rhs_supported (e : Rhs) (h : ∀ r ∈ e.yield, r.Reserved) : ∀ i ∈ e.emit, i.Supported := by
  cases e with
  | cond c => exact cond_supported c h
  | arith e => exact arith_supported e h

/-- The identifiers of a name list are among its records. -/
theorem Names.mem_yield_of_mem_idents {ns : Names} {x : Record} (h : x ∈ ns.idents) :
    x ∈ ns.yield := by
  simp only [Names.idents, List.mem_cons, List.mem_map] at h
  rcases h with rfl | ⟨⟨c, y⟩, hmem, rfl⟩
  · exact List.mem_cons_self
  · exact List.mem_cons_of_mem _ (List.mem_flatMap.mpr ⟨(c, y), hmem, by simp⟩)

mutual

/-- Every instruction of a statement's code is supported when its records have their reserved
kinds. -/
theorem stmt_supported : (st : Stmt) → (∀ r ∈ st.yield, r.Reserved) → ∀ i ∈ st.emit, i.Supported
  | .assign target eq rhs semi, h => by
    simp only [Stmt.emit, List.forall_mem_cons, List.forall_mem_append, List.not_mem_nil,
      false_implies, implies_true, and_true]
    exact ⟨⟨ofRecord_supported (h target.1 (by simp [Stmt.yield])),
      rhs_supported rhs fun r hr => h r (by simp [Stmt.yield, hr])⟩,
      ofRecord_supported (h eq.1 (by simp [Stmt.yield]))⟩
  | .io kw lp names rp semi, h => by
    intro i hi
    obtain ⟨x, hx, hi⟩ := List.mem_flatMap.mp hi
    simp only [List.mem_cons, List.mem_nil_iff, or_false] at hi
    rcases hi with rfl | rfl
    · exact ofRecord_supported (h x (by simp [Stmt.yield, Names.mem_yield_of_mem_idents hx]))
    · exact ofRecord_supported (h kw.1 (by simp [Stmt.yield]))
  | .ifThen kw lp cond rp body, h => by
    simp only [Stmt.emit, List.forall_mem_cons, List.forall_mem_append, List.not_mem_nil,
      false_implies, implies_true, and_true]
    exact ⟨⟨cond_supported cond fun r hr => h r (by simp [Stmt.yield, hr]),
      block_supported body fun r hr => h r (by simp [Stmt.yield, hr])⟩, marker_supported _⟩
  | .doWhile kw body wkw lp cond rp, h => by
    simp only [Stmt.emit, List.forall_mem_cons, List.forall_mem_append, List.not_mem_nil,
      false_implies, implies_true, and_true]
    exact ⟨⟨⟨marker_supported _, block_supported body fun r hr => h r (by simp [Stmt.yield, hr])⟩,
      cond_supported cond fun r hr => h r (by simp [Stmt.yield, hr])⟩, marker_supported _⟩

/-- Every instruction of a block's code is supported when its records have their reserved kinds. -/
theorem block_supported : (b : Block) → (∀ r ∈ b.yield, r.Reserved) → ∀ i ∈ b.emit, i.Supported
  | .mk lb stmts rb, h => stmts_supported stmts fun r hr => h r (by simp [Block.yield, hr])

/-- Every instruction of a statement list's code is supported when its records have their reserved
kinds. -/
theorem stmts_supported : (ss : List Stmt) → (∀ r ∈ Stmt.yieldAll ss, r.Reserved) →
    ∀ i ∈ Stmt.emitAll ss, i.Supported
  | [], _ => fun _ h => nomatch h
  | st :: ss, h => by
    simp only [Stmt.emitAll, List.forall_mem_append]
    exact ⟨stmt_supported st fun r hr => h r (by simp [Stmt.yieldAll, hr]),
      stmts_supported ss fun r hr => h r (by simp [Stmt.yieldAll, hr])⟩

end

/-- Every operator of a program's code is supported when every record of its yield has the kind
reserved for its spelling. -/
theorem program_supported (p : Program) (h : ∀ r ∈ p.yield, r.Reserved) :
    ∀ i ∈ p.emit, i.Supported := by
  exact block_supported p.body fun r hr => h r (by simp [Program.yield, hr])

end RpnLang
