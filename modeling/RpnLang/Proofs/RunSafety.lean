import RpnLang.Proofs.Simulation
import RpnLang.Proofs.StackCode

/-!
# What translated code cannot fail with

Four errors of the machine can only come from code of the wrong shape: an operator finding too
few operands, a literal missing from the constant table, an assignment or input whose target is
not an identifier, and an operator the machine does not compute with. Code that passes the stack
check, whose literals are keys of the tables it starts with and whose operators are supported,
never stops with any of them, whatever the input.

The invariant of a run ties the machine's operand stack to the checker's layout, entry by
entry: where the layout says identifier the machine holds an identifier, and every entry can be
resolved without looking for a missing constant, because it is an identifier, a literal of the
code, or a computed value that was interned when it was pushed. The constant table only grows,
so what could be resolved stays so. One lemma says what each instruction keeps; the run follows
by induction on the code.
-/

namespace RpnLang

/-- The errors that the shape of translated code rules out. -/
def RunError.Excluded : RunError → Prop
  | .stackUnderflow _ | .unknownConstant _ | .notAssignable _ | .arith (.unsupported _) => True
  | _ => False

/-- An operand that resolves without a missing constant: an identifier, or an instruction whose
lexeme is a key of the constant table. -/
def Resolvable (t : Tables) (i : Instr) : Prop :=
  (∃ name, i = .token name .ident) ∨ t.HasConst i.lexeme

/-- An instruction stays resolvable when the constant keys grow. -/
theorem Resolvable.mono {t t' : Tables} {i : Instr} (h : t.KeysWithin t') :
    Resolvable t i → Resolvable t' i
  | .inl hi => .inl hi
  | .inr hk => .inr (h _ hk)

/-- A stack entry as its layout entry promises: an identifier where the layout says so, and
resolvable in any case. -/
def EntryOk (t : Tables) (b : Bool) (i : Instr) : Prop :=
  (b = true → ∃ name, i = .token name .ident) ∧ Resolvable t i

/-- The operand stack matches the layout entry by entry, top first. -/
def Matches (t : Tables) : List Bool → List Instr → Prop
  | [], [] => True
  | b :: layout, i :: stack => EntryOk t b i ∧ Matches t layout stack
  | _, _ => False

/-- A stack keeps matching its layout when the constant keys grow. -/
theorem Matches.mono {t t' : Tables} (h : t.KeysWithin t') :
    ∀ {layout : List Bool} {stack : List Instr}, Matches t layout stack → Matches t' layout stack
  | [], [], _ => trivial
  | _ :: _, _ :: _, ⟨he, hm⟩ => ⟨⟨he.1, he.2.mono h⟩, Matches.mono h hm⟩

/-- An arithmetic or comparison error is excluded exactly when it is an unsupported operator. -/
theorem RunError.excluded_arith {e : ArithError} :
    (RunError.arith e).Excluded ↔ ∃ op, e = .unsupported op := by
  cases e <;> simp [RunError.Excluded]

/-! ### Operators the machine computes with -/

/-- The four integer operators always have a result on integers. -/
theorem intResult?_ne_none {op : String} (h : op ∈ ["+", "-", "*", "/"]) (a b : Int) :
    intResult? op a b ≠ none := by
  simp only [List.mem_cons, List.not_mem_nil, or_false] at h
  rcases h with rfl | rfl | rfl | rfl <;> simp [intResult?]

/-- The five double operators always have a result on doubles. -/
theorem floatResult?_ne_none {op : String} (h : op ∈ ["+", "-", "*", "/", "^"]) (a b : Float) :
    floatResult? op a b ≠ none := by
  simp only [List.mem_cons, List.not_mem_nil, or_false] at h
  rcases h with rfl | rfl | rfl | rfl | rfl <;> simp [floatResult?]

/-- The five arithmetic operators are never unsupported, whatever their operands. -/
theorem calculate_supported {op : String} (h : op ∈ ["+", "-", "*", "/", "^"]) (l r : Value)
    (x : String) : calculate op l r ≠ .error (.unsupported x) := by
  intro he
  unfold calculate at he
  split at he
  · cases he
  · cases he
  · split at he
    · cases he
    · split at he
      · -- two integers: `^` goes through doubles, the others through exact integers
        split at he
        · dsimp only at he
          split at he <;> cases he
        · rename_i hpow
          have hop : op ∈ ["+", "-", "*", "/"] := by
            simp only [List.mem_cons, List.not_mem_nil, or_false] at h ⊢
            rcases h with h | h | h | h | h <;> simp_all
          split at he
          · rename_i hnone
            exact intResult?_ne_none hop _ _ hnone
          · split at he <;> cases he
      · split at he
        · rename_i hnone
          exact floatResult?_ne_none h _ _ hnone
        · split at he <;> cases he

/-- The six comparisons are never unsupported, whatever their operands. -/
theorem compareAs_supported {op : String} (h : op ∈ [">=", "<=", ">", "<", "!=", "=="])
    (l r : Value) (x : String) : compareAs op l r ≠ .error (.unsupported x) := by
  intro he
  unfold compareAs compareValues at he
  split at he
  · cases he
  · simp only [List.mem_cons, List.not_mem_nil, or_false] at h
    rcases h with rfl | rfl | rfl | rfl | rfl | rfl <;> cases he

/-! ### Steps that keep the constant table -/

section Tame

variable {σ α β : Type}

/-- A step that never stops with an excluded error and keeps every key of the constant table,
as `tables` reads it off the state; when it succeeds, `Q` holds of its answer and the state it
leaves. -/
def Tame (tables : σ → Tables) (x : Step σ α) (Q : α → σ → Prop) (s : σ) : Prop :=
  match x.run s with
  | .ok a s' => (tables s).KeysWithin (tables s') ∧ Q a s'
  | .error e _ => ¬ e.Excluded

variable {tables : σ → Tables}

/-- A tame step followed by steps that are tame from every state it can leave is tame. -/
theorem Tame.bind {x : Step σ α} {f : α → Step σ β} {Q : α → σ → Prop} {R : β → σ → Prop}
    {s : σ} (hx : Tame tables x Q s)
    (hf : ∀ a s', (tables s).KeysWithin (tables s') → Q a s' → Tame tables (f a) R s') :
    Tame tables (x >>= f) R s := by
  unfold Tame at hx ⊢
  rw [EStateM.run_bind]
  cases hr : x.run s with
  | ok a s' =>
    simp only [hr] at hx ⊢
    have hfa := hf a s' hx.1 hx.2
    unfold Tame at hfa
    cases hb : (f a).run s' with
    | ok b s'' =>
      simp only [hb] at hfa ⊢
      exact ⟨hx.1.trans hfa.1, hfa.2⟩
    | error e s'' =>
      simp only [hb] at hfa ⊢
      exact hfa
  | error e s' =>
    simp only [hr] at hx ⊢
    exact hx

/-- A tame step stays tame under a weaker postcondition. -/
theorem Tame.imp {x : Step σ α} {Q R : α → σ → Prop} {s : σ} (hx : Tame tables x Q s)
    (h : ∀ a s', (tables s).KeysWithin (tables s') → Q a s' → R a s') : Tame tables x R s := by
  unfold Tame at hx ⊢
  cases hr : x.run s with
  | ok a s' =>
    rw [hr] at hx
    exact ⟨hx.1, h a s' hx.1 hx.2⟩
  | error e s' =>
    rw [hr] at hx
    exact hx

/-- Returning a value that satisfies the postcondition is tame. -/
theorem tame_pure {a : α} {Q : α → σ → Prop} {s : σ} (h : Q a s) :
    Tame tables (pure a) Q s :=
  ⟨Tables.KeysWithin.refl _, h⟩

/-- Failing with an error that is not excluded. -/
theorem tame_throw {e : RunError} {Q : α → σ → Prop} {s : σ} (he : ¬ e.Excluded) :
    Tame tables (throw e) Q s :=
  he

end Tame

/-! ### The world's steps -/

section World

variable {α : Type}

/-- A look at the world with an answer or an error that is not excluded. -/
theorem tame_inspect {f : World → Except RunError α} {w : World}
    (h : ∀ e, f w = .error e → ¬ e.Excluded) :
    Tame World.tables (World.inspect f) (fun _ w' => w' = w) w := by
  unfold Tame World.inspect EStateM.run
  cases hf : f w with
  | ok a =>
    simp only [hf]
    exact ⟨Tables.KeysWithin.refl _, trivial⟩
  | error e =>
    simp only [hf]
    exact h e hf

/-- A resolvable operand resolves or fails for an undeclared or uninitialised identifier. -/
theorem tame_resolve {i : Instr} {w : World} (h : Resolvable w.tables i) :
    Tame World.tables (World.resolve i) (fun _ w' => w' = w) w := by
  refine tame_inspect fun e he => ?_
  unfold World.valueOf at he
  rcases h with ⟨name, rfl⟩ | hk
  · -- an identifier is never looked up among the constants
    dsimp only at he
    split at he <;> (try split at he) <;> cases he <;> simp [RunError.Excluded]
  · split at he
    · split at he <;> (try split at he) <;> cases he <;> simp [RunError.Excluded]
    · split at he
      · cases he
      · rename_i hc
        obtain ⟨c, hc'⟩ := Option.isSome_iff_exists.mp hk
        rw [hc'] at hc
        cases hc

/-- The declared type of an identifier is found or it is undeclared. -/
theorem tame_declared {name : String} {w : World} :
    Tame World.tables (World.declared (.token name .ident)) (fun _ w' => w' = w) w := by
  refine tame_inspect fun e he => ?_
  unfold World.typeOf at he
  dsimp only at he
  split at he
  · cases he
  · cases he
    simp [RunError.Excluded]

/-- Storing a value keeps the constant table. -/
theorem tame_store {name : String} {v : Value} {w : World} {Q : Unit → World → Prop}
    (hq : Q () { w with tables := w.tables.store name v }) :
    Tame World.tables (modify fun w : World => { w with tables := w.tables.store name v }) Q w :=
  ⟨Tables.KeysWithin.of_consts (by simp), hq⟩

/-- An operator that is never unsupported, on resolvable operands, answers with a resolvable
reference to the interned result. -/
theorem tame_apply {compute : Value → Value → Except ArithError Value} {a b : Instr} {w : World}
    (hc : ∀ l r x, compute l r ≠ .error (.unsupported x))
    (ha : Resolvable w.tables a) (hb : Resolvable w.tables b) :
    Tame World.tables (World.apply compute a b) (fun r w' => Resolvable w'.tables r) w := by
  unfold World.apply
  refine (tame_resolve ha).bind fun l w1 _ hw1 => ?_
  subst w1
  refine (tame_resolve hb).bind fun r w2 _ hw2 => ?_
  subst w2
  split
  · -- the result is interned under its text, which the reference names
    rename_i v _
    have hkeys := Tables.internValue_keys w.tables v
    exact ⟨hkeys.1, .inr hkeys.2⟩
  · rename_i e he
    refine tame_throw fun hx => ?_
    obtain ⟨x, rfl⟩ := RunError.excluded_arith.mp hx
    exact hc l r x he

/-- `=` with an identifier target and a resolvable source. -/
theorem tame_assign {name : String} {s : Instr} {w : World} (hs : Resolvable w.tables s) :
    Tame World.tables (World.assign (.token name .ident) s) (fun _ _ => True) w := by
  unfold World.assign
  refine tame_declared.bind fun _ w1 _ hw1 => ?_
  subst w1
  refine (tame_resolve hs).bind fun v w2 _ hw2 => ?_
  subst w2
  exact tame_store trivial

/-- `input` for an identifier fails only for want of a usable line. -/
theorem tame_input {name : String} {w : World} :
    Tame World.tables (World.input (.token name .ident)) (fun _ _ => True) w := by
  unfold World.input
  refine tame_declared.bind fun ty w1 _ hw1 => ?_
  subst w1
  unfold Tame
  simp only [EStateM.run_bind, EStateM.run_get, EStateM.run_set]
  -- the line is consumed before it is looked at; every way it can be unusable is its own error
  cases (readLine w.unread).1 with
  | error f => simp [RunError.Excluded]
  | ok line =>
    dsimp only
    cases (Text.trimBlank line).isEmpty with
    | true => simp [RunError.Excluded]
    | false =>
      cases Value.read? ty (Text.trimBlank line) with
      | none => simp [RunError.Excluded]
      | some v =>
        simp only [Bool.false_eq_true, if_false]
        rw [EStateM.run_modify]
        exact ⟨Tables.KeysWithin.of_consts (by simp), trivial⟩

/-- `print` of an identifier. -/
theorem tame_print {name : String} {w : World} :
    Tame World.tables (World.print (.token name .ident)) (fun _ _ => True) w := by
  unfold World.print
  refine (tame_resolve (.inl ⟨name, rfl⟩)).bind fun v w1 _ hw1 => ?_
  subst w1
  exact ⟨Tables.KeysWithin.refl _, trivial⟩

end World

/-! ### The machine's steps -/

/-- A stack that matches a nonempty layout has an entry on top that matches its first entry. -/
theorem Matches.cons_inv {t : Tables} {b : Bool} {layout : List Bool} :
    ∀ {stack : List Instr}, Matches t (b :: layout) stack →
      ∃ i rest, stack = i :: rest ∧ EntryOk t b i ∧ Matches t layout rest
  | i :: rest, ⟨he, hm⟩ => ⟨i, rest, rfl, he, hm⟩

namespace Machine

variable {α : Type}

/-- A step of the world on the machine keeps the stack. -/
theorem tame_onWorld {x : Step World α} {Q : α → World → Prop} {m : Machine}
    (h : Tame World.tables x Q m.toWorld) :
    Tame (·.tables) (onWorld x) (fun a m' => Q a m'.toWorld ∧ m'.stack = m.stack) m := by
  unfold Tame at h ⊢
  rw [run_onWorld]
  cases hx : x.run m.toWorld with
  | ok a w =>
    rw [hx] at h
    exact ⟨h.1, h.2, rfl⟩
  | error e w =>
    rw [hx] at h
    exact h

/-- A tame step of the world keeps a matched stack matched: the tables only gain keys. -/
theorem tame_onWorld_matches {x : Step World α} {layout : List Bool} {m : Machine}
    (h : Tame World.tables x (fun _ _ => True) m.toWorld) (hm : Matches m.tables layout m.stack) :
    Tame (·.tables) (onWorld x) (fun _ m' => Matches m'.tables layout m'.stack) m :=
  (tame_onWorld h).imp fun _ _ hk hx => hx.2 ▸ hm.mono hk

/-- A push of an entry that its layout entry allows. -/
theorem tame_push {b : Bool} {i : Instr} {layout : List Bool} {m : Machine}
    (hi : EntryOk m.tables b i) (hm : Matches m.tables layout m.stack) :
    Tame (·.tables) (push i) (fun _ m' => Matches m'.tables (b :: layout) m'.stack) m :=
  ⟨Tables.KeysWithin.refl _, hi, hm⟩

/-- Two matched entries are popped, the right one first. -/
theorem tame_popPair (op : String) {b b' : Bool} {layout : List Bool} {m : Machine}
    (hm : Matches m.tables (b :: b' :: layout) m.stack) :
    ∃ l r rest, EntryOk m.tables b' l ∧ EntryOk m.tables b r ∧ Matches m.tables layout rest ∧
      Tame (·.tables) (popPair op)
        (fun p m' => p = (l, r) ∧ m' = { m with stack := rest }) m := by
  obtain ⟨r, stack, hstack, hr, hm⟩ := Matches.cons_inv hm
  obtain ⟨l, rest, hstack', hl, hm⟩ := Matches.cons_inv hm
  refine ⟨l, r, rest, hl, hr, hm, ?_⟩
  unfold Tame popPair pop
  simp only [EStateM.run_bind, EStateM.run_get, hstack, EStateM.run_set, EStateM.run_pure,
    hstack']
  exact ⟨Tables.KeysWithin.refl _, trivial, trivial⟩

/-- The top entry is popped. -/
theorem tame_pop (op : String) {b : Bool} {layout : List Bool} {m : Machine}
    (hm : Matches m.tables (b :: layout) m.stack) :
    ∃ i rest, EntryOk m.tables b i ∧ Matches m.tables layout rest ∧
      Tame (·.tables) (pop op) (fun j m' => j = i ∧ m' = { m with stack := rest }) m := by
  obtain ⟨i, rest, hstack, hi, hm⟩ := Matches.cons_inv hm
  refine ⟨i, rest, hi, hm, ?_⟩
  unfold Tame pop
  simp only [EStateM.run_bind, EStateM.run_get, hstack, EStateM.run_set, EStateM.run_pure]
  exact ⟨Tables.KeysWithin.refl _, trivial, trivial⟩

/-- A binary operator that is never unsupported replaces its two operands by a resolvable
computed one. -/
theorem tame_binary {compute : Value → Value → Except ArithError Value} {op : String}
    (hc : ∀ l r x, compute l r ≠ .error (.unsupported x)) {b b' : Bool} {layout : List Bool}
    {m : Machine} (hm : Matches m.tables (b :: b' :: layout) m.stack) :
    Tame (·.tables) (binary compute op)
      (fun _ m' => Matches m'.tables (false :: layout) m'.stack) m := by
  obtain ⟨l, r, rest, hl, hr, hrest, hpop⟩ := tame_popPair op hm
  unfold binary
  refine hpop.bind fun p m1 _ hpm => ?_
  obtain ⟨hp, hm1⟩ := hpm
  subst hp hm1
  dsimp only
  have hl' : Resolvable ({ m with stack := rest } : Machine).tables l := hl.2
  refine (tame_onWorld (tame_apply hc hl' hr.2)).bind fun v m2 hk hvm => ?_
  obtain ⟨hv, hstack⟩ := hvm
  -- the result is a computed value, so its layout entry says it is no identifier
  refine tame_push ⟨fun h => absurd h Bool.false_ne_true, hv⟩ ?_
  rw [hstack]
  exact hrest.mono hk

/-- `=` on a matched stack whose entry under the top is an identifier. -/
theorem tame_assignTop {op : String} {b : Bool} {layout : List Bool} {m : Machine}
    (hm : Matches m.tables (b :: true :: layout) m.stack) :
    Tame (·.tables) (assign op) (fun _ m' => Matches m'.tables layout m'.stack) m := by
  obtain ⟨t, s, rest, ht, hs, hrest, hpop⟩ := tame_popPair op hm
  obtain ⟨name, rfl⟩ := ht.1 rfl
  unfold assign
  refine hpop.bind fun p m1 _ hpm => ?_
  obtain ⟨hp, hm1⟩ := hpm
  subst hp hm1
  exact tame_onWorld_matches (tame_assign hs.2) hrest

/-- A keyword on a matched stack whose top is an identifier, when its action on any identifier
is tame. -/
theorem tame_unary {op : String} {act : Instr → Step World Unit}
    (hact : ∀ name w, Tame World.tables (act (.token name .ident)) (fun _ _ => True) w)
    {layout : List Bool} {m : Machine} (hm : Matches m.tables (true :: layout) m.stack) :
    Tame (·.tables) (unary op act) (fun _ m' => Matches m'.tables layout m'.stack) m := by
  obtain ⟨i, rest, hi, hrest, hpop⟩ := tame_pop op hm
  obtain ⟨name, rfl⟩ := hi.1 rfl
  unfold unary
  refine hpop.bind fun j m1 _ hjm => ?_
  obtain ⟨hj, hm1⟩ := hjm
  subst hj hm1
  exact tame_onWorld_matches (hact name _) hrest

/-- One instruction that passes the layout check, on a stack that matches the layout, keeps
the stack matched to the layout the check gives, or stops with an error that is not
excluded. -/
theorem exec_tame {i : Instr} {layout layout' : List Bool} {m : Machine}
    (hstep : stackStep layout i = some layout') (hm : Matches m.tables layout m.stack)
    (hlit : i.IsLiteral → m.tables.HasConst i.lexeme) (hsup : i.Supported) :
    Tame (·.tables) (exec i) (fun _ m' => Matches m'.tables layout' m'.stack) m := by
  cases i with
  | marker mark => exact tame_throw (by simp [RunError.Excluded])
  | token lexeme kind =>
    cases kind with
    | ident =>
      simp only [stackStep, if_true, Option.some.injEq] at hstep
      subst hstep
      exact tame_push ⟨fun _ => ⟨lexeme, rfl⟩, .inl ⟨lexeme, rfl⟩⟩ hm
    | int | float | exp | boolval =>
      simp [stackStep, TokenKind.isConstant] at hstep
      subst hstep
      exact tame_push ⟨fun h => absurd h Bool.false_ne_true, .inr (hlit rfl)⟩ hm
    | assignOp =>
      rcases layout with _ | ⟨b, _ | ⟨_ | _, rest⟩⟩ <;>
        simp [stackStep, TokenKind.isConstant] at hstep
      subst hstep
      exact tame_assignTop hm
    | keyword =>
      by_cases hin : lexeme = "input"
      · subst hin
        rcases layout with _ | ⟨_ | _, rest⟩ <;> simp [stackStep, TokenKind.isConstant] at hstep
        subst hstep
        rw [exec_input]
        exact tame_unary (fun _ _ => tame_input) hm
      · by_cases hpr : lexeme = "print"
        · subst hpr
          rcases layout with _ | ⟨_ | _, rest⟩ <;> simp [stackStep, TokenKind.isConstant] at hstep
          subst hstep
          rw [exec_print]
          exact tame_unary (fun _ _ => tame_print) hm
        · simp [stackStep, TokenKind.isConstant, hin, hpr] at hstep
    | addOp | multOp | powOp =>
      rcases layout with _ | ⟨b, _ | ⟨b', rest⟩⟩ <;> simp [stackStep, TokenKind.isConstant] at hstep
      subst hstep
      exact tame_binary (calculate_supported (hsup.1 (by simp))) hm
    | relOp =>
      rcases layout with _ | ⟨b, _ | ⟨b', rest⟩⟩ <;> simp [stackStep, TokenKind.isConstant] at hstep
      subst hstep
      exact tame_binary (compareAs_supported (hsup.2 rfl)) hm
    | parOp | punct => simp [stackStep, TokenKind.isConstant] at hstep

/-- From a layout that the code passes the check on and a stack that matches it, with every
literal of the code a key of tables that the machine's contain, the run never stops with an
excluded error. The induction is on the code; the matched stack and the keys are carried from
one instruction to the next. -/
theorem run_tame {base : Tables} {code : List Instr}
    (hlit : ∀ i ∈ code, i.IsLiteral → base.HasConst i.lexeme) (hsup : ∀ i ∈ code, i.Supported) :
    ∀ {layout : List Bool} {m : Machine}, (stackRun code layout).isSome = true →
      base.KeysWithin m.tables → Matches m.tables layout m.stack →
      Tame (·.tables) (Machine.run code) (fun _ _ => True) m := by
  induction code with
  | nil => exact fun _ _ _ => tame_pure trivial
  | cons i code ih =>
    intro layout m hrun hbase hm
    obtain ⟨layout', hstep, hrest⟩ := stackRun_cons_isSome hrun
    have hi : i.IsLiteral → m.tables.HasConst i.lexeme :=
      fun hl => hbase _ (hlit i List.mem_cons_self hl)
    rw [run_cons]
    refine (exec_tame hstep hm hi (hsup i List.mem_cons_self)).bind fun _ m' hk hm' => ?_
    exact ih (fun j hj => hlit j (List.mem_cons_of_mem _ hj))
      (fun j hj => hsup j (List.mem_cons_of_mem _ hj)) hrest (hbase.trans hk) hm'

end Machine

/-- The code of every accepted source is well-formed stack code: from the empty stack every
operator finds its operands, the target of every `=`, `input` and `print` is an identifier,
every literal is a key of the translation's constant table and every operator one the machine
computes with, and every assignment, `input` and `print` statement leaves the layout where it
found it. Hence running it, on any input, never stops with a stack underflow, a missing
constant, a target that is no identifier or an unsupported operator. -/
theorem translation_stack_safe {lines : List String} {tr : Translation}
    (h : (translate lines).2 = .ok tr) :
    StackCode tr.code.toList ∧
      (∀ i ∈ tr.code.toList, i.IsLiteral → tr.tables.HasConst i.lexeme) ∧
      (∀ i ∈ tr.code.toList, i.Supported) ∧
      (∀ st : Stmt, st.isSimple = true → Shifts st.emit id) ∧
      ∀ (input : List UInt8) (e : RunError) (m : Machine),
        (Machine.run tr.code.toList).run { tables := tr.tables, unread := input } = .error e m →
          ¬ e.Excluded := by
  obtain ⟨lexed, hlex, hparse⟩ := translate_ok h
  have hlexed := lex_lexed hlex
  obtain ⟨p, hyield, hemit⟩ := parse_derivation hparse
  have hstack : StackCode tr.code.toList := hemit ▸ program_stackCode p
  have hlit : ∀ i ∈ tr.code.toList, i.IsLiteral → tr.tables.HasConst i.lexeme :=
    parse_literals_known hparse fun r hr hc => (hlexed r (Array.mem_toList_iff.mp hr)).1 hc
  -- the lexer gives every reserved spelling its kind, so the derivation's operators are supported
  have hsup : ∀ i ∈ tr.code.toList, i.Supported := by
    rw [hemit]
    refine program_supported p fun r hr => (hlexed r ?_).2
    rw [hyield] at hr
    exact Array.mem_toList_iff.mp hr
  refine ⟨hstack, hlit, hsup, simple_shifts, fun input e m he => ?_⟩
  -- the run starts on the empty stack, which matches the empty layout
  let start : Machine := { tables := tr.tables, unread := input }
  have hstart : Matches start.tables [] start.stack := trivial
  have hrun := Machine.run_tame hlit hsup hstack (Tables.KeysWithin.refl tr.tables) hstart
  unfold Tame at hrun
  rw [he] at hrun
  exact hrun

/-- `program p { int x; { input(x); x = x + 2 * x; print(x); } }`. -/
def doubleProgramLines : List String :=
  ["program p \x7b", "int x;", "\x7b", "input(x);", "x = x + 2 * x;", "print(x);", "\x7d",
    "\x7d"]

/-- Its translation: the code `x input x x 2 x * + = x print`, with `x` declared `int` and `2`
interned. -/
def doubleProgramTranslation : Translation :=
  ⟨#[.token "x" .ident, .token "input" .keyword, .token "x" .ident, .token "x" .ident,
    .token "2" .int, .token "x" .ident, .token "*" .multOp, .token "+" .addOp,
    .token "=" .assignOp, .token "x" .ident, .token "print" .keyword],
    ⟨#[⟨"p", 1, none, none⟩, ⟨"x", 2, some .int, none⟩], #[⟨"2", 1, .int 2⟩]⟩⟩

/-- The program that reads `x` and stores `x + 2 * x`: its code passes the stack check, every
operator is supported, and every error of a run is an allowed one. -/
theorem translation_stack_safe_double :
    (translate doubleProgramLines).2 = .ok doubleProgramTranslation ∧
      StackCode doubleProgramTranslation.code.toList ∧
      (∀ i ∈ doubleProgramTranslation.code.toList, i.IsLiteral →
        doubleProgramTranslation.tables.HasConst i.lexeme) ∧
      (∀ i ∈ doubleProgramTranslation.code.toList, i.Supported) ∧
      (∀ st : Stmt, st.isSimple = true → Shifts st.emit id) ∧
      ∀ (input : List UInt8) (e : RunError) (m : Machine),
        (Machine.run doubleProgramTranslation.code.toList).run
            { tables := doubleProgramTranslation.tables, unread := input } = .error e m →
          ¬ e.Excluded := by
  have h : (translate doubleProgramLines).2 = .ok doubleProgramTranslation := by
    with_unfolding_all rfl
  exact ⟨h, translation_stack_safe h⟩

end RpnLang
