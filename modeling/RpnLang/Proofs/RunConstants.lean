import RpnLang.Proofs.ConstantKeys
import RpnLang.Proofs.RunSafety

/-!
# The constants along a run

The machine adds constants only by interning the results of its operators, under their texts:
arithmetic results, which are integers or finite doubles, and comparison results, which are
truth values. Every step, whether it succeeds or stops with an error, therefore extends the
constant table it found by finite computed values under their own texts (`Extending`).

Main statement, `run_constants_agree_with_keys`: after a successful translation, the tables of
the lexer and of the translation are faithful, and in every state a run reaches, on any input,
every constant holds the value its key stands for, as long as the texts of the computed doubles
read back; so looking up the text of any value that reads back gives that very value. The
first entry under a key never makes a computed value resolve to another value or type: no
double `3.0` through the key `3`, no integer through a literal key such as `007` or `1.5E3`.
The read-back of a double's shortest text is assumed per key, not proved.
-/

namespace RpnLang

section Extending

variable {σ α β : Type} {tables : σ → Tables}

/-- The state a step leaves, whether it succeeds or stops with an error. -/
def Step.after (x : Step σ α) (s : σ) : σ :=
  match x.run s with
  | .ok _ s' => s'
  | .error _ s' => s'

/-- A step whose every run, succeeding or not, leaves constants that extend those it found. -/
def Extending (tables : σ → Tables) (x : Step σ α) : Prop :=
  ∀ s, (tables s).Extends (tables (Step.after x s))

/-- A step followed by steps that all extend the constants extends them: an error stops where the
first step left. -/
theorem Extending.bind {x : Step σ α} {f : α → Step σ β} (hx : Extending tables x)
    (hf : ∀ a, Extending tables (f a)) : Extending tables (x >>= f) := by
  intro s
  have h1 := hx s
  unfold Step.after at h1 ⊢
  rw [EStateM.run_bind]
  cases hr : x.run s with
  | ok a s' =>
    rw [hr] at h1
    exact h1.trans (hf a s')
  | error e s' =>
    rw [hr] at h1
    exact h1

/-- A step that leaves the constants as they are. -/
theorem Extending.of_consts {x : Step σ α}
    (h : ∀ s, (tables (Step.after x s)).consts = (tables s).consts) : Extending tables x :=
  fun s => Tables.Extends.of_consts (h s)

/-- A step that first looks at the state. -/
theorem Extending.get_bind {f : σ → Step σ β}
    (hf : ∀ s, (tables s).Extends (tables (Step.after (f s) s))) :
    Extending tables (get >>= f) :=
  hf

/-- A step that first replaces the state by one with the same constants. -/
theorem Extending.set_bind {s' : σ} {f : PUnit → Step σ β} (hf : Extending tables (f ⟨⟩))
    (s : σ) (hs : (tables s').consts = (tables s).consts) :
    (tables s).Extends (tables (Step.after (set s' >>= f) s)) :=
  (Tables.Extends.of_consts hs).trans (hf s')

/-- Returning a value extends the constants trivially. -/
theorem extending_pure (a : α) : Extending tables (pure a : Step σ α) :=
  fun s => Tables.Extends.refl (tables s)

/-- Stopping with an error extends the constants trivially. -/
theorem extending_throw (e : RunError) : Extending tables (throw e : Step σ α) :=
  fun s => Tables.Extends.refl (tables s)

end Extending

/-! ### The world's steps -/

namespace World

/-- Reading the world keeps its constants. -/
theorem inspect_extending {α : Type} (f : World → Except RunError α) :
    Extending World.tables (inspect f) := by
  intro w
  have hw : Step.after (inspect f) w = w := by
    unfold Step.after inspect EStateM.run
    dsimp only
    cases f w <;> rfl
  rw [hw]
  exact Tables.Extends.refl _

/-- Storing a value leaves the constants as they are. -/
theorem store_extending (name : String) (v : Value) :
    Extending World.tables (modify fun w : World => { w with tables := w.tables.store name v }) :=
  Extending.of_consts fun _ => Tables.store_consts _ _ _

/-- Interning a finite value extends the constants by it. -/
theorem intern_extending {v : Value} (hv : v.Finite) : Extending World.tables (intern v) :=
  fun w => Tables.internValue_extends w.tables hv

/-- An operator whose results are finite interns a finite result, if any. -/
theorem apply_extending {compute : Value → Value → Except ArithError Value}
    (hc : ∀ l r v, compute l r = .ok v → v.Finite) (a b : Instr) :
    Extending World.tables (apply compute a b) := by
  unfold apply
  refine (inspect_extending _).bind fun l => (inspect_extending _).bind fun r => ?_
  split
  · rename_i v hv
    exact intern_extending (hc l r v hv)
  · exact extending_throw _

/-- Assigning a value keeps the constants: only an identifier entry changes. -/
theorem assign_extending (target source : Instr) :
    Extending World.tables (assign target source) := by
  unfold assign
  exact (inspect_extending _).bind fun _ => (inspect_extending _).bind fun v =>
    store_extending _ v

/-- Reading an input line keeps the constants, usable or not. -/
theorem input_extending (target : Instr) : Extending World.tables (input target) := by
  unfold input
  refine (inspect_extending _).bind fun ty => Extending.get_bind fun w => ?_
  rcases hr : readLine w.unread with ⟨line, rest⟩
  dsimp only
  -- the line is consumed first, which keeps the constants; only a usable line is stored
  refine Extending.set_bind ?_ w rfl
  cases line with
  | error f => exact extending_throw _
  | ok line =>
    dsimp only
    split
    · exact extending_throw _
    · split
      · exact extending_throw _
      · exact store_extending _ _

/-- Printing keeps the constants. -/
theorem print_extending (operand : Instr) : Extending World.tables (print operand) := by
  unfold print
  exact (inspect_extending _).bind fun _ => Extending.of_consts fun _ => rfl

end World

/-! ### The machine's steps -/

namespace Machine

/-- Arithmetic results are integers or finite doubles. -/
theorem calculate_finite {op : String} {l r v : Value} (h : calculate op l r = .ok v) :
    v.Finite := by
  unfold calculate at h
  split at h
  · cases h
  · cases h
  · split at h
    · cases h
    · split at h
      · -- two integers give an integer
        split at h
        · dsimp only at h
          split at h
          · cases h
            trivial
          · cases h
        · split at h
          · cases h
          · split at h
            · cases h
              trivial
            · cases h
      · -- a double result is checked to be finite
        split at h
        · cases h
        · split at h
          · cases h
            assumption
          · cases h

/-- Comparison results are truth values. -/
theorem compareAs_finite {op : String} {l r v : Value} (h : compareAs op l r = .ok v) :
    v.Finite := by
  unfold compareAs at h
  cases hc : compareValues op l r with
  | error e =>
    rw [hc] at h
    cases h
  | ok b =>
    rw [hc] at h
    cases h
    trivial

/-- A step of the world extends the machine's constants as it extends the world's. -/
theorem onWorld_extending {α : Type} {x : Step World α} (hx : Extending World.tables x) :
    Extending (·.tables) (onWorld x) := by
  intro m
  have h := hx m.toWorld
  unfold Step.after at h ⊢
  rw [run_onWorld]
  cases hr : x.run m.toWorld with
  | ok a w =>
    rw [hr] at h
    exact h
  | error e w =>
    rw [hr] at h
    exact h

/-- Pushing an operand keeps the constants. -/
theorem push_extending (i : Instr) : Extending (·.tables) (push i) :=
  Extending.of_consts fun _ => rfl

/-- Popping an operand keeps the constants. -/
theorem pop_extending (op : String) : Extending (·.tables) (pop op) := by
  refine Extending.of_consts fun m => ?_
  unfold Step.after pop
  simp only [EStateM.run_bind, EStateM.run_get]
  cases m.stack <;> rfl

/-- Popping two operands keeps the constants. -/
theorem popPair_extending (op : String) : Extending (·.tables) (popPair op) := by
  unfold popPair
  exact (pop_extending op).bind fun _ => (pop_extending op).bind fun _ => extending_pure _

/-- A binary operator whose results are finite extends the constants by its result under its
text. -/
theorem binary_extending {compute : Value → Value → Except ArithError Value}
    (hc : ∀ l r v, compute l r = .ok v → v.Finite) (op : String) :
    Extending (·.tables) (binary compute op) := by
  unfold binary
  refine (popPair_extending op).bind fun p => ?_
  obtain ⟨left, right⟩ := p
  exact (onWorld_extending (World.apply_extending hc left right)).bind push_extending

/-- A unary operator extends the constants as its action does. -/
theorem unary_extending {act : Instr → Step World Unit}
    (hact : ∀ i, Extending World.tables (act i)) (op : String) :
    Extending (·.tables) (unary op act) := by
  unfold unary
  exact (pop_extending op).bind fun i => onWorld_extending (hact i)

/-- An arithmetic operator extends the constants by a finite result under its text. -/
theorem arithmetic_extending (op : String) : Extending (·.tables) (arithmetic op) := by
  unfold arithmetic
  exact binary_extending (fun _ _ _ => calculate_finite) op

/-- A comparison extends the constants by a truth value under its text. -/
theorem compare_extending (op : String) : Extending (·.tables) (compare op) := by
  unfold compare
  exact binary_extending (fun _ _ _ => compareAs_finite) op

/-- The assignment instruction keeps the constants. -/
theorem assign_extending (op : String) : Extending (·.tables) (assign op) := by
  unfold assign
  refine (popPair_extending op).bind fun p => ?_
  obtain ⟨target, source⟩ := p
  exact onWorld_extending (World.assign_extending target source)

/-- Every instruction extends the constants by finite computed values. -/
theorem exec_extending (i : Instr) : Extending (·.tables) (exec i) := by
  cases i with
  | marker mark => exact extending_throw _
  | token lexeme kind =>
    rw [exec]
    split
    · exact push_extending _
    split
    · exact unary_extending World.input_extending "input"
    split
    · exact unary_extending World.print_extending "print"
    split
    · exact assign_extending lexeme
    split
    · exact arithmetic_extending lexeme
    split
    · exact compare_extending lexeme
    · exact extending_throw _

/-- A run, to its end or to the first error, extends the constants by finite computed values.
The induction is on the code, one instruction after the other. -/
theorem run_extending (code : List Instr) : Extending (·.tables) (run code) := by
  induction code with
  | nil => exact extending_pure ()
  | cons i code ih =>
    rw [run_cons]
    exact (exec_extending i).bind fun _ => ih

end Machine

/-- After a successful translation, the tables of the lexer and of the translation are faithful,
and every state a run of the code reaches on any input, after any number of its instructions,
holds only those constants and computed values under their texts, doubles among them finite.
Whenever the texts of the doubles that are keys read back, every constant there holds the value
its key stands for, and looking up the text of any value that reads back gives that value. -/
theorem run_constants_agree_with_keys {lines : List String} {tr : Translation}
    (h : (translate lines).2 = .ok tr) (input : List UInt8) (n : Nat) :
    (∀ lexed, lex lines = .ok lexed → lexed.tables.Faithful) ∧ tr.tables.Faithful ∧
      let t := (Step.after (Machine.run (tr.code.toList.take n))
        { tables := tr.tables, unread := input }).tables
      tr.tables.Extends t ∧ (t.FloatKeysReadBack → t.Faithful ∧
        ∀ v : Value, v.TextReadsBack → t.HasConst v.text →
          (t.const? v.text).map (·.value) = some v) := by
  obtain ⟨lexed, hlex, hparse⟩ := translate_ok h
  have htr : tr.tables.Faithful := parse_faithful hparse (lex_faithful hlex)
  -- every state the run reaches holds the translation's constants and computed values
  have hext :=
    Machine.run_extending (tr.code.toList.take n) { tables := tr.tables, unread := input }
  refine ⟨fun _ h' => lex_faithful h', htr, hext, fun hr => ?_⟩
  have hf := hext.faithful htr hr
  exact ⟨hf, fun v hv hk => hf.const?_text hv hk⟩

/-- The doubling program, run to its end on the input line `3`. -/
theorem run_constants_agree_with_keys_double :
    (translate doubleProgramLines).2 = .ok doubleProgramTranslation ∧
      (∀ lexed, lex doubleProgramLines = .ok lexed → lexed.tables.Faithful) ∧
      doubleProgramTranslation.tables.Faithful ∧
      let t := (Step.after (Machine.run (doubleProgramTranslation.code.toList.take 11))
        { tables := doubleProgramTranslation.tables, unread := [51, 10] }).tables
      doubleProgramTranslation.tables.Extends t ∧ (t.FloatKeysReadBack → t.Faithful ∧
        ∀ v : Value, v.TextReadsBack → t.HasConst v.text →
          (t.const? v.text).map (·.value) = some v) := by
  have h : (translate doubleProgramLines).2 = .ok doubleProgramTranslation := by
    with_unfolding_all rfl
  exact ⟨h, run_constants_agree_with_keys h [51, 10] 11⟩

end RpnLang
