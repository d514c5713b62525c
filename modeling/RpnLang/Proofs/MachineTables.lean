import RpnLang.Proofs.TableFrames
import RpnLang.Proofs.RunConstants

/-!
# The tables along a run

The machine changes the tables in two ways only: it stores values in identifiers, and only in
one whose declared type it has just looked up, and it interns computed values, which appends a
constant under a new key or keeps the table. So every step, whether it succeeds or stops with an
error, keeps every identifier's name and declared type, changes only the values of declared
identifiers, and keeps every constant at its place with its key and value (`Tables.Stores`).
A failed `input` that already consumed its line changes no table.

Main statement, `tables_append_only`: across the lexer, the parser and the machine, both tables
are append-only ordered maps with unique keys, in which every identifier and literal record
indexes the entry of its lexeme. The lexer only appends; the parser only declares identifiers
that the lexer registered, and appends at most the zero, whether it succeeds or not; the
machine only stores values in declared identifiers and appends computed constants.
-/

namespace RpnLang

namespace IdentEntry

/-- `e'` is `e`, with another value only if `e` has a declared type; the name and the type
stay. -/
def Stored (e e' : IdentEntry) : Prop :=
  e'.name = e.name ∧ e'.ty = e.ty ∧ (e'.value = e.value ∨ e.ty.isSome = true)

theorem Stored.refl (e : IdentEntry) : e.Stored e :=
  ⟨rfl, rfl, .inl rfl⟩

/-- Stored forms compose: a value stored after another still needs the declared type, which
stays. -/
theorem Stored.trans {e e' e'' : IdentEntry} (h : e.Stored e') (h' : e'.Stored e'') :
    e.Stored e'' := by
  obtain ⟨hn, ht, hv⟩ := h
  obtain ⟨hn', ht', hv'⟩ := h'
  refine ⟨hn'.trans hn, ht'.trans ht, ?_⟩
  rcases hv with hv | hv
  · rcases hv' with hv' | hv'
    · exact .inl (hv'.trans hv)
    · exact .inr (ht ▸ hv')
  · exact .inr hv

end IdentEntry

namespace Tables

/-- `t'` is `t` with values stored in declared identifiers and constants appended under new
keys. -/
structure Stores (t t' : Tables) : Prop where
  /-- Entry by entry, the identifiers keep their names and types. -/
  idents : List.Forall₂ IdentEntry.Stored t.idents.toList t'.idents.toList
  /-- The constants of `t` begin those of `t'`. -/
  consts : t.consts.toList <+: t'.consts.toList
  /-- Keys stay unique. -/
  keyed : t.Keyed → t'.Keyed

theorem Stores.refl (t : Tables) : t.Stores t :=
  ⟨List.forall₂_same.mpr fun e _ => IdentEntry.Stored.refl e, List.prefix_refl _, id⟩

theorem Stores.trans {t t' t'' : Tables} (h : t.Stores t') (h' : t'.Stores t'') : t.Stores t'' :=
  ⟨forall₂_trans (P := IdentEntry.Stored) IdentEntry.Stored.trans h.idents h'.idents,
    h.consts.trans h'.consts, h'.keyed ∘ h.keyed⟩

/-- Storing keeps the identifier names, in order. -/
theorem Stores.names_eq {t t' : Tables} (h : t.Stores t') : t'.names = t.names :=
  map_eq_of_forall₂ (fun hs => hs.1) h.idents

/-- Storing only grows the tables. -/
theorem Stores.grows {t t' : Tables} (h : t.Stores t') : t.Grows t' :=
  ⟨h.names_eq ▸ List.prefix_refl _, h.consts⟩

/-- Storing keeps every record indexing the entry of its lexeme. -/
theorem Stores.indexed {t t' : Tables} {records : Array Record} (h : t.Stores t')
    (hi : t.Indexed records) : t'.Indexed records :=
  hi.mono h.grows (h.keyed hi.keyed)

/-- Interning appends under a new key or keeps the table. -/
theorem stores_internConst (t : Tables) (key : String) (v : Value) :
    t.Stores (t.internConst key v).2 := by
  refine ⟨?_, internConst_consts_grow t key v, fun hk => hk.internConst key v⟩
  rw [internConst_idents]
  exact List.forall₂_same.mpr fun e _ => IdentEntry.Stored.refl e

/-- Storing in an identifier whose entry has a declared type. -/
theorem stores_store {t : Tables} {name : String} {e : IdentEntry} (v : Value)
    (he : t.ident? name = some e) (hty : e.ty.isSome = true) : t.Stores (t.store name v) := by
  have hkeep : List.Forall₂ IdentEntry.Stored t.idents.toList (t.store name v).idents.toList := by
    refine forall₂_modifyIdent IdentEntry.Stored.refl fun e' he' => ?_
    rw [he] at he'
    cases he'
    exact ⟨rfl, rfl, .inr hty⟩
  have hnames : (t.store name v).names = t.names := map_eq_of_forall₂ (fun hs => hs.1) hkeep
  refine ⟨hkeep, by simp only [store_consts, List.prefix_refl],
    fun hk => ⟨hnames ▸ hk.names, ?_, hk.numbered.store name v⟩⟩
  rw [keys, store_consts]
  exact hk.keys

end Tables

/-! ### Steps that only store and intern -/

section Storing

variable {σ α β : Type} {tables : σ → Tables}

/-- Every run of `x` from `s`, succeeding or stopping with an error, leaves tables that store
and intern on those of `s`; when it succeeds, `Q` holds of its answer and the state it
leaves. -/
def Storing (tables : σ → Tables) (x : Step σ α) (Q : α → σ → Prop) (s : σ) : Prop :=
  match x.run s with
  | .ok a s' => (tables s).Stores (tables s') ∧ Q a s'
  | .error _ s' => (tables s).Stores (tables s')

/-- Whatever the step answers, the tables it leaves store on those it started with. -/
theorem Storing.after {x : Step σ α} {Q : α → σ → Prop} {s : σ} (h : Storing tables x Q s) :
    (tables s).Stores (tables (Step.after x s)) := by
  unfold Storing at h
  unfold Step.after
  cases hr : x.run s with
  | ok a s' =>
    rw [hr] at h
    exact h.1
  | error e s' =>
    rw [hr] at h
    exact h

/-- A step followed by a continuation that stores from every state the step can leave stores. -/
theorem Storing.bind {x : Step σ α} {f : α → Step σ β} {Q : α → σ → Prop} {R : β → σ → Prop}
    {s : σ} (hx : Storing tables x Q s)
    (hf : ∀ a s', (tables s).Stores (tables s') → Q a s' → Storing tables (f a) R s') :
    Storing tables (x >>= f) R s := by
  unfold Storing at hx ⊢
  rw [EStateM.run_bind]
  cases hr : x.run s with
  | ok a s' =>
    simp only [hr] at hx ⊢
    have hfa := hf a s' hx.1 hx.2
    unfold Storing at hfa
    cases hb : (f a).run s' with
    | ok b s'' =>
      simp only [hb] at hfa ⊢
      exact ⟨hx.1.trans hfa.1, hfa.2⟩
    | error e s'' =>
      simp only [hb] at hfa ⊢
      exact hx.1.trans hfa
  | error e s' =>
    simp only [hr] at hx ⊢
    exact hx

/-- Returning a value stores nothing. -/
theorem storing_pure {a : α} {Q : α → σ → Prop} {s : σ} (h : Q a s) :
    Storing tables (pure a) Q s :=
  ⟨Tables.Stores.refl _, h⟩

/-- Stopping with an error stores nothing. -/
theorem storing_throw {e : RunError} {Q : α → σ → Prop} {s : σ} :
    Storing tables (throw e : Step σ α) Q s :=
  Tables.Stores.refl _

/-- Reading the state stores nothing and answers that state. -/
theorem storing_get {s : σ} : Storing tables (get : Step σ σ) (fun a s' => a = s ∧ s' = s) s :=
  ⟨Tables.Stores.refl _, rfl, rfl⟩

/-- Replacing the state by one with the same tables. -/
theorem storing_set {s s' : σ} (h : tables s' = tables s) :
    Storing tables (set s' : Step σ PUnit) (fun _ s'' => s'' = s') s :=
  ⟨h ▸ Tables.Stores.refl _, rfl⟩

/-- A step that stops at once, whatever would follow. -/
theorem storing_throw_bind {e : RunError} {f : α → Step σ β} {R : β → σ → Prop} {s : σ} :
    Storing tables (throw e >>= f) R s :=
  (storing_throw (Q := fun _ _ => False)).bind fun _ _ _ h => h.elim

/-- A step that changes only what `tables` does not read. -/
theorem storing_modify {f : σ → σ} {s : σ} (h : tables (f s) = tables s) :
    Storing tables (modify f) (fun _ _ => True) s :=
  ⟨h ▸ Tables.Stores.refl _, trivial⟩

end Storing

/-! ### The world's steps -/

namespace World

variable {α : Type}

/-- A look at the world keeps it, and a successful one answers what the look found. -/
theorem storing_inspect {f : World → Except RunError α} {w : World} :
    Storing World.tables (inspect f) (fun a w' => w' = w ∧ f w = .ok a) w := by
  unfold Storing inspect EStateM.run
  cases hf : f w with
  | ok a =>
    simp only [hf]
    exact ⟨Tables.Stores.refl _, trivial, trivial⟩
  | error e =>
    simp only [hf]
    exact Tables.Stores.refl _

/-- Looking up a target's declared type. -/
theorem storing_declared {i : Instr} {w : World} :
    Storing World.tables (declared i) (fun ty w' => w' = w ∧ typeOf w.tables i = .ok ty) w :=
  storing_inspect

/-- A target with a declared type is an identifier whose entry has that type. -/
theorem typeOf_ok {t : Tables} {i : Instr} {ty : Ty} (h : typeOf t i = .ok ty) :
    ∃ e, t.ident? i.lexeme = some e ∧ e.ty = some ty := by
  unfold typeOf at h
  split at h
  · rename_i name
    split at h
    · rename_i e he
      cases h
      exact ⟨_, he, rfl⟩
    · cases h
  · cases h

/-- Storing in a target whose declared type was looked up in these tables. -/
theorem storing_store {i : Instr} {ty : Ty} {v : Value} {w : World}
    (hty : typeOf w.tables i = .ok ty) :
    Storing World.tables (modify fun w : World => { w with tables := w.tables.store i.lexeme v })
      (fun _ _ => True) w := by
  obtain ⟨e, he, hety⟩ := typeOf_ok hty
  exact ⟨Tables.stores_store v he (by rw [hety]; rfl), trivial⟩

/-- Interning a computed value. -/
theorem storing_intern (v : Value) (w : World) :
    Storing World.tables (intern v) (fun _ _ => True) w :=
  ⟨Tables.stores_internConst _ _ _, trivial⟩

/-- Applying an operator to two operands interns the result it computes, and stores nothing else. -/
theorem storing_apply (compute : Value → Value → Except ArithError Value) (a b : Instr)
    (w : World) : Storing World.tables (apply compute a b) (fun _ _ => True) w := by
  unfold apply
  refine storing_inspect.bind fun l w1 _ hw1 => ?_
  refine storing_inspect.bind fun r w2 _ hw2 => ?_
  split
  · exact storing_intern _ w2
  · exact storing_throw

/-- `=` stores only after the target's declared type was found, in the same tables. -/
theorem storing_assign (target source : Instr) (w : World) :
    Storing World.tables (assign target source) (fun _ _ => True) w := by
  unfold assign
  refine storing_declared.bind fun ty w1 _ hw1 => ?_
  obtain ⟨rfl, hty⟩ := hw1
  refine storing_inspect.bind fun v w2 _ hw2 => ?_
  obtain ⟨rfl, -⟩ := hw2
  exact storing_store hty

/-- `input` stores only after the target's declared type was found; consuming the line keeps
the tables. -/
theorem storing_input (target : Instr) (w : World) :
    Storing World.tables (input target) (fun _ _ => True) w := by
  unfold input
  refine storing_declared.bind fun ty w1 _ hw1 => ?_
  obtain ⟨rfl, hty⟩ := hw1
  refine storing_get.bind fun w2 w3 _ hw2 => ?_
  obtain ⟨rfl, rfl⟩ := hw2
  -- the line is consumed first, which keeps the tables; only a usable line is stored
  cases readLine w3.unread with
  | mk line rest =>
    refine (storing_set ?_).bind fun _ w4 _ hw4 => ?_
    · rfl
    subst hw4
    cases line with
    | error f => exact storing_throw
    | ok line =>
      dsimp only
      cases (Text.trimBlank line).isEmpty with
      | true => exact storing_throw_bind
      | false =>
        cases Value.read? ty (Text.trimBlank line) with
        | none => exact storing_throw
        | some v => exact storing_store hty

/-- Printing an operand reads the tables and changes none of them. -/
theorem storing_print (operand : Instr) (w : World) :
    Storing World.tables (print operand) (fun _ _ => True) w := by
  unfold print
  refine storing_inspect.bind fun v w1 _ _ => ?_
  exact storing_modify rfl

end World

/-! ### The machine's steps -/

namespace Machine

variable {α : Type}

/-- A step of the world on the machine. -/
theorem storing_onWorld {x : Step World α} {m : Machine}
    (h : Storing World.tables x (fun _ _ => True) m.toWorld) :
    Storing (·.tables) (onWorld x) (fun _ _ => True) m := by
  unfold Storing at h ⊢
  rw [run_onWorld]
  cases hx : x.run m.toWorld with
  | ok a w =>
    rw [hx] at h
    exact ⟨h.1, trivial⟩
  | error e w =>
    rw [hx] at h
    exact h

/-- Pushing an operand keeps the tables. -/
theorem storing_push (i : Instr) (m : Machine) :
    Storing (·.tables) (push i) (fun _ _ => True) m :=
  storing_modify rfl

/-- Popping an operand keeps the tables, whether the stack held one or not. -/
theorem storing_pop (op : String) (m : Machine) :
    Storing (·.tables) (pop op) (fun _ _ => True) m := by
  unfold Storing pop
  simp only [EStateM.run_bind, EStateM.run_get]
  cases m.stack with
  | nil => exact Tables.Stores.refl _
  | cons i rest => exact ⟨Tables.Stores.refl _, trivial⟩

/-- Popping two operands keeps the tables. -/
theorem storing_popPair (op : String) (m : Machine) :
    Storing (·.tables) (popPair op) (fun _ _ => True) m := by
  unfold popPair
  refine (storing_pop op m).bind fun _ m1 _ _ => ?_
  exact (storing_pop op m1).bind fun _ m2 _ _ => storing_pure trivial

/-- A binary operator interns at most its result. -/
theorem storing_binary (compute : Value → Value → Except ArithError Value) (op : String)
    (m : Machine) : Storing (·.tables) (binary compute op) (fun _ _ => True) m := by
  unfold binary
  refine (storing_popPair op m).bind fun p m1 _ _ => ?_
  refine (storing_onWorld (World.storing_apply compute p.1 p.2 m1.toWorld)).bind
    fun v m2 _ _ => ?_
  exact storing_push v m2

/-- The assignment instruction pops the target and the source and stores at most in the declared
identifier the target names. -/
theorem storing_assign (op : String) (m : Machine) :
    Storing (·.tables) (assign op) (fun _ _ => True) m := by
  unfold assign
  refine (storing_popPair op m).bind fun p m1 _ _ => ?_
  exact storing_onWorld (World.storing_assign p.1 p.2 m1.toWorld)

/-- A unary operator whose action stores and interns only stores and interns. -/
theorem storing_unary {act : Instr → Step World Unit}
    (hact : ∀ i w, Storing World.tables (act i) (fun _ _ => True) w) (op : String)
    (m : Machine) : Storing (·.tables) (unary op act) (fun _ _ => True) m := by
  unfold unary
  exact (storing_pop op m).bind fun i m1 _ _ => storing_onWorld (hact i m1.toWorld)

/-- Every instruction, succeeding or not, only stores in declared identifiers and interns. -/
theorem storing_exec (i : Instr) (m : Machine) :
    Storing (·.tables) (exec i) (fun _ _ => True) m := by
  cases i with
  | marker mark => exact storing_throw
  | token lexeme kind =>
    rw [exec]
    split
    · exact storing_push _ m
    split
    · exact storing_unary World.storing_input "input" m
    split
    · exact storing_unary World.storing_print "print" m
    split
    · exact storing_assign lexeme m
    split
    · exact storing_binary _ lexeme m
    split
    · exact storing_binary _ lexeme m
    · exact storing_throw

/-- A run, to its end or to the first error, only stores in declared identifiers and interns.
The induction is on the code, one instruction after the other. -/
theorem storing_run (code : List Instr) (m : Machine) :
    Storing (·.tables) (run code) (fun _ _ => True) m := by
  induction code generalizing m with
  | nil => exact storing_pure trivial
  | cons i code ih =>
    rw [run_cons]
    exact (storing_exec i m).bind fun _ m' _ _ => ih m'

end Machine

/-! ### The three stages -/

/-- Across the lexer, the parser and the machine, both tables are append-only ordered maps
with unique keys, and every identifier and literal record of the source indexes the entry of
its lexeme in every table that follows:
* lexing any first lines gives tables and records that those of the whole source extend;
* the parser, in the state it ends in whether it succeeds or not, has only given declared types
  to identifiers that had none, created no identifier, and appended at most the zero;
* every state a run of the translated code reaches on any input keeps every identifier's name
  and type, has changed only the values of declared identifiers, and has only appended
  constants. -/
theorem tables_append_only {lines : List String} {lexed : Lexed} (hlex : lex lines = .ok lexed) :
    lexed.tables.Indexed lexed.records ∧
      (∀ k, ∃ lexed₁, lex (lines.take k) = .ok lexed₁ ∧ lexed₁.tables.Grows lexed.tables ∧
        lexed₁.records.toList <+: lexed.records.toList) ∧
      (∀ lastLine : Nat,
        let t := (program { rest := lexed.records.toList, tables := lexed.tables, lastLine }).state
          |>.tables
        lexed.tables.Declares t ∧ t.Indexed lexed.records) ∧
      ∀ tr, (parse lexed.records.toList lexed.tables).2 = .ok tr →
        lexed.tables.Declares tr.tables ∧ ∀ (input : List UInt8) (n : Nat),
          let t := (Step.after (Machine.run (tr.code.toList.take n))
            { tables := tr.tables, unread := input }).tables
          tr.tables.Stores t ∧ t.Indexed lexed.records := by
  have hind := lex_indexed hlex
  -- every identifier record was registered by the lexer
  have hreg : ∀ (s : ParseState), s.rest = lexed.records.toList → s.tables = lexed.tables →
      s.Registered := by
    intro s hr ht r hrec hk
    obtain ⟨i, -, hi⟩ := (hind.indexes r (by rw [← Array.mem_toList_iff, ← hr]; exact hrec)).ident hk
    rw [ht]
    exact List.mem_of_getElem? hi
  have hparse : ∀ s : ParseState, s.rest = lexed.records.toList → s.tables = lexed.tables →
      lexed.tables.Declares (program s).state.tables := by
    intro s hr ht
    have h := (ParseState.onlyDeclares_invariant.program_state s (hreg s hr ht)).2
    rwa [ht] at h
  refine ⟨hind, fun k => ?_, fun lastLine => ?_, fun tr htr => ?_⟩
  · rw [← List.take_append_drop k lines] at hlex
    exact lex_append hlex
  · have hd := hparse { rest := lexed.records.toList, tables := lexed.tables, lastLine } rfl rfl
    exact ⟨hd, hd.indexed hind⟩
  · obtain ⟨s, hr, -, ht, -, -, htables⟩ := parse_ok htr
    have hd : lexed.tables.Declares tr.tables := htables ▸ hparse s hr ht
    refine ⟨hd, fun input n => ?_⟩
    have hs := (Machine.storing_run (tr.code.toList.take n)
      { tables := tr.tables, unread := input }).after
    exact ⟨hs, hs.indexed (hd.indexed hind)⟩

/-- `program p { int x; { x = 1; } }`. -/
def assignProgramLines : List String :=
  ["program p \x7b", "int x;", "\x7b", "x = 1;", "\x7d", "\x7d"]

/-- Its records and tables: `p` and `x` are the identifiers 1 and 2, `1` the constant 1. -/
def assignProgramLexed : Lexed :=
  ⟨#[⟨1, "program", .keyword, none⟩, ⟨1, "p", .ident, some 1⟩, ⟨1, "\x7b", .parOp, none⟩,
    ⟨2, "int", .keyword, none⟩, ⟨2, "x", .ident, some 2⟩, ⟨2, ";", .punct, none⟩,
    ⟨3, "\x7b", .parOp, none⟩, ⟨4, "x", .ident, some 2⟩, ⟨4, "=", .assignOp, none⟩,
    ⟨4, "1", .int, some 1⟩, ⟨4, ";", .punct, none⟩, ⟨5, "\x7d", .parOp, none⟩,
    ⟨6, "\x7d", .parOp, none⟩],
    ⟨#[⟨"p", 1, none, none⟩, ⟨"x", 2, none, none⟩], #[⟨"1", 1, .int 1⟩]⟩⟩

/-- For `program p { int x; { x = 1; } }` the lexer's tables grow line by line, the parser only
declares `x`, and every run of its code only stores and interns. -/
theorem tables_append_only_assign :
    lex assignProgramLines = .ok assignProgramLexed ∧
      assignProgramLexed.tables.Indexed assignProgramLexed.records ∧
      (∀ k, ∃ lexed₁, lex (assignProgramLines.take k) = .ok lexed₁ ∧
        lexed₁.tables.Grows assignProgramLexed.tables ∧
        lexed₁.records.toList <+: assignProgramLexed.records.toList) ∧
      (∀ lastLine : Nat,
        let t := (program
          { rest := assignProgramLexed.records.toList, tables := assignProgramLexed.tables,
            lastLine }).state.tables
        assignProgramLexed.tables.Declares t ∧ t.Indexed assignProgramLexed.records) ∧
      ∀ tr, (parse assignProgramLexed.records.toList assignProgramLexed.tables).2 = .ok tr →
        assignProgramLexed.tables.Declares tr.tables ∧ ∀ (input : List UInt8) (n : Nat),
          let t := (Step.after (Machine.run (tr.code.toList.take n))
            { tables := tr.tables, unread := input }).tables
          tr.tables.Stores t ∧ t.Indexed assignProgramLexed.records := by
  have h : lex assignProgramLines = .ok assignProgramLexed := by
    with_unfolding_all rfl
  exact ⟨h, tables_append_only h⟩

end RpnLang
