import RpnLang.Lexer
import RpnLang.Proofs.Tables

/-!
# What the lexer's records promise

Every record the lexer produces is of one of two sorts. An identifier or a literal was named by
the state that finished it or by its reserved spelling; a literal's lexeme is then a key of the
constant table, since the lexer interns every literal under its lexeme. Any other record, an
operator, a bracket, a separator or a keyword, has the kind its spelling is reserved for, since
the automaton's states name only identifiers and literals. Both facts are carried through every
character and every line.
-/

namespace RpnLang

/-- A record that is neither an identifier nor a literal has the kind its spelling is reserved
for. -/
def Record.Reserved (r : Record) : Prop :=
  r.kind.isOperand = false → TokenKind.reserved? r.lexeme = some r.kind

/-- A record as the lexer leaves it with tables `t`: a literal's lexeme is a key of the constant
table, and the record's kind is reserved for its spelling unless it is an operand. -/
def Record.Lexed (t : Tables) (r : Record) : Prop :=
  (r.kind.isConstant = true → t.HasConst r.lexeme) ∧ r.Reserved

theorem Record.Lexed.mono {t t' : Tables} {r : Record} (h : t.KeysWithin t') (hr : r.Lexed t) :
    r.Lexed t' :=
  ⟨fun hc => h _ (hr.1 hc), hr.2⟩

/-- The states name only identifiers and literals. -/
theorem Automaton.isOperand_of_stateKind? {s : Nat} {k : TokenKind}
    (h : Automaton.stateKind? s = some k) : k.isOperand = true := by
  unfold Automaton.stateKind? at h
  split at h <;> cases h <;> rfl

/-- The lexer a pass of a character leaves. -/
def Fed.lexer : Fed → Lexer
  | .done lx => lx
  | .again lx => lx

namespace Lexer

/-- Every record of the lexer is lexed with its tables. -/
def RecordsLexed (lx : Lexer) : Prop :=
  ∀ r ∈ lx.records, r.Lexed lx.tables

/-- A lexer with more records and tables that keep the keys. -/
theorem recordsLexed_push {lx lx' : Lexer} {r : Record} (hl : lx.RecordsLexed)
    (hk : lx.tables.KeysWithin lx'.tables) (hrec : lx'.records = lx.records.push r)
    (hr : r.Lexed lx'.tables) : lx'.RecordsLexed := by
  intro x hx
  rw [hrec, Array.mem_push] at hx
  rcases hx with hx | rfl
  · exact (hl x hx).mono hk
  · exact hr

/-- Emitting a lexeme appends a lexed record, when a kind that is no operand is the reserved
kind of the lexeme. -/
theorem emit_lexed {lx lx' : Lexer} {lexeme : String} {kind : TokenKind} {c : Char}
    (h : lx.emit lexeme kind c = .ok lx')
    (hres : kind.isOperand = false → TokenKind.reserved? lexeme = some kind)
    (hl : lx.RecordsLexed) : lx'.RecordsLexed := by
  unfold emit at h
  split at h
  · -- an identifier: only the identifier table changes
    rename_i hid
    cases h
    refine recordsLexed_push hl (Tables.KeysWithin.of_consts (by split <;> rfl)) rfl ⟨?_, ?_⟩
    · intro hc
      simp [hid, TokenKind.isConstant] at hc
    · intro ho
      simp [hid, TokenKind.isOperand] at ho
  · split at h
    · -- a literal is interned under its lexeme
      rename_i hid hconst
      split at h
      · cases h
      · rename_i v hv
        cases h
        have hkeys := Tables.internConst_keys lx.tables lexeme v
        refine recordsLexed_push hl hkeys.1 rfl ⟨fun _ => hkeys.2, ?_⟩
        intro ho
        simp [TokenKind.isOperand, hconst] at ho
    · -- anything else has its reserved kind
      rename_i hid hconst
      cases h
      exact recordsLexed_push hl (Tables.KeysWithin.refl _) rfl
        ⟨fun hc => absurd hc hconst, hres⟩

/-! ### Relations that every step keeps -/

section Relations

variable {R : Lexer → Lexer → Prop}
  (hsame : ∀ {lx lx' : Lexer}, lx'.tables = lx.tables → lx'.records = lx.records → R lx lx')
  (htrans : ∀ {lx lx' lx'' : Lexer}, R lx lx' → R lx' lx'' → R lx lx'')
  (hemit : ∀ {lx lx' : Lexer} {lexeme : String} {kind : TokenKind} {c : Char},
    lx.emit lexeme kind c = .ok lx' →
      (kind.isOperand = false → TokenKind.reserved? lexeme = some kind) → R lx lx')
include hsame htrans hemit

/-- Closing a lexeme emits it from the lexer with the lexeme dropped; a kind that no state gives
is the lexeme's reserved kind. -/
theorem close_rel {lx lx' : Lexer} {s : Nat} {c : Char} (h : lx.close s c = .ok lx') :
    R lx lx' := by
  unfold close at h
  dsimp only at h
  split at h
  · cases h
  · rename_i kind hkind
    refine htrans ?_ (hemit h fun ho => ?_)
    · exact hsame rfl rfl
    cases hres : TokenKind.reserved? lx.lexeme with
    | some k =>
      rw [hres, Option.some_or] at hkind
      rw [hkind]
    | none =>
      rw [hres, Option.none_or] at hkind
      have hop := Automaton.isOperand_of_stateKind? hkind
      rw [hop] at ho
      cases ho

/-- One pass of a character: keeping, skipping and counting a line leave records and tables
alone, finishing and retracting close the lexeme. -/
theorem feed_rel {lx : Lexer} {c : Char} {f : Fed} (h : lx.feed c = .ok f) : R lx f.lexer := by
  unfold feed at h
  split at h
  · cases h
  · rename_i t _
    split at h
    · cases h
    · cases h
      exact hsame rfl rfl
    · cases h
      exact hsame rfl rfl
    · cases h
      exact hsame rfl rfl
    · cases hc : ({ lx with lexeme := lx.lexeme.push c } : Lexer).close t c with
      | error e =>
        rw [hc] at h
        cases h
      | ok lx' =>
        rw [hc] at h
        cases h
        refine htrans ?_ (close_rel hsame htrans hemit hc)
        exact hsame rfl rfl
    · cases hc : lx.close t c with
      | error e =>
        rw [hc] at h
        cases h
      | ok lx' =>
        rw [hc] at h
        cases h
        exact close_rel hsame htrans hemit hc

/-- Feeding a character, once or twice. -/
theorem step_rel {lx lx' : Lexer} {c : Char} (h : lx.step c = .ok lx') : R lx lx' := by
  unfold step at h
  split at h
  · cases h
  · rename_i l hf
    cases h
    exact feed_rel hsame htrans hemit hf
  · rename_i l hf
    have hl := feed_rel hsame htrans hemit hf
    split at h
    · cases h
    · rename_i l' hf'
      cases h
      exact htrans hl (feed_rel hsame htrans hemit hf')
    · rename_i l' hf'
      cases h
      exact htrans hl (feed_rel hsame htrans hemit hf')

end Relations

/-- Feeding a character, once or twice, keeps the records lexed. -/
theorem step_lexed {lx lx' : Lexer} {c : Char} (h : lx.step c = .ok lx')
    (hl : lx.RecordsLexed) : lx'.RecordsLexed := by
  refine step_rel (R := fun lx lx' => lx.RecordsLexed → lx'.RecordsLexed) ?_
    (fun h h' hl => h' (h hl)) (fun h hres hl => emit_lexed h hres hl) h hl
  intro lx lx' ht hr hl r hrec
  rw [hr] at hrec
  rw [ht]
  exact hl r hrec

/-- A property that every step of a loop keeps holds after the whole loop. -/
theorem foldlM_keeps {ε σ β : Type} {f : σ → β → Except ε σ} {P : σ → Prop}
    (hf : ∀ s b s', f s b = .ok s' → P s → P s') (l : List β) :
    ∀ s s', l.foldlM f s = .ok s' → P s → P s' := by
  induction l with
  | nil =>
    intro s s' h hs
    cases h
    exact hs
  | cons b l ih =>
    intro s s' h hs
    rw [List.foldlM_cons] at h
    cases hb : f s b with
    | error e =>
      rw [hb] at h
      cases h
    | ok s1 =>
      rw [hb] at h
      exact ih s1 s' h (hf s b s1 hb hs)

theorem feedLine_lexed {lx lx' : Lexer} {line : String} (h : lx.feedLine line = .ok lx')
    (hl : lx.RecordsLexed) : lx'.RecordsLexed :=
  foldlM_keeps (fun _ _ _ hs hl => step_lexed hs hl) _ _ _ h hl

end Lexer

/-- Every record of a lexed source is lexed with the source's tables. -/
theorem lex_lexed {lines : List String} {lexed : Lexed} (h : lex lines = .ok lexed) :
    ∀ r ∈ lexed.records, r.Lexed lexed.tables := by
  unfold lex at h
  split at h
  · rename_i lx hlx
    cases h
    exact Lexer.foldlM_keeps (fun _ _ _ hs hl => Lexer.feedLine_lexed hs hl) _ _ _ hlx
      (fun r hr => by simp at hr)
  · cases h

end RpnLang
