import RpnLang.Parser.State
import RpnLang.Proofs.Tables

/-!
# The parser's elementary steps

Every production moves the parser from a state `s` to a state `t` by consuming records from the
front and appending instructions to the code. `Reads s t ys es` says that the records `ys`
were consumed and the instructions `es` emitted between the two states; reads compose.

Two facts hold of every state a production can end in, whether it succeeded or failed: the
constant table kept all its keys, and every literal that is still to be read or has been
emitted is in the constant table (`Known`). The second is what the machine needs later to look
literals up. A rolled-back attempt restores the records and the code but keeps the tables, so
both facts survive backtracking.

`Reply.Sound r Q` packs these facts about a production's reply with a property `Q` of the state
it ends in when it succeeds; the lemmas below say how replies compose.
-/

namespace RpnLang

/-- A literal token: the machine looks it up in the constant table. -/
def Instr.IsLiteral : Instr → Prop
  | .token _ kind => kind.isConstant = true
  | .marker _ => False

namespace ParseState

/-- Between `s` and `t` the records `ys` were consumed and the instructions `es` emitted. -/
def Reads (s t : ParseState) (ys : List Record) (es : List Instr) : Prop :=
  s.rest = ys ++ t.rest ∧ t.code.reverse = s.code.reverse ++ es

/-- Reading composes: the records and the instructions of two consecutive stretches are appended. -/
theorem Reads.trans {s t u : ParseState} {ys ys' : List Record} {es es' : List Instr}
    (h : Reads s t ys es) (h' : Reads t u ys' es') : Reads s u (ys ++ ys') (es ++ es') :=
  ⟨by rw [h.1, h'.1, List.append_assoc], by rw [h'.2, h.2, List.append_assoc]⟩

/-- A step that changes neither the records nor the code reads nothing. -/
theorem Reads.of_eq {s t : ParseState} (hr : t.rest = s.rest) (hc : t.code = s.code) :
    Reads s t [] [] :=
  ⟨by rw [hr]; rfl, by rw [hc, List.append_nil]⟩

/-- Reads up to a state with the same records and code. -/
theorem Reads.congr {s t t' : ParseState} {ys : List Record} {es : List Instr}
    (h : Reads s t ys es) (hr : t'.rest = t.rest) (hc : t'.code = t.code) : Reads s t' ys es := by
  simpa [Reads, hr, hc] using h

/-- Reads from a state with the same records and code. -/
theorem Reads.congr_left {s s' t : ParseState} {ys : List Record} {es : List Instr}
    (h : Reads s t ys es) (hr : s'.rest = s.rest) (hc : s'.code = s.code) : Reads s' t ys es := by
  simpa [Reads, hr, hc] using h

/-- `t` ends a derivation, of a kind with these yield and emission, that began in `s`. -/
def Parsed {α : Type} (yield : α → List Record) (emit : α → List Instr) (s t : ParseState) :
    Prop :=
  ∃ x, Reads s t (yield x) (emit x)

/-- Every literal still to be read and every literal emitted is in the constant table. -/
def Known (s : ParseState) : Prop :=
  (∀ r ∈ s.rest, r.kind.isConstant = true → s.tables.HasConst r.lexeme) ∧
    ∀ i ∈ s.code, i.IsLiteral → s.tables.HasConst i.lexeme

/-- `t` comes after `s`: the constant table kept its keys and the literals stayed known. -/
def Leads (s t : ParseState) : Prop :=
  s.tables.KeysWithin t.tables ∧ (s.Known → t.Known)

theorem Leads.refl (s : ParseState) : Leads s s :=
  ⟨Tables.KeysWithin.refl _, id⟩

theorem Leads.trans {s t u : ParseState} (h : Leads s t) (h' : Leads t u) : Leads s u :=
  ⟨h.1.trans h'.1, h'.2 ∘ h.2⟩

/-- A state with the records and code of `s`, and tables that keep the keys of `s`, comes
after `s`: this is a rollback. -/
theorem leads_of_restore {s t : ParseState} (hr : t.rest = s.rest) (hc : t.code = s.code)
    (ht : s.tables.KeysWithin t.tables) : Leads s t := by
  refine ⟨ht, fun hknown => ⟨fun r hr' hk => ?_, fun i hi hl => ?_⟩⟩
  · rw [hr] at hr'
    exact ht _ (hknown.1 r hr' hk)
  · rw [hc] at hi
    exact ht _ (hknown.2 i hi hl)

@[simp] theorem log_code (s : ParseState) (r : Record) : (s.log r).code = s.code := by
  unfold log; split <;> rfl

@[simp] theorem log_tables (s : ParseState) (r : Record) : (s.log r).tables = s.tables := by
  unfold log; split <;> rfl

@[simp] theorem emit_rest (s : ParseState) (i : Instr) : (s.emit i).rest = s.rest := rfl

@[simp] theorem emit_code (s : ParseState) (i : Instr) : (s.emit i).code = i :: s.code := rfl

@[simp] theorem emit_tables (s : ParseState) (i : Instr) : (s.emit i).tables = s.tables := rfl

/-- Emitting an instruction reads no record and emits that instruction. -/
theorem reads_emit (s : ParseState) (i : Instr) : Reads s (s.emit i) [] [i] :=
  ⟨rfl, by simp⟩

/-- Emitting a known or non-literal instruction keeps the literals known. -/
theorem leads_emit {s : ParseState} {i : Instr} (h : i.IsLiteral → s.tables.HasConst i.lexeme) :
    Leads s (s.emit i) := by
  refine ⟨Tables.KeysWithin.refl _, fun hknown => ⟨hknown.1, fun j hj hl => ?_⟩⟩
  rcases List.mem_cons.mp hj with rfl | hj
  · exact h hl
  · exact hknown.2 j hj hl

/-- Consuming a record: it is the head of the records, and nothing else changes that a
production's result depends on. -/
theorem advance_ok {s : ParseState} {r : Record} {t : Shorter s} (e : s.advance = .ok (r, t)) :
    s.rest = r :: t.1.rest ∧ t.1.code = s.code ∧ t.1.tables = s.tables := by
  unfold advance at e
  split at e
  · cases e
  · rename_i r' tail hs
    cases e
    simp [hs, log_rest]

/-- Consuming a record reads that record and emits nothing. -/
theorem advance_reads {s : ParseState} {r : Record} {t : Shorter s}
    (e : s.advance = .ok (r, t)) : Reads s t.1 [r] [] := by
  obtain ⟨hr, hc, -⟩ := advance_ok e
  exact ⟨hr, by rw [hc, List.append_nil]⟩

/-- Consuming a record keeps the constant keys and the known literals. -/
theorem advance_leads {s : ParseState} {r : Record} {t : Shorter s}
    (e : s.advance = .ok (r, t)) : Leads s t.1 := by
  obtain ⟨hr, -, ht⟩ := advance_ok e
  refine ⟨Tables.KeysWithin.of_consts (by rw [ht]), fun hknown => ⟨?_, ?_⟩⟩
  · intro x hx hk
    rw [ht]
    exact hknown.1 x (by rw [hr]; exact List.mem_cons_of_mem _ hx) hk
  · rw [ht, (advance_ok e).2.1]
    exact hknown.2

/-- A consumed record emitted at once is known if it is a literal, because it was known while
it was still to be read. -/
theorem advance_emit_leads {s : ParseState} {r : Record} {t : Shorter s}
    (e : s.advance = .ok (r, t)) : Leads s (t.1.emit (.ofRecord r)) := by
  obtain ⟨hr, -, ht⟩ := advance_ok e
  refine ⟨Tables.KeysWithin.of_consts (by simp [ht]), fun hks => ?_⟩
  refine (leads_emit fun hl => ?_).2 ((advance_leads e).2 hks)
  rw [ht]
  exact hks.1 r (by rw [hr]; exact List.mem_cons_self) hl

/-- The record consumed after a successful kind check has that kind. -/
theorem kind_of_checkKind {s : ParseState} {k : TokenKind} {r : Record} {t : Shorter s}
    (hk : s.checkKind k = true) (e : s.advance = .ok (r, t)) : r.kind = k := by
  have hr := (advance_ok e).1
  simp only [checkKind, hr, beq_iff_eq] at hk
  exact hk

/-- The record consumed after a successful check is the word checked for. -/
theorem is_of_check {s : ParseState} {lexeme : String} {k : TokenKind} {r : Record}
    {t : Shorter s} (hk : s.check lexeme k = true) (e : s.advance = .ok (r, t)) :
    r.Is lexeme k = true := by
  have hr := (advance_ok e).1
  simp only [check, hr] at hk
  exact hk

/-- A successful expectation consumed a record of the expected lexeme and kind. -/
theorem expect_ok {s : ParseState} {lexeme : String} {kind : TokenKind} {r : Record}
    {t : Shorter s} (e : s.expect lexeme kind = .ok (r, t)) :
    r.Is lexeme kind = true ∧ s.advance = .ok (r, t) := by
  unfold expect at e
  split at e
  · cases e
  · rename_i r' tail hs
    split at e
    · rename_i hIs
      obtain ⟨rfl, -⟩ := List.cons.inj (hs.symm.trans (advance_ok e).1)
      exact ⟨hIs, e⟩
    · cases e

/-- A successful expectation of a kind consumed a record of that kind. -/
theorem expectKind_ok {s : ParseState} {kind : TokenKind} {r : Record} {t : Shorter s}
    (e : s.expectKind kind = .ok (r, t)) : r.kind = kind ∧ s.advance = .ok (r, t) := by
  unfold expectKind at e
  split at e
  · cases e
  · rename_i r' tail hs
    split at e
    · rename_i hk
      obtain ⟨rfl, -⟩ := List.cons.inj (hs.symm.trans (advance_ok e).1)
      exact ⟨by simpa using hk, e⟩
    · cases e

/-- Consuming a bracket: the record is that one character, and the step reads it. -/
theorem bracket_ok {s : ParseState} {c : Char} {r : Record} {t : Shorter s}
    (e : s.bracket c = .ok (r, t)) :
    r.lexeme.toList = [c] ∧ Reads s t.1 [r] [] ∧ Leads s t.1 := by
  unfold bracket at e
  split at e
  · split at e <;> cases e
  · rename_i r' tail hs
    split at e
    · cases e
    · rename_i b hctl
      split at e
      · cases e
      · rename_i r'' t' ht' he
        cases e
        obtain ⟨hr, hc, htab⟩ := advance_ok he
        obtain ⟨rfl, hrest⟩ := List.cons.inj (hs.symm.trans hr)
        have hl : Leads s t' :=
          (leads_of_restore (t := { s with brackets := b }) rfl rfl
            (Tables.KeysWithin.refl _)).trans (advance_leads he)
        refine ⟨?_, ⟨show s.rest = r' :: t'.rest by rw [hs, hrest],
          show t'.code.reverse = s.code.reverse ++ [] by rw [hc, List.append_nil]⟩, hl⟩
        -- `control` answers without an error only for exactly the expected character
        unfold Brackets.control at hctl
        split at hctl
        · rename_i ch hch
          split at hctl
          · cases hctl
          · rename_i hne
            rw [hch]
            simp only [ne_eq, Decidable.not_not] at hne
            rw [hne]
        · cases hctl

@[simp] theorem enter_rest (s : ParseState) : s.enter.rest = s.rest := rfl

@[simp] theorem enter_code (s : ParseState) : s.enter.code = s.code := rfl

@[simp] theorem enter_tables (s : ParseState) : s.enter.tables = s.tables := rfl

/-- Leaving an attempt restores the checkpoint's code if the attempt failed, and keeps the code
otherwise. -/
theorem leave_code (t : ParseState) (cp : Checkpoint) (failed : Bool) :
    (t.leave cp failed).code = if failed then cp.code else t.code := by
  unfold leave
  cases failed <;> simp only [Bool.false_eq_true, if_false, if_true] <;> split <;> rfl

/-- Leaving an attempt keeps the tables even on a rollback: the interned zero of a failed attempt
stays. -/
theorem leave_tables (t : ParseState) (cp : Checkpoint) (failed : Bool) :
    (t.leave cp failed).tables = t.tables := by
  unfold leave
  cases failed <;> simp only [Bool.false_eq_true, if_false, if_true] <;> split <;> rfl

end ParseState

namespace Reply

open ParseState

/-- What a production started in `s` promises about its reply: the state it ends in comes
after `s`, and satisfies `Q` when the production succeeded. -/
def Sound {s : ParseState} (r : Reply s) (Q : ParseState → Prop) : Prop :=
  Leads s r.state ∧ (r.result = .ok () → Q r.state)

variable {s : ParseState} {Q Q' : ParseState → Prop}

/-- A sound reply stays sound under a weaker postcondition. -/
theorem Sound.mono {r : Reply s} (h : r.Sound Q) (hq : ∀ t, Q t → Q' t) : r.Sound Q' :=
  ⟨h.1, fun ho => hq _ (h.2 ho)⟩

/-- A failure in the start state is sound for every postcondition. -/
theorem sound_fail (e : ParseError) : (Reply.fail s e).Sound Q :=
  ⟨Leads.refl s, fun h => nomatch h⟩

/-- An error reply in a state that comes after `s`. -/
theorem sound_error {t : ParseState} (e : ParseError) (h : t.rest.length ≤ s.rest.length)
    (hl : Leads s t) : (⟨.error e, t, h⟩ : Reply s).Sound Q :=
  ⟨hl, fun h => nomatch h⟩

/-- A success in a later state that satisfies the postcondition is sound. -/
theorem sound_ok {t : ParseState} (h : t.rest.length ≤ s.rest.length) (hl : Leads s t)
    (hq : Q t) : (Reply.ok t h : Reply s).Sound Q :=
  ⟨hl, fun _ => hq⟩

/-- A sound reply of a production started later is sound from an earlier state that leads to it. -/
theorem Sound.widen {t : ParseState} {r : Reply t} (h : t.rest.length ≤ s.rest.length)
    (hl : Leads s t) (hr : r.Sound Q) : (r.widen h).Sound Q :=
  ⟨hl.trans hr.1, hr.2⟩

/-- A production followed by another: the second runs in the state where the first succeeded. -/
theorem Sound.andThen {r : Reply s}
    {k : (t : ParseState) → t.rest.length ≤ s.rest.length → Reply t} (hr : r.Sound Q)
    (hk : ∀ t h, Leads s t → Q t → (k t h).Sound Q') : (r.andThen k).Sound Q' := by
  obtain ⟨res, t, h⟩ := r
  cases res with
  | error e => exact ⟨hr.1, fun h => nomatch h⟩
  | ok u =>
    cases u
    exact (hk t h hr.1 (hr.2 rfl)).widen h hr.1

/-- Entering an attempt leads on from the state it was entered in. -/
theorem leads_enter (s : ParseState) : Leads s s.enter :=
  leads_of_restore rfl rfl (Tables.KeysWithin.refl _)

/-- An attempt that succeeded ends where its production ended, up to the logs. -/
theorem attempt_ok_state {r : Reply s.enter} (h : r.result = .ok ()) :
    r.attempt.state.rest = r.state.rest ∧ r.attempt.state.code = r.state.code := by
  obtain ⟨res, t, ht⟩ := r
  cases h
  exact ⟨leave_rest _ _ _, leave_code _ _ _⟩

/-- An attempt that failed is rolled back to the records and the code it started with. -/
theorem attempt_error_state {r : Reply s.enter} {e : ParseError} (h : r.result = .error e) :
    r.attempt.state.rest = s.rest ∧ r.attempt.state.code = s.code := by
  obtain ⟨res, t, ht⟩ := r
  cases h
  exact ⟨leave_rest _ _ _, leave_code _ _ _⟩

/-- An attempt keeps what its production promises, for any property of the records and the
code alone. -/
theorem Sound.attempt {r : Reply s.enter} (hr : r.Sound Q)
    (hQ : ∀ t t', t'.rest = t.rest → t'.code = t.code → Q t → Q t') : r.attempt.Sound Q := by
  have htab : r.attempt.state.tables = r.state.tables := leave_tables _ _ _
  obtain ⟨res, t, ht⟩ := r
  cases res with
  | error e =>
    obtain ⟨hrest, hcode⟩ := attempt_error_state (r := ⟨.error e, t, ht⟩) rfl
    refine ⟨leads_of_restore hrest hcode ?_, fun h => nomatch h⟩
    rw [htab]
    exact hr.1.1
  | ok u =>
    cases u
    obtain ⟨hrest, hcode⟩ := attempt_ok_state (r := ⟨.ok (), t, ht⟩) rfl
    refine ⟨(leads_enter s).trans (hr.1.trans (leads_of_restore hrest hcode ?_)),
      fun _ => hQ _ _ hrest hcode (hr.2 rfl)⟩
    rw [htab]
    exact Tables.KeysWithin.refl _

/-- The state after an attempt that succeeded. -/
theorem attempt_ok_eq {r : Reply s.enter} {t : ParseState} {h : t.rest.length ≤ s.rest.length}
    (hr : r.Sound Q) (hQ : ∀ t t', t'.rest = t.rest → t'.code = t.code → Q t → Q t')
    (heq : r.attempt = ⟨.ok (), t, h⟩) : Leads s t ∧ Q t := by
  have hA := hr.attempt hQ
  rw [heq] at hA
  exact ⟨hA.1, hA.2 rfl⟩

/-- The state after an attempt that failed: the records and the code it began with. -/
theorem attempt_error_eq {r : Reply s.enter} {t : ParseState} {e : ParseError}
    {h : t.rest.length ≤ s.rest.length} (hr : r.Sound Q) (heq : r.attempt = ⟨.error e, t, h⟩) :
    Leads s t ∧ t.rest = s.rest ∧ t.code = s.code := by
  have hl : Leads s r.attempt.state :=
    ((hr.mono fun _ _ => True.intro).attempt fun _ _ _ _ h => h).1
  have hres : r.result = .error e := congrArg Reply.result heq
  have hst : r.attempt.state = t := congrArg Reply.state heq
  obtain ⟨hrest, hcode⟩ := attempt_error_state hres
  rw [hst] at hrest hcode hl
  exact ⟨hl, hrest, hcode⟩

end Reply

end RpnLang
