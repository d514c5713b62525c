import RpnLang.Proofs.TraceLog

/-!
# The bracket stack follows the open productions

The parser keeps a stack of the brackets opened and not yet closed, and it is a separate piece
of state: every checkpoint copies it and every rollback restores it. The productions that open a
bracket are the program, blocks, `input` and `print` lists, `if` and `do` statements,
parenthesised comparisons and factors, and each of them closes it with the matching closer.

Two facts carry everything. The stack of every state a production ends in is the stack it
started with, after the brackets of the records it consumed (`ParseState.Tracks`); and a
production that succeeds leaves the stack it found. So when a production reads its closer, its
own opener is on top, and the stack never reports a closer that closes the wrong bracket or
nothing. Open brackets are reported only by a bracket step at the end of the records.

Main statement, `parse_bracket_reports`: a parse never fails with a mismatched closer or a
closer without an opener; when it fails with open brackets, it has consumed and traced all its
records and reports a nonempty list, which is the list of brackets that the records leave open,
outermost first, as long as only records of the bracket kind are spelled as brackets; and the
records of an accepted parse close every bracket they open.
-/

namespace RpnLang

/-! ### Brackets among records -/

/-- The open brackets, innermost first, after one more bracket: an opening bracket is pushed and a
closing one pops the innermost. -/
def stepStack (b : List Char) (c : Char) : List Char :=
  if c = '{' ∨ c = '(' then c :: b else if c = '}' ∨ c = ')' then b.tail else b

namespace Record

/-- The record's effect on the open brackets, read off its lexeme. -/
def pushPop (b : List Char) (r : Record) : List Char :=
  match r.lexeme.toList with
  | [c] => stepStack b c
  | _ => b

/-- The lexeme is a single bracket. -/
def IsBracket (r : Record) : Prop :=
  ∃ c ∈ ['(', ')', '{', '}'], r.lexeme.toList = [c]

/-- A record whose lexeme is no single bracket leaves the open brackets as they are. -/
theorem pushPop_of_not_bracket {r : Record} (h : ¬ r.IsBracket) (b : List Char) :
    r.pushPop b = b := by
  unfold pushPop
  split
  · rename_i c hc
    have hno : ¬ (c = '{' ∨ c = '(') ∧ ¬ (c = '}' ∨ c = ')') := by
      constructor <;>
      · rintro (rfl | rfl) <;> exact h ⟨_, by simp, hc⟩
    rw [stepStack, if_neg hno.1, if_neg hno.2]
  · rfl

end Record

/-- The brackets that records leave open on top of `b`, innermost first. -/
def openAfter (b : List Char) (rs : List Record) : List Char :=
  rs.foldl Record.pushPop b

/-- Only records of the bracket kind are spelled as brackets, as the lexer makes them. -/
def BracketsTagged (rs : List Record) : Prop :=
  ∀ r ∈ rs, r.IsBracket → r.kind = .parOp

@[simp] theorem openAfter_nil (b : List Char) : openAfter b [] = b := rfl

/-- The brackets left open by two runs of records are those the second leaves on top of the
first's. -/
theorem openAfter_append (b : List Char) (rs rs' : List Record) :
    openAfter b (rs ++ rs') = openAfter (openAfter b rs) rs' :=
  List.foldl_append

/-- Both parts of tagged records are tagged. -/
theorem bracketsTagged_append {rs rs' : List Record} (h : BracketsTagged (rs ++ rs')) :
    BracketsTagged rs ∧ BracketsTagged rs' :=
  ⟨fun r hr => h r (List.mem_append_left _ hr), fun r hr => h r (List.mem_append_right _ hr)⟩

/-! ### The stack step -/

namespace Brackets

/-- Only the two closers have a partner opener. -/
theorem closer_of_openerOf? {c o : Char} (h : openerOf? c = some o) : c = '}' ∨ c = ')' := by
  unfold openerOf? at h
  split at h
  · exact .inl rfl
  · exact .inr rfl
  · cases h

/-- A successful step pushes an opener, or pops the closer's partner from the top. -/
theorem control_ok {b b' : Brackets} {lexeme : String} {c : Char}
    (h : b.control lexeme c = (none, b')) :
    lexeme.toList = [c] ∧ b'.stack = stepStack b.stack c := by
  unfold control at h
  split at h
  · rename_i c' hl
    split at h
    · cases h
    · rename_i hc
      obtain rfl : c' = c := Decidable.of_not_not hc
      split at h
      · rename_i ho
        cases h
        exact ⟨hl, by rw [stepStack, if_pos ho]⟩
      · rename_i ho
        split at h
        · cases h
        · rename_i want hw
          split at h
          · cases h
          · rename_i o rest hs
            split at h
            · cases h
              refine ⟨hl, ?_⟩
              rw [stepStack, if_neg ho, if_pos (closer_of_openerOf? hw), hs]
              rfl
            · cases h
  · cases h

/-- A closer whose partner is on top is never mismatched and never closes nothing: a failed step
is an unexpected lexeme. -/
theorem control_error {b b' : Brackets} {lexeme : String} {c : Char} {e : BracketError}
    (hc : ∀ o, openerOf? c = some o → b.stack.head? = some o)
    (h : b.control lexeme c = (some e, b')) : ∃ got exp, e = .unexpected got exp := by
  unfold control at h
  split at h
  · split at h
    · cases h
      exact ⟨_, _, rfl⟩
    · rename_i c' _ hc'
      obtain rfl : c' = c := Decidable.of_not_not hc'
      split at h
      · cases h
      · split at h
        · cases h
          exact ⟨_, _, rfl⟩
        · rename_i want hw
          have htop := hc want hw
          split at h
          · rename_i hs
            rw [hs] at htop
            cases htop
          · rename_i o rest hs
            simp only [hs, List.head?_cons, Option.some.injEq] at htop
            rw [if_pos htop] at h
            cases h
  · cases h
    exact ⟨_, _, rfl⟩

end Brackets

/-! ### Tracking the stack through the steps -/

namespace ParseState

/-- From `s` to `t` the records `ys` were consumed, and, as long as only records of the bracket
kind are spelled as brackets among them, the stack of `t` is that of `s` after their brackets. -/
def Tracks (s t : ParseState) : Prop :=
  ∃ ys, s.rest = ys ++ t.rest ∧
    (BracketsTagged ys → t.brackets.stack = openAfter s.brackets.stack ys)

/-- Every state tracks itself. -/
theorem Tracks.refl (s : ParseState) : Tracks s s :=
  ⟨[], rfl, fun _ => rfl⟩

/-- Tracking composes: the records consumed are concatenated and their brackets applied in turn. -/
theorem Tracks.trans {s t u : ParseState} (h : Tracks s t) (h' : Tracks t u) : Tracks s u := by
  obtain ⟨ys, hr, hb⟩ := h
  obtain ⟨ys', hr', hb'⟩ := h'
  refine ⟨ys ++ ys', by rw [hr, hr', List.append_assoc], fun htag => ?_⟩
  obtain ⟨htag, htag'⟩ := bracketsTagged_append htag
  rw [hb' htag', hb htag, openAfter_append]

/-- A step that consumes nothing and leaves the stack. -/
theorem tracks_of_eq {s t : ParseState} (hr : t.rest = s.rest) (hb : t.brackets = s.brackets) :
    Tracks s t :=
  ⟨[], by rw [hr]; rfl, fun _ => by rw [hb]; rfl⟩

/-- Consuming a record leaves the bracket stack. -/
theorem advance_brackets {s : ParseState} {r : Record} {t : Shorter s}
    (e : s.advance = .ok (r, t)) : t.1.brackets = s.brackets := by
  unfold advance at e
  split at e
  · cases e
  · cases e
    unfold log
    split <;> rfl

/-- Consuming a record that is not of the bracket kind leaves the stack, and so does the record
itself, being no bracket when the records are tagged. -/
theorem tracks_advance {s : ParseState} {r : Record} {t : Shorter s}
    (e : s.advance = .ok (r, t)) (hk : r.kind ≠ .parOp) : Tracks s t.1 := by
  refine ⟨[r], (advance_ok e).1, fun htag => ?_⟩
  have hnb : ¬ r.IsBracket := fun hb => hk (htag r List.mem_cons_self hb)
  rw [advance_brackets e]
  exact (Record.pushPop_of_not_bracket hnb _).symm

/-- Consuming an expected record of a kind other than the bracket kind is tracked. -/
theorem tracks_expect {s : ParseState} {lexeme : String} {kind : TokenKind} {r : Record}
    {t : Shorter s} (e : s.expect lexeme kind = .ok (r, t)) (hk : kind ≠ .parOp) :
    Tracks s t.1 := by
  obtain ⟨his, ha⟩ := expect_ok e
  exact tracks_advance ha (by rw [Record.kind_of_is his]; exact hk)

/-- Consuming a record of an expected kind other than the bracket kind is tracked. -/
theorem tracks_expectKind {s : ParseState} {kind : TokenKind} {r : Record} {t : Shorter s}
    (e : s.expectKind kind = .ok (r, t)) (hk : kind ≠ .parOp) : Tracks s t.1 := by
  obtain ⟨hkind, ha⟩ := expectKind_ok e
  exact tracks_advance ha (by rw [hkind]; exact hk)

/-- A bracket step consumes the bracket and pushes it, or pops the closer's partner. -/
theorem bracket_stack {s : ParseState} {c : Char} {r : Record} {t : Shorter s}
    (e : s.bracket c = .ok (r, t)) :
    r.lexeme.toList = [c] ∧ s.rest = r :: t.1.rest ∧
      t.1.brackets.stack = stepStack s.brackets.stack c := by
  unfold bracket at e
  split at e
  · split at e <;> cases e
  · rename_i r' tail hs
    split at e
    · cases e
    · rename_i b hctl
      split at e
      · cases e
      · rename_i r'' t' ht' he
        cases e
        obtain ⟨hl, hb⟩ := Brackets.control_ok hctl
        have hrest := (advance_ok he).1
        obtain ⟨rfl, -⟩ := List.cons.inj (hs.symm.trans hrest)
        refine ⟨hl, hrest, ?_⟩
        rw [advance_brackets he]
        exact hb

/-- A bracket step is tracked: the bracket consumed moves the stack as its lexeme says. -/
theorem tracks_bracket {s : ParseState} {c : Char} {r : Record} {t : Shorter s}
    (e : s.bracket c = .ok (r, t)) : Tracks s t.1 := by
  obtain ⟨hl, hrest, hb⟩ := bracket_stack e
  refine ⟨[r], hrest, fun _ => ?_⟩
  rw [hb]
  show _ = Record.pushPop _ r
  unfold Record.pushPop
  rw [hl]

end ParseState

/-! ### Errors -/

/-- The error names no mismatched closer and no closer without an opener, and it reports open
brackets only where the records ran out in `t`, as the nonempty stack of `t`, outermost first. -/
def ParseError.WellBracketed (e : ParseError) (t : ParseState) : Prop :=
  (∀ o c, e.fault ≠ .bracket (.mismatched o c)) ∧ (∀ c, e.fault ≠ .bracket (.nothingToClose c)) ∧
    ∀ os, e.fault = .bracket (.unclosed os) →
      t.rest = [] ∧ t.brackets.stack ≠ [] ∧ os = t.brackets.stack.reverse

/-- Nothing is reported as unclosed exactly when no bracket is open. -/
theorem Brackets.unclosed?_eq_none_iff (b : Brackets) : b.unclosed? = none ↔ b.stack = [] := by
  simp [unclosed?, List.isEmpty_iff]

/-- An error that is no bracket error is well bracketed anywhere. -/
theorem ParseError.wellBracketed_of_not_bracket {e : ParseError} {t : ParseState}
    (h : ∀ b, e.fault ≠ .bracket b) : e.WellBracketed t :=
  ⟨fun _ _ => h _, fun _ => h _, fun _ ho => absurd ho (h _)⟩

namespace ParseState

/-- Leaving an attempt restores the checkpoint's stack when the production failed and keeps the
stack otherwise. -/
theorem leave_brackets (t : ParseState) (cp : Checkpoint) (failed : Bool) :
    (t.leave cp failed).brackets = if failed then cp.brackets else t.brackets := by
  unfold leave
  cases failed <;> simp only [Bool.false_eq_true, if_false, if_true] <;> split <;> rfl

/-- Consuming a record fails only at the end of the records. -/
theorem advance_error {s : ParseState} {e : ParseError} (h : s.advance = .error e) :
    ∀ b, e.fault ≠ .bracket b := by
  unfold advance at h
  split at h
  · cases h
    intro b hb
    cases hb
  · cases h

/-- An expected record that is missing is never reported as a bracket error. -/
theorem expect_error {s : ParseState} {lexeme : String} {kind : TokenKind} {e : ParseError}
    (h : s.expect lexeme kind = .error e) : ∀ b, e.fault ≠ .bracket b := by
  unfold expect at h
  split at h
  · cases h
    intro b hb
    cases hb
  · split at h
    · exact advance_error h
    · cases h
      intro b hb
      cases hb

/-- An unexpected record or the end of the records is never a bracket error. -/
theorem unexpected_fault (s : ParseState) (exp : String) :
    ∀ b, (s.unexpected exp).fault ≠ .bracket b := by
  intro b hb
  unfold unexpected at hb
  split at hb <;> cases hb

/-- A record of an expected kind that is missing is never reported as a bracket error. -/
theorem expectKind_error {s : ParseState} {kind : TokenKind} {e : ParseError}
    (h : s.expectKind kind = .error e) : ∀ b, e.fault ≠ .bracket b := by
  unfold expectKind at h
  split at h
  · cases h
    intro b hb
    cases hb
  · split at h
    · exact advance_error h
    · cases h
      exact unexpected_fault _ _

/-- A closer can be consumed only with its partner on top. -/
def Closable (s : ParseState) (c : Char) : Prop :=
  ∀ o, openerOf? c = some o → s.brackets.stack.head? = some o

/-- An opener can always be consumed, whatever the stack. -/
theorem closable_of_opener {s : ParseState} {c : Char} (hc : c = '{' ∨ c = '(') :
    s.Closable c := by
  intro o ho
  rcases hc with rfl | rfl <;> cases ho

/-- A closer can be consumed when its partner is on top of the stack. -/
theorem closable_of_top {s : ParseState} {c o : Char} {b : List Char} (ho : openerOf? c = some o)
    (hs : s.brackets.stack = o :: b) : s.Closable c := by
  intro o' ho'
  rw [ho] at ho'
  cases ho'
  rw [hs]
  rfl

/-- A bracket step where a closer finds its partner on top fails with an unexpected lexeme, or
at the end of the records, with the open brackets if there are any. -/
theorem bracket_error {s : ParseState} {c : Char} {e : ParseError} (hc : s.Closable c)
    (h : s.bracket c = .error e) : e.WellBracketed s := by
  unfold bracket at h
  split at h
  · rename_i hs
    split at h
    · -- the records ran out inside open brackets: these are reported
      rename_i be hu
      cases h
      unfold Brackets.unclosed? at hu
      split at hu
      · cases hu
      · rename_i hne
        cases hu
        refine ⟨fun o c h => ?_, fun c h => ?_, fun os hos => ?_⟩
        · cases h
        · cases h
        · cases hos
          exact ⟨hs, fun h0 => hne (by simp [h0]), rfl⟩
    · cases h
      exact ParseError.wellBracketed_of_not_bracket fun b hb => by cases hb
  · split at h
    · rename_i be b hctl
      cases h
      obtain ⟨got, exp, rfl⟩ := Brackets.control_error hc hctl
      refine ⟨fun o c h => ?_, fun c h => ?_, fun os h => ?_⟩ <;> cases h
    · split at h
      · cases h
        exact ParseError.wellBracketed_of_not_bracket (advance_error ‹_›)
      · cases h

end ParseState

/-! ### Replies -/

namespace Reply

open ParseState

/-- A production's reply, against the stack `b` it must leave when it succeeds: the state it ends
in tracks the state it began in, success leaves the stack `b`, and an error is well
bracketed in the state it ends in. -/
def Brackets {s : ParseState} (r : Reply s) (b : List Char) : Prop :=
  Tracks s r.state ∧ (r.result = .ok () → r.state.brackets.stack = b) ∧
    ∀ e, r.result = .error e → e.WellBracketed r.state

variable {s : ParseState} {b b' : List Char}

/-- An error reply keeps the stack invariant when its state is tracked and its error well
bracketed. -/
theorem brackets_error {t : ParseState} {e : ParseError} {h : t.rest.length ≤ s.rest.length}
    (ht : Tracks s t) (he : e.WellBracketed t) : (⟨.error e, t, h⟩ : Reply s).Brackets b := by
  refine ⟨ht, fun hok => ?_, fun e' herr => ?_⟩
  · cases hok
  · cases herr
    exact he

/-- A failed consuming step keeps the stack invariant when its error is well bracketed. -/
theorem brackets_fail {e : ParseError} (he : e.WellBracketed s) : (Reply.fail s e).Brackets b :=
  brackets_error (Tracks.refl s) he

/-- A successful reply keeps the stack invariant when its state is tracked and has the stack. -/
theorem brackets_ok {t : ParseState} {h : t.rest.length ≤ s.rest.length} (ht : Tracks s t)
    (hb : t.brackets.stack = b) : (Reply.ok t h : Reply s).Brackets b := by
  refine ⟨ht, fun _ => hb, fun e herr => ?_⟩
  cases herr

/-- Widening a reply to an earlier start keeps the stack invariant once the start is tracked. -/
theorem Brackets.widen {t : ParseState} {r : Reply t} (h : t.rest.length ≤ s.rest.length)
    (ht : Tracks s t) (hr : r.Brackets b) : (r.widen h).Brackets b :=
  ⟨ht.trans hr.1, hr.2.1, hr.2.2⟩

/-- A production followed by another, which starts with the stack the first one left. -/
theorem Brackets.andThen {r : Reply s}
    {k : (t : ParseState) → t.rest.length ≤ s.rest.length → Reply t} (hr : r.Brackets b)
    (hk : ∀ t h, Tracks s t → t.brackets.stack = b → (k t h).Brackets b') :
    (r.andThen k).Brackets b' := by
  obtain ⟨res, t, h⟩ := r
  obtain ⟨ht, hok, herr⟩ := hr
  cases res with
  | error e => exact brackets_error ht (herr e rfl)
  | ok u =>
    cases u
    exact (hk t h ht (hok rfl)).widen h ht

/-- A successful attempt ends where its production ended. -/
theorem Brackets.attempt_ok {r : Reply s.enter} {t : ParseState}
    {h : t.rest.length ≤ s.rest.length} (hr : r.Brackets b)
    (heq : r.attempt = ⟨.ok (), t, h⟩) : Tracks s t ∧ t.brackets.stack = b := by
  have hst : r.attempt.state = t := congrArg Reply.state heq
  have hres : r.result = .ok () := congrArg Reply.result heq
  obtain ⟨res, u, hu⟩ := r
  cases hres
  obtain ⟨ht, hok, -⟩ := hr
  have hrest : t.rest = u.rest := by
    rw [← hst]
    exact leave_rest _ _ _
  have hbr : t.brackets = u.brackets := by
    rw [← hst]
    exact leave_brackets _ _ _
  exact ⟨Tracks.trans ht (tracks_of_eq hrest hbr), hbr ▸ hok rfl⟩

/-- A failed attempt is rolled back to the records and the stack it began with. -/
theorem attempt_error {r : Reply s.enter} {t : ParseState} {e : ParseError}
    {h : t.rest.length ≤ s.rest.length} (heq : r.attempt = ⟨.error e, t, h⟩) :
    Tracks s t ∧ t.brackets = s.brackets := by
  have hst : r.attempt.state = t := congrArg Reply.state heq
  have hres : r.result = .error e := congrArg Reply.result heq
  obtain ⟨res, u, hu⟩ := r
  cases hres
  have hrest : t.rest = s.rest := by
    rw [← hst]
    exact leave_rest _ _ _
  have hbr : t.brackets = s.brackets := by
    rw [← hst]
    exact leave_brackets _ _ _
  exact ⟨tracks_of_eq hrest hbr, hbr⟩

/-- The stack a reply keeps can be restated by an equation. -/
theorem Brackets.stack_eq {r : Reply s} (hr : r.Brackets b) (h : b = b') : r.Brackets b' :=
  h ▸ hr

end Reply

/-! ### Opening and closing -/

namespace ParseState

/-- Emitting code is tracked: it consumes nothing and leaves the stack. -/
theorem tracks_emit (s : ParseState) (i : Instr) : Tracks s (s.emit i) :=
  tracks_of_eq rfl rfl

/-- Consuming a record of a checked kind other than the bracket kind. -/
theorem tracks_checked {s : ParseState} {k : TokenKind} {r : Record} {t : Shorter s}
    (hk : s.checkKind k = true) (e : s.advance = .ok (r, t)) (hne : k ≠ .parOp) :
    Tracks s t.1 :=
  tracks_advance e (by rw [kind_of_checkKind hk e]; exact hne)

/-- An opener is pushed. -/
theorem opener_ok {s : ParseState} {c : Char} {r : Record} {t : Shorter s}
    (e : s.bracket c = .ok (r, t)) (hc : c = '{' ∨ c = '(') :
    Tracks s t.1 ∧ t.1.brackets.stack = c :: s.brackets.stack :=
  ⟨tracks_bracket e, by rw [(bracket_stack e).2.2, stepStack, if_pos hc]⟩

/-- A closer pops its partner from the top. -/
theorem closer_ok {u : ParseState} {c o : Char} {b : List Char} {r : Record} {v : Shorter u}
    (e : u.bracket c = .ok (r, v)) (ho : openerOf? c = some o) (hu : u.brackets.stack = o :: b) :
    Tracks u v.1 ∧ v.1.brackets.stack = b := by
  have hclose := Brackets.closer_of_openerOf? ho
  have hopen : ¬ (c = '{' ∨ c = '(') := by
    rcases hclose with rfl | rfl <;> decide
  refine ⟨tracks_bracket e, ?_⟩
  rw [(bracket_stack e).2.2, stepStack, if_neg hopen, if_pos hclose, hu]
  rfl

end ParseState

/-! ### Arithmetic -/

open ParseState Reply

/-- The seven arithmetic productions leave the stack they found when they succeed, by their
mutual induction; a factor in parentheses closes the parenthesis it opened. -/
theorem arith_brackets_all :
    (∀ s, (arith s).Brackets s.brackets.stack) ∧ (∀ s, (arithMore s).Brackets s.brackets.stack) ∧
    (∀ s, (term s).Brackets s.brackets.stack) ∧ (∀ s, (termMore s).Brackets s.brackets.stack) ∧
    (∀ s, (chunk s).Brackets s.brackets.stack) ∧ (∀ s, (chunkMore s).Brackets s.brackets.stack) ∧
    (∀ s, (factor s).Brackets s.brackets.stack) := by
  apply arith.mutual_induct (fun s => (arith s).Brackets s.brackets.stack)
    (fun s => (arithMore s).Brackets s.brackets.stack) (fun s => (term s).Brackets s.brackets.stack)
    (fun s => (termMore s).Brackets s.brackets.stack) (fun s => (chunk s).Brackets s.brackets.stack)
    (fun s => (chunkMore s).Brackets s.brackets.stack)
    (fun s => (factor s).Brackets s.brackets.stack)
  · intro s hk e ha
    rw [arith, if_pos hk, ha]
    exact brackets_fail (ParseError.wellBracketed_of_not_bracket (advance_error ha))
  · intro s hk sign t h ha hminus zero tables hint t' _ ihTerm ihMore
    obtain ⟨rfl, rfl⟩ : zero = (t.tables.internValue (.int 0)).1 ∧
        tables = (t.tables.internValue (.int 0)).2 := by rw [hint]; exact ⟨rfl, rfl⟩
    rw [arith, if_pos hk, ha]
    simp only [if_pos hminus]
    have hst : Tracks s t' := (tracks_checked hk ha (by decide)).trans (tracks_of_eq rfl rfl)
    have hstack : t'.brackets.stack = s.brackets.stack := by
      show t.brackets.stack = _
      rw [advance_brackets ha]
    refine Brackets.widen _ hst (Brackets.andThen (ihTerm.stack_eq hstack) fun u hu _ hus => ?_)
    exact Brackets.widen _ (tracks_emit u _) ((ihMore u hu).stack_eq hus)
  · intro s hk sign t h ha hminus ihTerm ihMore
    rw [arith, if_pos hk, ha]
    simp only [if_neg hminus]
    have hstack : t.brackets.stack = s.brackets.stack := by rw [advance_brackets ha]
    refine Brackets.widen _ (tracks_checked hk ha (by decide))
      (Brackets.andThen (ihTerm.stack_eq hstack) fun u hu _ hus => (ihMore u hu).stack_eq hus)
  · intro s hk ihTerm ihMore
    rw [arith, if_neg hk]
    exact Brackets.andThen ihTerm fun u hu _ hus => (ihMore u hu).stack_eq hus
  · intro s hk e ha
    rw [arithMore, if_pos hk, ha]
    exact brackets_fail (ParseError.wellBracketed_of_not_bracket (advance_error ha))
  · intro s hk op t h ha ihTerm ihMore
    rw [arithMore, if_pos hk, ha]
    have hstack : t.brackets.stack = s.brackets.stack := by rw [advance_brackets ha]
    refine Brackets.widen _ (tracks_checked hk ha (by decide))
      (Brackets.andThen (ihTerm.stack_eq hstack) fun u hu _ hus => ?_)
    exact Brackets.widen _ (tracks_emit u _) ((ihMore u hu).stack_eq hus)
  · intro s hk
    rw [arithMore, if_neg hk]
    exact brackets_ok (Tracks.refl s) rfl
  · intro s ihChunk ihMore
    rw [term]
    exact Brackets.andThen ihChunk fun u hu _ hus => (ihMore u hu).stack_eq hus
  · intro s hk e ha
    rw [termMore, if_pos hk, ha]
    exact brackets_fail (ParseError.wellBracketed_of_not_bracket (advance_error ha))
  · intro s hk op t h ha ihChunk ihMore
    rw [termMore, if_pos hk, ha]
    have hstack : t.brackets.stack = s.brackets.stack := by rw [advance_brackets ha]
    refine Brackets.widen _ (tracks_checked hk ha (by decide))
      (Brackets.andThen (ihChunk.stack_eq hstack) fun u hu _ hus => ?_)
    exact Brackets.widen _ (tracks_emit u _) ((ihMore u hu).stack_eq hus)
  · intro s hk
    rw [termMore, if_neg hk]
    exact brackets_ok (Tracks.refl s) rfl
  · intro s ihFactor ihMore
    rw [chunk]
    exact Brackets.andThen ihFactor fun u hu _ hus => (ihMore u hu).stack_eq hus
  · intro s hk e ha
    rw [chunkMore, if_pos hk, ha]
    exact brackets_fail (ParseError.wellBracketed_of_not_bracket (advance_error ha))
  · intro s hk op t h ha ihFactor ihMore
    rw [chunkMore, if_pos hk, ha]
    have hstack : t.brackets.stack = s.brackets.stack := by rw [advance_brackets ha]
    refine Brackets.widen _ (tracks_checked hk ha (by decide))
      (Brackets.andThen (ihFactor.stack_eq hstack) fun u hu _ hus => ?_)
    exact Brackets.widen _ (tracks_emit u _) ((ihMore u hu).stack_eq hus)
  · intro s hk
    rw [chunkMore, if_neg hk]
    exact brackets_ok (Tracks.refl s) rfl
  · intro s hs
    simp only [factor, hs]
    exact brackets_fail (ParseError.wellBracketed_of_not_bracket fun b hb => by cases hb)
  · intro s r tail hs hop e ha
    simp only [factor, hs]
    simp only [if_pos hop, ha]
    exact brackets_fail (ParseError.wellBracketed_of_not_bracket (advance_error ha))
  · intro s r tail hs hop r' t h ha
    simp only [factor, hs]
    simp only [if_pos hop, ha]
    obtain ⟨rfl, -⟩ := List.cons.inj (hs.symm.trans (advance_ok ha).1)
    have hk : r.kind ≠ .parOp := by
      intro hk
      rw [hk] at hop
      cases hop
    exact brackets_ok ((tracks_advance ha hk).trans (tracks_emit t _))
      (by show t.brackets.stack = _; rw [advance_brackets ha])
  · intro s r tail hs hop hpar e hb
    simp only [factor, hs]
    simp only [if_neg hop, if_pos hpar, hb]
    exact brackets_fail (bracket_error (closable_of_opener (.inr rfl)) hb)
  -- the parenthesis opened here is on top again when the inner expression ends
  · intro s r tail hs hop hpar lp t h hb ihArith
    simp only [factor, hs]
    simp only [if_neg hop, if_pos hpar, hb]
    obtain ⟨hst, hstack⟩ := opener_ok hb (.inr rfl)
    refine Brackets.widen _ hst (Brackets.andThen ihArith fun u _ _ hu => ?_)
    split
    · rename_i e hbr
      exact brackets_fail (bracket_error (closable_of_top rfl (hu.trans hstack)) hbr)
    · rename_i v _ hbr
      obtain ⟨htv, hv⟩ := closer_ok hbr rfl (hu.trans hstack)
      exact brackets_ok htv hv
  · intro s r tail hs hop hpar
    simp only [factor, hs]
    simp only [if_neg hop, if_neg hpar]
    exact brackets_fail (ParseError.wellBracketed_of_not_bracket (unexpected_fault _ _))

/-- An arithmetic expression leaves the stack it found when it succeeds. -/
theorem arith_brackets (s : ParseState) : (arith s).Brackets s.brackets.stack :=
  arith_brackets_all.1 s

/-! ### Conditions and right sides -/

/-- A comparison leaves the stack it found when it succeeds. -/
theorem comparison_brackets (s : ParseState) : (comparison s).Brackets s.brackets.stack := by
  unfold comparison
  refine Brackets.andThen (arith_brackets s) fun t _ _ ht => ?_
  split
  · rename_i e he
    exact brackets_fail (ParseError.wellBracketed_of_not_bracket (expectKind_error he))
  · rename_i u _ he
    have hu : u.brackets.stack = s.brackets.stack := by
      rw [advance_brackets (expectKind_ok he).2, ht]
    refine Brackets.widen _ (tracks_expectKind he (by decide))
      (Brackets.andThen ((arith_brackets u).stack_eq hu) fun v _ _ hv => ?_)
    exact brackets_ok (tracks_emit v _) hv

/-- A comparison between parentheses closes the parenthesis it opened. -/
theorem parenComparison_brackets (s : ParseState) :
    (parenComparison s).Brackets s.brackets.stack := by
  unfold parenComparison
  split
  · rename_i e hb
    exact brackets_fail (bracket_error (closable_of_opener (.inr rfl)) hb)
  · rename_i t _ hb
    obtain ⟨hst, hstack⟩ := opener_ok hb (.inr rfl)
    refine Brackets.widen _ hst (Brackets.andThen (comparison_brackets t) fun u _ _ hu => ?_)
    split
    · rename_i e hbr
      exact brackets_fail (bracket_error (closable_of_top rfl (hu.trans hstack)) hbr)
    · rename_i v _ hbr
      obtain ⟨htv, hv⟩ := closer_ok hbr rfl (hu.trans hstack)
      exact brackets_ok htv hv

/-- A condition leaves the stack it found when it succeeds, after a failed attempt at a
parenthesised comparison too. -/
theorem condition_brackets (s : ParseState) : (condition s).Brackets s.brackets.stack := by
  unfold condition
  split
  · -- a truth literal
    rename_i hk
    split
    · rename_i e ha
      exact brackets_fail (ParseError.wellBracketed_of_not_bracket (advance_error ha))
    · rename_i t _ ha
      exact brackets_ok ((tracks_checked hk ha (by decide)).trans (tracks_emit t _))
        (by show t.brackets.stack = _; rw [advance_brackets ha])
  · split
    · -- a parenthesised comparison is attempted first, a plain one after its rollback
      split
      · rename_i heq
        obtain ⟨ht, hb⟩ := (parenComparison_brackets s.enter).attempt_ok heq
        exact brackets_ok ht hb
      · rename_i t _ heq
        obtain ⟨ht, hb⟩ := attempt_error heq
        exact Brackets.widen _ ht ((comparison_brackets t).stack_eq (by rw [hb]))
    · exact comparison_brackets s

/-- The right side of an assignment leaves the stack it found when it succeeds, after failed
attempts too. -/
theorem expression_brackets (s : ParseState) : (expression s).Brackets s.brackets.stack := by
  unfold expression
  split
  · rename_i heq
    obtain ⟨ht, hb⟩ := (condition_brackets s.enter).attempt_ok heq
    exact brackets_ok ht hb
  · rename_i t _ heq
    obtain ⟨ht, htb⟩ := attempt_error heq
    split
    · rename_i heq'
      obtain ⟨hu, hb⟩ := (arith_brackets t.enter).attempt_ok heq'
      exact brackets_ok (ht.trans hu) (hb.trans (by show t.brackets.stack = _; rw [htb]))
    · rename_i u _ heq'
      obtain ⟨hu, -⟩ := attempt_error heq'
      exact brackets_error (ht.trans hu)
        (ParseError.wellBracketed_of_not_bracket fun b hb => by cases hb)

/-! ### Declarations and statements -/

/-- A failed declaration is a duplicate, never a bracket error. -/
theorem declare_error {t : Tables} {name : Record} {ty : Ty} {e : ParseError}
    (h : t.declare name ty = .error e) : ∀ b, e.fault ≠ .bracket b := by
  unfold Tables.declare at h
  split at h
  · split at h
    · cases h
      intro b hb
      cases hb
    · cases h
  · cases h

/-- Consuming the head record, which is not of the bracket kind. -/
theorem tracks_head {s : ParseState} {r r' : Record} {tail : List Record} {t : Shorter s}
    (hs : s.rest = r :: tail) (e : s.advance = .ok (r', t)) (hk : r.kind ≠ .parOp) :
    Tracks s t.1 := by
  obtain ⟨rfl, -⟩ := List.cons.inj (hs.symm.trans (advance_ok e).1)
  exact tracks_advance e hk

/-- A list of declared names consumes no bracket and leaves the stack. -/
theorem declNames_brackets (ty : Ty) (s : ParseState) :
    (declNames s ty).Brackets s.brackets.stack := by
  induction s using declNames.induct ty with
  | case1 s e he =>
    rw [declNames, he]
    exact brackets_fail (ParseError.wellBracketed_of_not_bracket (expectKind_error he))
  | case2 s name t h he e hd =>
    rw [declNames, he]
    simp only [hd]
    exact brackets_error (tracks_expectKind he (by decide))
      (ParseError.wellBracketed_of_not_bracket (declare_error hd))
  | case3 s name t h he tables hd t' _ hc e ha =>
    rw [declNames, he]
    simp only [hd]
    rw [if_pos hc, ha]
    exact brackets_error ((tracks_expectKind he (by decide)).trans (tracks_of_eq rfl rfl))
      (ParseError.wellBracketed_of_not_bracket (advance_error ha))
  | case4 s name t h he tables hd t' _ hc comma u hu ha ih =>
    rw [declNames, he]
    simp only [hd]
    rw [if_pos hc, ha]
    -- the comma is a separator, not a bracket
    have hcomma : Tracks t' u := tracks_advance ha (by rw [Record.kind_of_is (is_of_check hc ha)]; decide)
    have hst : Tracks s u :=
      ((tracks_expectKind he (by decide)).trans (tracks_of_eq rfl rfl)).trans hcomma
    have hstack : u.brackets.stack = s.brackets.stack := by
      rw [advance_brackets ha]
      show t.brackets.stack = _
      rw [advance_brackets (expectKind_ok he).2]
    exact Brackets.widen _ hst (ih.stack_eq hstack)
  | case5 s name t h he tables hd t' _ hc =>
    rw [declNames, he]
    simp only [hd]
    rw [if_neg hc]
    exact brackets_ok ((tracks_expectKind he (by decide)).trans (tracks_of_eq rfl rfl))
      (by show t.brackets.stack = _; rw [advance_brackets (expectKind_ok he).2])

/-- Declarations consume no bracket and leave the stack. -/
theorem declarations_brackets (s : ParseState) :
    (declarations s).Brackets s.brackets.stack := by
  induction s using declarations.induct with
  | case1 s hty =>
    rw [declarations, hty]
    exact brackets_ok (Tracks.refl s) rfl
  | case2 s ty hty e ha =>
    rw [declarations, hty]
    simp only [ha]
    exact brackets_fail (ParseError.wellBracketed_of_not_bracket (advance_error ha))
  | case3 s ty hty kw t h ha ih =>
    rw [declarations, hty]
    simp only [ha]
    have hkw : Tracks s t := tracks_advance ha (by rw [(declaredType?_some hty ha).1]; decide)
    have hstack : t.brackets.stack = s.brackets.stack := by rw [advance_brackets ha]
    refine Brackets.widen _ hkw
      (Brackets.andThen ((declNames_brackets ty t).stack_eq hstack) fun u hu _ hus => ?_)
    split
    · rename_i e he
      exact brackets_fail (ParseError.wellBracketed_of_not_bracket (expect_error he))
    · rename_i v hv he
      have hvs : v.brackets.stack = s.brackets.stack := by
        rw [advance_brackets (expect_ok he).2, hus]
      exact Brackets.widen _ (tracks_expect he (by decide)) ((ih u hu v hv).stack_eq hvs)

/-- An assignment leaves the stack it found when it succeeds. -/
theorem assignRest_brackets (s : ParseState) (target : Record) :
    (assignRest s target).Brackets s.brackets.stack := by
  have hs := tracks_emit s (.ofRecord target)
  unfold assignRest
  dsimp only
  split
  · exact brackets_error hs (ParseError.wellBracketed_of_not_bracket fun b hb => by cases hb)
  · rename_i r tail hr
    split
    · rename_i hassign
      split
      · rename_i e ha
        exact brackets_error hs (ParseError.wellBracketed_of_not_bracket (advance_error ha))
      · rename_i t _ ha
        have hop : Tracks (s.emit (.ofRecord target)) t :=
          tracks_head hr ha (by rw [Record.kind_of_is hassign]; decide)
        have hstack : t.brackets.stack = s.brackets.stack := by
          rw [advance_brackets ha]
          rfl
        refine Brackets.widen _ (hs.trans hop)
          (Brackets.andThen ((expression_brackets t).stack_eq hstack) fun u _ _ hu => ?_)
        split
        · rename_i e he
          exact brackets_fail (ParseError.wellBracketed_of_not_bracket (expect_error he))
        · rename_i v _ he
          exact brackets_ok ((tracks_expect he (by decide)).trans (tracks_emit v _))
            (by show v.brackets.stack = _; rw [advance_brackets (expect_ok he).2, hu])
    · exact brackets_error hs (ParseError.wellBracketed_of_not_bracket fun b hb => by cases hb)

/-- The names of an `input` or `print` list consume no bracket and leave the stack. -/
theorem ioNames_brackets (kw : Record) (s : ParseState) :
    (ioNames s kw).Brackets s.brackets.stack := by
  induction s using ioNames.induct kw with
  | case1 s e he =>
    rw [ioNames, he]
    exact brackets_fail (ParseError.wellBracketed_of_not_bracket (expectKind_error he))
  | case2 s name t h he t' _ hc e ha =>
    rw [ioNames, he]
    simp only
    rw [if_pos hc, ha]
    exact brackets_error ((tracks_expectKind he (by decide)).trans (tracks_of_eq rfl rfl))
      (ParseError.wellBracketed_of_not_bracket (advance_error ha))
  | case3 s name t h he t' _ hc comma u hu ha ih =>
    rw [ioNames, he]
    simp only
    rw [if_pos hc, ha]
    have hcomma : Tracks t' u :=
      tracks_advance ha (by rw [Record.kind_of_is (is_of_check hc ha)]; decide)
    have hstack : u.brackets.stack = s.brackets.stack := by
      rw [advance_brackets ha]
      show t.brackets.stack = _
      rw [advance_brackets (expectKind_ok he).2]
    exact Brackets.widen _
      (((tracks_expectKind he (by decide)).trans (tracks_of_eq rfl rfl)).trans hcomma)
      (ih.stack_eq hstack)
  | case4 s name t h he t' _ hc =>
    rw [ioNames, he]
    simp only
    rw [if_neg hc]
    exact brackets_ok ((tracks_expectKind he (by decide)).trans (tracks_of_eq rfl rfl))
      (by show t.brackets.stack = _; rw [advance_brackets (expectKind_ok he).2])

/-- An `input` or `print` list closes the parenthesis it opened. -/
theorem ioRest_brackets (s : ParseState) (kw : Record) :
    (ioRest s kw).Brackets s.brackets.stack := by
  unfold ioRest
  split
  · rename_i e hb
    exact brackets_fail (bracket_error (closable_of_opener (.inr rfl)) hb)
  · rename_i t _ hb
    obtain ⟨hst, hstack⟩ := opener_ok hb (.inr rfl)
    refine Brackets.widen _ hst (Brackets.andThen (ioNames_brackets kw t) fun u _ _ hu => ?_)
    split
    · rename_i e hbr
      exact brackets_fail (bracket_error (closable_of_top rfl (hu.trans hstack)) hbr)
    · rename_i v _ hbr
      obtain ⟨htv, hv⟩ := closer_ok hbr rfl (hu.trans hstack)
      split
      · rename_i e he
        exact brackets_error htv (ParseError.wellBracketed_of_not_bracket (expect_error he))
      · rename_i w _ he
        exact brackets_ok (htv.trans (tracks_expect he (by decide)))
          (by rw [advance_brackets (expect_ok he).2, hv])

/-- Blocks, statement lists and the `if` and `do` statements close the brackets they open, by
their mutual induction. -/
theorem block_brackets_all :
    (∀ s, (block s).Brackets s.brackets.stack) ∧ (∀ s, (statements s).Brackets s.brackets.stack) ∧
    (∀ s, (doRest s).Brackets s.brackets.stack) ∧ (∀ s, (ifRest s).Brackets s.brackets.stack) := by
  apply block.mutual_induct (fun s => (block s).Brackets s.brackets.stack)
    (fun s => (statements s).Brackets s.brackets.stack)
    (fun s => (doRest s).Brackets s.brackets.stack) (fun s => (ifRest s).Brackets s.brackets.stack)
  · intro s e hb
    rw [block, hb]
    exact brackets_fail (bracket_error (closable_of_opener (.inl rfl)) hb)
  · intro s lb t h hb ih
    rw [block, hb]
    obtain ⟨hst, hstack⟩ := opener_ok hb (.inl rfl)
    refine Brackets.widen _ hst (Brackets.andThen ih fun u _ _ hu => ?_)
    split
    · rename_i e hbr
      exact brackets_fail (bracket_error (closable_of_top rfl (hu.trans hstack)) hbr)
    · rename_i v _ hbr
      obtain ⟨htv, hv⟩ := closer_ok hbr rfl (hu.trans hstack)
      exact brackets_ok htv hv
  · intro s hs
    rw [statements]
    simp only [hs]
    exact brackets_ok (Tracks.refl s) rfl
  · intro s r tail hs hclose
    rw [statements]
    simp only [hs]
    rw [if_pos hclose]
    exact brackets_ok (Tracks.refl s) rfl
  · intro s r tail hs hclose hstart e ha
    rw [statements]
    simp only [hs]
    rw [if_neg hclose, if_pos hstart, ha]
    exact brackets_fail (ParseError.wellBracketed_of_not_bracket (advance_error ha))
  · intro s r tail hs hclose hstart first t h ha ihIf ihDo ihStmts
    rw [statements]
    simp only [hs]
    rw [if_neg hclose, if_pos hstart, ha]
    -- a statement starts with an identifier or a keyword, never with a bracket
    have hk : r.kind ≠ .parOp := by
      intro hk
      simp [hk] at hstart
    have hstack : t.brackets.stack = s.brackets.stack := by rw [advance_brackets ha]
    have hbody : (if first.kind = .ident then assignRest t first
        else if first.lexeme = "if" then ifRest t
        else if first.lexeme = "do" then doRest t
        else ioRest t first).Brackets s.brackets.stack := by
      refine Reply.Brackets.stack_eq ?_ hstack
      split
      · exact assignRest_brackets t first
      · split
        · exact ihIf
        · split
          · exact ihDo
          · exact ioRest_brackets t first
    refine Brackets.widen _ (tracks_head hs ha hk)
      (Brackets.andThen hbody fun u hu _ hus => ?_)
    exact Brackets.widen _ (Tracks.refl u) ((ihStmts u hu).stack_eq hus)
  · intro s r tail hs hclose hstart
    rw [statements]
    simp only [hs]
    rw [if_neg hclose, if_neg hstart]
    exact brackets_fail (ParseError.wellBracketed_of_not_bracket fun b hb => by cases hb)
  · intro s s' _ ih
    rw [doRest]
    refine Brackets.widen _ (tracks_emit s _) (Brackets.andThen ih fun t _ _ ht => ?_)
    split
    · rename_i e he
      exact brackets_fail (ParseError.wellBracketed_of_not_bracket (expect_error he))
    · rename_i u _ he
      have hu : u.brackets.stack = s.brackets.stack := by
        rw [advance_brackets (expect_ok he).2, ht]
        rfl
      split
      · rename_i e hbl
        exact brackets_error (tracks_expect he (by decide))
          (bracket_error (closable_of_opener (.inr rfl)) hbl)
      · rename_i v _ hbl
        obtain ⟨hsv, hstack⟩ := opener_ok hbl (.inr rfl)
        refine Brackets.widen _ ((tracks_expect he (by decide)).trans hsv)
          (Brackets.andThen (condition_brackets v) fun w _ _ hw => ?_)
        have hw' : w.brackets.stack = '(' :: s.brackets.stack := by rw [hw, hstack, hu]
        split
        · rename_i e hbr
          exact brackets_fail (bracket_error (closable_of_top rfl hw') hbr)
        · rename_i x _ hbr
          obtain ⟨hwx, hx⟩ := closer_ok hbr rfl hw'
          exact brackets_ok (hwx.trans (tracks_emit x _)) hx
  · intro s e hb
    rw [ifRest, hb]
    exact brackets_fail (bracket_error (closable_of_opener (.inr rfl)) hb)
  · intro s lp t h hb ihBlock
    rw [ifRest, hb]
    obtain ⟨hst, hstack⟩ := opener_ok hb (.inr rfl)
    refine Brackets.widen _ hst (Brackets.andThen (condition_brackets t) fun u hu _ hut => ?_)
    split
    · rename_i e hbr
      exact brackets_fail (bracket_error (closable_of_top rfl (hut.trans hstack)) hbr)
    · rename_i v hv hbr
      obtain ⟨htv, hvs⟩ := closer_ok hbr rfl (hut.trans hstack)
      refine Brackets.widen _ htv
        (Brackets.andThen ((ihBlock u hu v hv).stack_eq hvs) fun w _ _ hw => ?_)
      exact brackets_ok (tracks_emit w _) hw

/-- A statement block leaves the stack it found when it succeeds. -/
theorem block_brackets (s : ParseState) : (block s).Brackets s.brackets.stack :=
  block_brackets_all.1 s

/-! ### Programs -/

/-- A program read from a state with no bracket open closes the brace it opened, so the check
that every bracket is closed after its final brace always passes. -/
theorem program_brackets (s : ParseState) (hs : s.brackets.stack = []) :
    (program s).Brackets [] := by
  unfold program
  split
  · rename_i e he
    exact brackets_fail (ParseError.wellBracketed_of_not_bracket (expect_error he))
  · rename_i s1 _ he1
    have h1 : Tracks s s1 := tracks_expect he1 (by decide)
    split
    · rename_i e he2
      exact brackets_error h1 (ParseError.wellBracketed_of_not_bracket (expectKind_error he2))
    · rename_i s2 _ he2
      have h2 : Tracks s s2 := h1.trans (tracks_expectKind he2 (by decide))
      have hs2 : s2.brackets.stack = [] := by
        rw [advance_brackets (expectKind_ok he2).2, advance_brackets (expect_ok he1).2, hs]
      split
      · rename_i e hb3
        exact brackets_error h2 (bracket_error (closable_of_opener (.inl rfl)) hb3)
      · rename_i s3 _ hb3
        obtain ⟨h3, hs3⟩ := opener_ok hb3 (.inl rfl)
        rw [hs2] at hs3
        refine Brackets.widen _ (h2.trans h3)
          (Brackets.andThen (declarations_brackets s3) fun s4 _ _ h4 => ?_)
        refine Brackets.andThen ((block_brackets s4).stack_eq h4) fun s5 _ _ h5 => ?_
        rw [hs3] at h5
        split
        · rename_i e hb6
          exact brackets_fail (bracket_error (closable_of_top rfl h5) hb6)
        · rename_i s6 _ hb6
          obtain ⟨h6, hs6⟩ := closer_ok hb6 rfl h5
          split
          · rename_i e hu
            rw [(Brackets.unclosed?_eq_none_iff _).mpr hs6] at hu
            cases hu
          · split
            · exact brackets_ok h6 hs6
            · exact brackets_error h6
                (ParseError.wellBracketed_of_not_bracket (unexpected_fault _ _))

/-- A parse runs the program production from a state that holds the records, with no bracket
open, empty logs and no attempt active; it fails with the production's error. -/
theorem parse_start (records : List Record) (tables : Tables) :
    ∃ s : ParseState, s.rest = records ∧ s.brackets.stack = [] ∧ s.held = [] ∧ s.traced = [] ∧
      s.depth = 0 ∧ (parse records tables).1.toList = (program s).state.traced.reverse ∧
      (∀ e, (parse records tables).2 = .error e → (program s).result = .error e) ∧
      ((parse records tables).2.isOk = true → (program s).result = .ok ()) := by
  -- the state is the one `parse` builds, read off its traced records
  refine ⟨_, ?_, ?_, ?_, ?_, ?_, rfl, fun e h => ?_, fun h => ?_⟩
  · rfl
  · rfl
  · rfl
  · rfl
  · rfl
  · simp only [parse, Except.map] at h
    split at h
    · cases h
      assumption
    · cases h
  · simp only [parse, Except.map] at h
    split at h
    · simp [Except.isOk, Except.toBool] at h
    · rename_i u hres
      cases u
      exact hres

/-- A parse never fails with a closer that closes the wrong bracket or nothing. When it fails
with open brackets, it has consumed and traced all its records and reports a nonempty list:
as long as only records of the bracket kind are spelled as brackets, the list of the brackets
the records leave open, outermost first. The records of an accepted parse close every bracket
they open. -/
theorem parse_bracket_reports (records : List Record) (tables : Tables) :
    (∀ e, (parse records tables).2 = .error e →
      (∀ o c, e.fault ≠ .bracket (.mismatched o c)) ∧
      (∀ c, e.fault ≠ .bracket (.nothingToClose c)) ∧
      ∀ os, e.fault = .bracket (.unclosed os) →
        (parse records tables).1.toList = records ∧ os ≠ [] ∧
          (BracketsTagged records → os = (openAfter [] records).reverse)) ∧
    ((parse records tables).2.isOk = true → BracketsTagged records →
      openAfter [] records = []) := by
  obtain ⟨s, hrest, hstack, hheld, htraced, hdepth, hparse, herr, hok⟩ := parse_start records tables
  obtain ⟨⟨ys, hys, htrack⟩, hpok, hperr⟩ := program_brackets s hstack
  -- the records consumed are all the records once none is left
  have hall : (program s).state.rest = [] → ys = records := by
    intro hnil
    rw [← hrest, hys, hnil, List.append_nil]
  refine ⟨fun e he => ?_, fun hisOk htag => ?_⟩
  · obtain ⟨hmis, hnothing, hunclosed⟩ := hperr e (herr e he)
    refine ⟨hmis, hnothing, fun os hos => ?_⟩
    obtain ⟨hnil, hne, hos'⟩ := hunclosed os hos
    have htraced' := program_traced hheld htraced hdepth
    rw [hnil, List.append_nil, hrest] at htraced'
    refine ⟨hparse.trans htraced', by simpa [hos'] using hne, fun htag => ?_⟩
    rw [hos', htrack (hall hnil ▸ htag), hall hnil, hstack]
  · -- an accepted program leaves no record unread and no bracket open
    have hres := hok hisOk
    obtain ⟨-, -, hempty, -⟩ := (program_sound s).2 hres
    have hfinal := htrack (hall hempty ▸ htag)
    rw [hstack, hall hempty] at hfinal
    rw [← hfinal]
    exact hpok hres

end RpnLang
