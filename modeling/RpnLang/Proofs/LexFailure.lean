import RpnLang.Proofs.LongestMatch

/-!
# Where and why lexing fails

The lexer reads greedily: it adds the next character to the pending lexeme as long as the two
still begin a token (`Viable`), and closes the lexeme only when they do not (`Closed`). So it
never backtracks. When the pending characters are no token and cannot grow into one with the
next character, the lexer refuses that character (`Breaks`): a character that starts no token,
a `!` without `=`, a decimal point or an exponent mark without what must follow. A token that
is a literal out of range is refused at the character that closes it.

`Fails n s e` describes, without the automaton, how the scan of `s` from line `n` fails: blanks,
line feeds and closed tokens in range are passed over, and then a lexeme breaks or a literal out
of range is closed, at the character and on the line that the error names.

Main statement, `lex_error_first_break`: whenever lexing fails, its error is this failure of
the scan of the source; the failing character stands in the source after text whose line feeds
give the error's line, and the fault is one of the five the scan can give, never a missing
transition or an unclassified lexeme. The failure is unique (`Fails.unique`), so the error is
the first place where the greedy scan breaks.
-/

namespace RpnLang

open Automaton SymbolClass

namespace Lexical

/-! ### The scan's failures -/

/-- The characters begin a token. -/
def Viable (u : List Char) : Prop :=
  ∃ v, IsToken (u ++ v)

/-- The next character of `s`, if any, does not continue `t` towards a token: the greedy scan
closes `t` before `s`. -/
def Closed (t s : List Char) : Prop :=
  ∀ c rest, s = c :: rest → ¬ Viable (t ++ [c])

/-- The pending characters `p` cannot be continued by `c`, and the refusal that gives. -/
inductive Breaks : List Char → Char → LexFault → Prop
  /-- Nothing is pending and no token starts with `c`, which is not layout either. -/
  | unexpected {c : Char} : c.isLower = false → c.isDigit = false → isLayout c = false →
      c ∉ operatorStarts → Breaks [] c .unexpectedSymbol
  /-- A `!` not followed by `=`. -/
  | bang {c : Char} : c ≠ '=' → Breaks ['!'] c .expectedEq
  /-- Digits and a decimal point not followed by a digit. -/
  | point {a : List Char} {c : Char} : Digits a → c.isDigit = false →
      Breaks (a ++ ['.']) c .expectedDigit
  /-- A real and the exponent mark followed by neither `-` nor a digit. -/
  | mark {f : List Char} {c : Char} : FloatShaped f → c ≠ '-' → c.isDigit = false →
      Breaks (f ++ ['E']) c .expectedSignOrDigit
  /-- A real, the exponent mark and `-` not followed by a digit. -/
  | sign {f : List Char} {c : Char} : FloatShaped f → c.isDigit = false →
      Breaks (f ++ ['E', '-']) c .expectedSignOrDigit

/-- Scanning `s` from line `n` greedily fails with `e`: layout and closed tokens in range are
passed over until a lexeme breaks or a literal out of range is closed. -/
inductive Fails : Nat → List Char → LexError → Prop
  | blank {n : Nat} {c : Char} {s : List Char} {e : LexError} :
      (c = ' ' ∨ c = '\t') → Fails n s e → Fails n (c :: s) e
  | newline {n : Nat} {s : List Char} {e : LexError} :
      Fails (n + 1) s e → Fails n ('\n' :: s) e
  | token {n : Nat} {t s : List Char} {k : TokenKind} {e : LexError} :
      Lexeme t k → Closed t s → InRange t k → Fails n s e → Fails n (t ++ s) e
  /-- A literal out of range is refused at the character that closes it. -/
  | outOfRange {n : Nat} {t s : List Char} {c : Char} {k : TokenKind} :
      Lexeme t k → Closed t (c :: s) → ¬ InRange t k →
        Fails n (t ++ c :: s) ⟨n, c, .literalOutOfRange⟩
  /-- A lexeme breaks at `c`. -/
  | breaks {n : Nat} {p s : List Char} {c : Char} {f : LexFault} :
      Breaks p c f → Fails n (p ++ c :: s) ⟨n, c, f⟩

/-! ### The greedy scan and the automaton -/

/-- Once the walk along `p` cannot keep `c`, the only token that `p` and `c` begin is `p ++ [c]`
itself, finished by `c`. -/
theorem token_through {p v : List Char} {q : Nat} {c : Char} (hw : walk 0 p = some q)
    (hk : keepStep? q c = none) (hv : IsToken (p ++ c :: v)) :
    v = [] ∧ ∃ t, next? q (ofChar c) = some t ∧ disposition t = .finish := by
  obtain ⟨k, hlex⟩ := hv
  rcases tokenPath_bound (Lexeme.path hlex) hw hk (List.prefix_refl (p ++ c :: v)) with h | ⟨h, hf⟩
  · simp only [List.length_append, List.length_cons] at h
    omega
  · exact ⟨by simpa using h, hf⟩

/-- A character that the walk along `p` neither keeps nor finishes on does not continue `p`. -/
theorem not_viable_of_next {p : List Char} {q t : Nat} {c : Char} (hw : walk 0 p = some q)
    (hn : next? q (ofChar c) = some t) (hk : disposition t ≠ .keep)
    (hf : disposition t ≠ .finish) : ¬ Viable (p ++ [c]) := by
  rintro ⟨v, hv⟩
  have hnone : keepStep? q c = none := by simp [keepStep?, hn, hk]
  obtain ⟨-, t', hn', hf'⟩ := token_through hw hnone (by simpa using hv)
  rw [hn] at hn'
  cases hn'
  exact hf hf'

/-- A retracting character does not continue the pending lexeme. -/
theorem closed_retract {p s : List Char} {q t : Nat} {c : Char} (hw : walk 0 p = some q)
    (hn : next? q (ofChar c) = some t) (hr : disposition t = .retract) : Closed p (c :: s) := by
  intro d rest hs
  obtain ⟨rfl, -⟩ := List.cons.inj hs
  exact not_viable_of_next hw hn (by rw [hr]; decide) (by rw [hr]; decide)

/-- An operator finished by its character is continued by nothing. -/
theorem closed_finish {p s : List Char} {q t : Nat} {c : Char} (hw : walk 0 p = some q)
    (hn : next? q (ofChar c) = some t) (hf : disposition t = .finish) : Closed (p ++ [c]) s := by
  intro d rest _ hv
  obtain ⟨v, hv⟩ := hv
  have hk : keepStep? q c = none := by simp [keepStep?, hn, hf]
  obtain ⟨hnil, -⟩ := token_through (v := d :: v) hw hk (by simpa using hv)
  cases hnil

/-- A walk to a state in which no token is complete reads no token. -/
theorem not_isToken_of_walk {p : List Char} {q : Nat} (hw : walk 0 p = some q)
    (hq : ¬ Accepting q) : ¬ IsToken p := by
  rintro ⟨k, hk⟩
  rcases Lexeme.path hk with ⟨q', hq', ha⟩ | ⟨v, e, q', t, rfl, hv, hn, hf⟩
  · rw [hw] at hq'
    cases hq'
    exact hq ha
  · -- the finishing character is not kept, so the walk could not pass it
    have hk : keepStep? q' e = none := by simp [keepStep?, hn, hf]
    rw [walk_append, hv, Option.bind_some, walk_cons, hk, Option.bind_none] at hw
    cases hw

end Lexical

namespace Automaton

open Lexical

/-- A refused character ends the pending characters as `Breaks` says. -/
theorem Pending.breaks {q t : Nat} {p : List Char} {c : Char} (hp : Pending q p)
    (hn : next? q (ofChar c) = some t) (hr : disposition t = .reject) :
    Breaks p c (LexFault.ofState t) := by
  rcases hp.reachable with rfl | rfl | rfl | rfl | rfl | rfl | rfl | rfl | rfl | rfl <;>
    simp only [Pending] at hp
  · -- the start state refuses what starts no token and is no layout
    subst hp
    rw [next_zero] at hn
    split at hn
    · cases hn
      cases hr
    rename_i hl
    split at hn
    · cases hn
      cases hr
    rename_i hd
    split at hn
    · cases hn
      cases hr
    rename_i hb
    split at hn
    · cases hn
      cases hr
    rename_i hnl
    split at hn
    · cases hn
      cases hr
    rename_i hops
    split at hn
    · cases hn
      cases hr
    rename_i hrel
    split at hn
    · cases hn
      cases hr
    rename_i hbang
    cases hn
    refine .unexpected (by simpa using hl) (by simpa using hd) ?_ ?_
    · simp only [isLayout, Bool.or_eq_false_iff, beq_eq_false_iff_ne]
      exact ⟨⟨fun h => hb (.inl h), fun h => hb (.inr h)⟩, hnl⟩
    · have hsplit : operatorStarts = ['+', '-', '*', '/', '^', '(', ')', '{', '}', ';', ',', ':'] ++
          ['=', '<', '>'] ++ ['!'] := rfl
      rw [hsplit, List.mem_append, List.mem_append, List.mem_singleton]
      exact fun hm => hm.elim (fun hm => hm.elim hops hrel) hbang
  · rw [next_one] at hn
    split at hn <;> (cases hn; cases hr)
  · rw [next_six] at hn
    split at hn <;> (cases hn; cases hr)
  · rw [next_nine] at hn
    split at hn
    · cases hn
      cases hr
    · rename_i he
      cases hn
      subst hp
      exact .bang he
  · rw [next_ten] at hn
    split at hn <;> (try split at hn) <;> (cases hn; cases hr)
  · rw [next_eleven] at hn
    split at hn
    · cases hn
      cases hr
    · rename_i hd
      cases hn
      obtain ⟨a, ha, rfl⟩ := hp
      exact .point ha (by simpa using hd)
  · rw [next_thirteen] at hn
    split at hn <;> (cases hn; cases hr)
  · rw [next_fourteen] at hn
    split at hn <;> (try split at hn) <;> (cases hn; cases hr)
  · rw [next_fifteen] at hn
    split at hn
    · cases hn
      cases hr
    rename_i hm
    split at hn
    · cases hn
      cases hr
    rename_i hd
    cases hn
    obtain ⟨f, hf, rfl⟩ := hp
    exact .mark hf hm (by simpa using hd)
  · rw [next_seventeen] at hn
    split at hn
    · cases hn
      cases hr
    · rename_i hd
      cases hn
      obtain ⟨f, hf, rfl⟩ := hp
      exact .sign hf (by simpa using hd)

end Automaton

namespace Lexical

/-! ### Emitting -/

/-- The reserved spellings are in range: their only constants are the truth values. -/
theorem InRange.of_reserved? {t : List Char} {k : TokenKind}
    (h : TokenKind.reserved? (String.ofList t) = some k) : InRange t k := by
  cases hk : k.isConstant
  · exact InRange.of_not_constant hk
  · rw [reserved?_constant h hk]
    trivial

end Lexical

namespace Lexer

open Lexical

/-- Emitting a token fails exactly for a literal out of range, at the emitting character. -/
theorem emit_cases (lx : Lexer) {t : List Char} {k : TokenKind} (c : Char) (ht : Lexeme t k) :
    (InRange t k ∧ ∃ lx', lx.emit (String.ofList t) k c = .ok lx') ∨
      (¬ InRange t k ∧ lx.emit (String.ofList t) k c = .error (lx.fail c .literalOutOfRange)) := by
  by_cases hr : InRange t k
  · exact .inl ⟨hr, emit_ok (x := ⟨0, t, k⟩) c ht hr⟩
  refine .inr ⟨hr, ?_⟩
  unfold emit
  split
  · rename_i hid
    exact absurd (InRange.of_not_constant (by rw [hid]; rfl)) hr
  · split
    · rename_i hc
      split
      · rfl
      · rename_i v hv
        exact absurd ((ht.value_isSome hc).mp (by rw [hv]; rfl)) hr
    · rename_i hc
      exact absurd (InRange.of_not_constant (by simpa using hc)) hr

theorem emit_ne_error {lx : Lexer} {t : List Char} {k : TokenKind} {c : Char} {e : LexError}
    (ht : Lexeme t k) (hr : InRange t k) : lx.emit (String.ofList t) k c ≠ .error e := by
  intro he
  obtain ⟨lx', h'⟩ := @emit_ok lx ⟨0, t, k⟩ c ht hr
  rw [he] at h'
  cases h'

theorem inRange_of_emit {lx lx' : Lexer} {t : List Char} {k : TokenKind} {c : Char}
    (ht : Lexeme t k) (h : lx.emit (String.ofList t) k c = .ok lx') : InRange t k := by
  rcases emit_cases lx c ht with ⟨hr, -⟩ | ⟨-, he⟩
  · exact hr
  · rw [he] at h
    cases h

/-! ### One step -/

/-- After a layout character from an idle lexer, what fails after it fails from it. -/
theorem layout_fails {lx lx' : Lexer} {c : Char} (hi : lx.Idle) (hc : isLayout c = true)
    (h : lx.step c = .ok lx') :
    lx'.Pends ∧ ∀ s e, Fails lx'.line (lx'.lexeme.toList ++ s) e →
      Fails lx.line (lx.lexeme.toList ++ c :: s) e := by
  have hl : lx.lexeme.toList = [] := by simp [hi.2]
  rcases layout_step hi hc with ⟨hblank, h'⟩ | ⟨rfl, h'⟩ <;> rw [h'] at h <;> cases h
  · refine ⟨hi.pends, fun s e hs => ?_⟩
    rw [hl] at hs ⊢
    exact .blank hblank hs
  · have hi' : ({ lx with line := lx.line + 1 } : Lexer).Idle := hi
    refine ⟨hi'.pends, fun s e hs => ?_⟩
    rw [hl] at hs ⊢
    exact .newline hs

/-- A step that does not retract and succeeds: what fails after it fails from before it. -/
theorem step_fails_direct {lx lx' : Lexer} {c : Char} (hp : lx.Pends)
    (hnr : ∀ t, next? lx.state (ofChar c) = some t → disposition t ≠ .retract)
    (h : lx.step c = .ok lx') :
    lx'.Pends ∧ ∀ s e, Fails lx'.line (lx'.lexeme.toList ++ s) e →
      Fails lx.line (lx.lexeme.toList ++ c :: s) e := by
  have hpend := hp.pending
  obtain ⟨t, hn⟩ := hpend.reachable.next c
  cases hd : disposition t with
  | keep =>
    have hk : keepStep? lx.state c = some t := keepStep?_eq_some.mpr ⟨hn, hd⟩
    rw [step_keep hk] at h
    cases h
    refine ⟨?_, fun s e hs => by simpa using hs⟩
    have hw : walk 0 lx.lexeme.toList = some lx.state := hp
    simp [Pends, walk_append, hw, walk_cons, hk]
  | skip =>
    obtain ⟨hq, hlay⟩ := layout_cases hpend.reachable hn (.inl hd)
    exact layout_fails (hp.idle hq) hlay h
  | newline =>
    obtain ⟨hq, hlay⟩ := layout_cases hpend.reachable hn (.inr hd)
    exact layout_fails (hp.idle hq) hlay h
  | finish =>
    -- the pending lexeme and the character form an operator, which nothing continues
    obtain ⟨k, hlex, -, hstep⟩ := step_finish_emit hp hn hd
    rw [hstep] at h
    obtain ⟨hi, hline⟩ := emit_idle h
    refine ⟨hi.pends, fun s e hfail => ?_⟩
    rw [hi.2, hline] at hfail
    simpa using Fails.token hlex (closed_finish hp hn hd) (inRange_of_emit hlex h)
      (by simpa using hfail)
  | retract => exact absurd hd (hnr t hn)
  | reject =>
    rw [step_reject hn hd] at h
    cases h

/-- A step that succeeds: what fails after it fails from before it. A retracting step closes a
token in range and then steps the character from the idle lexer. -/
theorem step_fails {lx lx' : Lexer} {c : Char} (hp : lx.Pends) (h : lx.step c = .ok lx') :
    lx'.Pends ∧ ∀ s e, Fails lx'.line (lx'.lexeme.toList ++ s) e →
      Fails lx.line (lx.lexeme.toList ++ c :: s) e := by
  by_cases hr : ∃ t, next? lx.state (ofChar c) = some t ∧ disposition t = .retract
  · obtain ⟨t, hn, hr⟩ := hr
    obtain ⟨k, hlex, hstep⟩ := step_retract_emit hp hn hr
    rw [hstep] at h
    rcases emit_cases { lx with lexeme := "", state := Automaton.start } c hlex with
      ⟨hrange, lx₁, h₁⟩ | ⟨-, h₁⟩ <;> rw [h₁] at h
    · obtain ⟨hi₁, hline₁⟩ := emit_idle h₁
      obtain ⟨hp', hf⟩ := step_fails_direct hi₁.pends (fun _ hn₁ => hi₁.no_retract hn₁) h
      refine ⟨hp', fun s e hs => ?_⟩
      have hrest := hf s e hs
      rw [hi₁.2, hline₁] at hrest
      exact Fails.token hlex (closed_retract hp hn hr) hrange (by simpa using hrest)
    · cases h
  · exact step_fails_direct hp (fun t hn hd => hr ⟨t, hn, hd⟩) h

/-- A step that does not retract and fails: it refuses the character. -/
theorem step_error_direct {lx : Lexer} {c : Char} {e : LexError} (hp : lx.Pends)
    (hnr : ∀ t, next? lx.state (ofChar c) = some t → disposition t ≠ .retract)
    (h : lx.step c = .error e) (s : List Char) : Fails lx.line (lx.lexeme.toList ++ c :: s) e := by
  have hpend := hp.pending
  obtain ⟨t, hn⟩ := hpend.reachable.next c
  cases hd : disposition t with
  | keep =>
    rw [step_keep (keepStep?_eq_some.mpr ⟨hn, hd⟩)] at h
    cases h
  | skip =>
    obtain ⟨hq, hlay⟩ := layout_cases hpend.reachable hn (.inl hd)
    rcases layout_step (hp.idle hq) hlay with ⟨-, h'⟩ | ⟨-, h'⟩ <;> rw [h'] at h <;> cases h
  | newline =>
    obtain ⟨hq, hlay⟩ := layout_cases hpend.reachable hn (.inr hd)
    rcases layout_step (hp.idle hq) hlay with ⟨-, h'⟩ | ⟨-, h'⟩ <;> rw [h'] at h <;> cases h
  | finish =>
    -- an operator is in range, so emitting it does not fail
    obtain ⟨k, hlex, hres, hstep⟩ := step_finish_emit hp hn hd
    rw [hstep] at h
    exact absurd h (emit_ne_error hlex (InRange.of_reserved? hres))
  | retract => exact absurd hd (hnr t hn)
  | reject =>
    rw [step_reject hn hd] at h
    cases h
    exact Fails.breaks (hpend.breaks hn hd)

/-- A step that fails: a retracting one closes a literal out of range, or closes a token in
range and then refuses the character from the idle lexer; any other refuses it at once. -/
theorem step_error {lx : Lexer} {c : Char} {e : LexError} (hp : lx.Pends)
    (h : lx.step c = .error e) (s : List Char) : Fails lx.line (lx.lexeme.toList ++ c :: s) e := by
  by_cases hr : ∃ t, next? lx.state (ofChar c) = some t ∧ disposition t = .retract
  · obtain ⟨t, hn, hr⟩ := hr
    obtain ⟨k, hlex, hstep⟩ := step_retract_emit hp hn hr
    rw [hstep] at h
    rcases emit_cases { lx with lexeme := "", state := Automaton.start } c hlex with
      ⟨hrange, lx₁, h₁⟩ | ⟨hrange, h₁⟩
    · rw [h₁] at h
      obtain ⟨hi₁, hline₁⟩ := emit_idle h₁
      have hrest := step_error_direct hi₁.pends (fun _ hn₁ => hi₁.no_retract hn₁) h s
      rw [hi₁.2, hline₁] at hrest
      exact Fails.token hlex (closed_retract hp hn hr) hrange (by simpa using hrest)
    · rw [h₁] at h
      cases h
      exact Fails.outOfRange hlex (closed_retract hp hn hr) hrange
  · exact step_error_direct hp (fun t hn hd => hr ⟨t, hn, hd⟩) h s

/-- A run that fails: the scan from the lexer's pending characters fails with its error. The
induction is on the characters, one step after the other. -/
theorem run_error {w : List Char} :
    ∀ {lx : Lexer} {e : LexError}, lx.Pends → w.foldlM step lx = .error e →
      ∀ s, Fails lx.line (lx.lexeme.toList ++ w ++ s) e := by
  induction w with
  | nil =>
    intro lx e _ h
    cases h
  | cons c w ih =>
    intro lx e hp h s
    rw [List.foldlM_cons] at h
    cases h₁ : lx.step c with
    | error e' =>
      rw [h₁] at h
      cases h
      simpa using step_error hp h₁ (w ++ s)
    | ok lx₁ =>
      rw [h₁] at h
      obtain ⟨hp₁, hf⟩ := step_fails hp h₁
      simpa using hf (w ++ s) e (by simpa using ih hp₁ h s)

end Lexer

namespace Lexical

/-- When lexing fails, the scan of the source fails with its error. -/
theorem lex_error_fails {lines : List String} {e : LexError} (h : lex lines = .error e) :
    Fails 1 (source lines) e := by
  unfold lex at h
  rw [foldlM_feedLine] at h
  cases hrun : (source lines).foldlM Lexer.step {} with
  | ok lx =>
    rw [hrun] at h
    cases h
  | error e' =>
    rw [hrun] at h
    cases h
    have hidle : ({} : Lexer).Idle := ⟨rfl, rfl⟩
    simpa using Lexer.run_error hidle.pends hrun []

end Lexical

namespace Lexical

/-! ### The failure is unique -/

theorem Viable.of_append {u w : List Char} (h : Viable (u ++ w)) : Viable u := by
  obtain ⟨v, hv⟩ := h
  exact ⟨w ++ v, by simpa using hv⟩

theorem Viable.of_isToken {u : List Char} (h : IsToken u) : Viable u :=
  ⟨[], by simpa using h⟩

/-- A closed token is not continued by anything that begins a token with it. -/
theorem Closed.eq_nil {t s a w : List Char} (hc : Closed t s) (hs : s = a ++ w)
    (hv : Viable (t ++ a)) : a = [] := by
  obtain _ | ⟨d, r⟩ := a
  · rfl
  · exact absurd (Viable.of_append (u := t ++ [d]) (w := r) (by simpa using hv))
      (hc d (r ++ w) (by simpa using hs))

/-- Two closed tokens at the same place are the same token. -/
theorem Closed.token_eq {t t' s s' : List Char} (hc : Closed t s) (hc' : Closed t' s')
    (ht : IsToken t) (ht' : IsToken t') (h : t ++ s = t' ++ s') : t = t' := by
  rcases List.append_eq_append_iff.mp h with ⟨a, rfl, hs⟩ | ⟨a, rfl, hs'⟩
  · rw [hc.eq_nil hs (Viable.of_isToken ht'), List.append_nil]
  · rw [hc'.eq_nil hs' (Viable.of_isToken ht), List.append_nil]

/-- A break is read along kept characters to a state that refuses its character, and its fault
is that state's refusal. -/
theorem Breaks.reject_path {p : List Char} {c : Char} {f : LexFault} (h : Breaks p c f) :
    ∃ q t, walk 0 p = some q ∧ next? q (ofChar c) = some t ∧ disposition t = .reject ∧
      f = LexFault.ofState t := by
  cases h with
  | unexpected hl hd hlay hops =>
    simp only [isLayout, Bool.or_eq_false_iff, beq_eq_false_iff_ne] at hlay
    obtain ⟨⟨hsp, htab⟩, hnl⟩ := hlay
    have hsplit : operatorStarts = ['+', '-', '*', '/', '^', '(', ')', '{', '}', ';', ',', ':'] ++
        ['=', '<', '>'] ++ ['!'] := rfl
    rw [hsplit, List.mem_append, List.mem_append, List.mem_singleton] at hops
    refine ⟨0, 101, rfl, ?_, rfl, rfl⟩
    rw [next_zero, if_neg (by simp [hl]), if_neg (by simp [hd]), if_neg (by simp [hsp, htab]),
      if_neg hnl, if_neg fun h => hops (.inl (.inl h)), if_neg fun h => hops (.inl (.inr h)),
      if_neg fun h => hops (.inr h)]
  | bang he => exact ⟨9, 102, by decide, by rw [next_nine, if_neg he], rfl, rfl⟩
  | point ha hd =>
    refine ⟨11, 103, ?_, by rw [next_eleven, if_neg (by simp [hd])], rfl, rfl⟩
    rw [walk_append, walk_digits ha, Option.bind_some, walk_cons, Keeps.point.keepStep?_eq,
      Option.bind_some, walk_nil]
  | mark hf hm hd =>
    refine ⟨15, 104, ?_, by rw [next_fifteen, if_neg hm, if_neg (by simp [hd])], rfl, rfl⟩
    rw [walk_append, walk_float hf, Option.bind_some, walk_cons, Keeps.mark.keepStep?_eq,
      Option.bind_some, walk_nil]
  | sign hf hd =>
    refine ⟨17, 104, ?_, by rw [next_seventeen, if_neg (by simp [hd])], rfl, rfl⟩
    rw [walk_append, walk_float hf, Option.bind_some, walk_cons, Keeps.mark.keepStep?_eq,
      Option.bind_some, walk_cons, Keeps.minus.keepStep?_eq, Option.bind_some, walk_nil]

/-- The pending characters of a break begin a token. -/
theorem Breaks.viable {p : List Char} {c : Char} {f : LexFault} (h : Breaks p c f) : Viable p := by
  cases h with
  | unexpected => exact ⟨['+'], _, .op (by decide) rfl⟩
  | bang => exact ⟨['='], _, .op (by decide) rfl⟩
  | point ha => exact ⟨['0'], _, .float ⟨_, ['0'], ha, Digits.singleton rfl, by simp⟩⟩
  | mark hf => exact ⟨['0'], _, .exp ⟨_, [], ['0'], hf, .inl rfl, Digits.singleton rfl, by simp⟩⟩
  | sign hf =>
    exact ⟨['0'], _, .exp ⟨_, ['-'], ['0'], hf, .inr rfl, Digits.singleton rfl, by simp⟩⟩

/-- The pending characters of a break are no token by themselves. -/
theorem Breaks.not_isToken {p : List Char} {c : Char} {f : LexFault} (h : Breaks p c f) :
    ¬ IsToken p := by
  obtain ⟨q, t, hw, hn, hr, -⟩ := h.reject_path
  exact not_isToken_of_walk hw fun hq => Accepting.not_reject hq hn hr

/-- The pending characters of a break, with the refused character after them, begin no token. -/
theorem Breaks.not_viable {p : List Char} {c : Char} {f : LexFault} (h : Breaks p c f) :
    ¬ Viable (p ++ [c]) := by
  obtain ⟨q, t, hw, hn, hr, -⟩ := h.reject_path
  exact not_viable_of_next hw hn (by rw [hr]; decide) (by rw [hr]; decide)

/-- The pending characters and the character decide the fault. -/
theorem Breaks.fault_eq {p : List Char} {c : Char} {f f' : LexFault} (h : Breaks p c f)
    (h' : Breaks p c f') : f = f' := by
  obtain ⟨q, t, hw, hn, -, rfl⟩ := h.reject_path
  obtain ⟨q', t', hw', hn', -, rfl⟩ := h'.reject_path
  rw [hw] at hw'
  cases hw'
  rw [hn] at hn'
  cases hn'
  rfl

/-- With nothing pending, only a character that is no layout breaks. -/
theorem Breaks.not_layout_of_nil {p : List Char} {c : Char} {f : LexFault} (h : Breaks p c f)
    (hp : p = []) : isLayout c = false := by
  cases h with
  | unexpected _ _ hlay => exact hlay
  | bang => cases hp
  | point | mark | sign => simp at hp

/-- A break starts with no layout. -/
theorem Breaks.first_not_layout {p s s' : List Char} {c b : Char} {f : LexFault}
    (h : Breaks p c f) (he : p ++ c :: s = b :: s') : isLayout b = false := by
  obtain _ | ⟨x, p⟩ := p
  · obtain ⟨rfl, -⟩ := List.cons.inj he
    exact h.not_layout_of_nil rfl
  · obtain ⟨rfl, -⟩ := List.cons.inj he
    obtain ⟨v, k, hk⟩ := h.viable
    exact hk.not_layout x (by simp)

/-- A token starts with no layout. -/
theorem Lexeme.first_not_layout {t s s' : List Char} {k : TokenKind} {b : Char}
    (ht : Lexeme t k) (he : t ++ s = b :: s') : isLayout b = false := by
  obtain _ | ⟨x, t⟩ := t
  · exact absurd rfl ht.ne_nil
  · obtain ⟨rfl, -⟩ := List.cons.inj he
    exact ht.not_layout x List.mem_cons_self

/-- A closed token and a break never start at the same place. -/
theorem Closed.not_breaks {t s p s' : List Char} {c : Char} {f : LexFault} (hc : Closed t s)
    (ht : IsToken t) (hb : Breaks p c f) (h : t ++ s = p ++ c :: s') : False := by
  rcases List.append_eq_append_iff.mp h with ⟨a, rfl, hs⟩ | ⟨a, rfl, hs'⟩
  · -- the break's characters would be the closed token
    rw [hc.eq_nil hs hb.viable, List.append_nil] at hb
    exact hb.not_isToken ht
  · obtain _ | ⟨d, r⟩ := a
    · rw [List.append_nil] at ht
      exact hb.not_isToken ht
    · -- the token would continue the break's characters with the refused one
      obtain ⟨rfl, -⟩ := List.cons.inj hs'
      exact hb.not_viable (Viable.of_append (w := r) (by simpa using Viable.of_isToken ht))

/-- Two breaks at the same place break at the same character. -/
theorem Breaks.place_eq {p p' s s' : List Char} {c c' : Char} {f f' : LexFault}
    (hb : Breaks p c f) (hb' : Breaks p' c' f') (h : p ++ c :: s = p' ++ c' :: s') :
    p = p' ∧ c = c' := by
  rcases List.append_eq_append_iff.mp h with ⟨a, rfl, hs⟩ | ⟨a, rfl, hs'⟩
  · obtain _ | ⟨d, r⟩ := a
    · exact ⟨(List.append_nil p).symm, (List.cons.inj hs).1⟩
    · obtain ⟨rfl, -⟩ := List.cons.inj hs
      exact absurd (Viable.of_append (w := r) (by simpa using hb'.viable)) hb.not_viable
  · obtain _ | ⟨d, r⟩ := a
    · exact ⟨List.append_nil p', (List.cons.inj hs').1.symm⟩
    · obtain ⟨rfl, -⟩ := List.cons.inj hs'
      exact absurd (Viable.of_append (w := r) (by simpa using hb.viable)) hb'.not_viable

/-- How a failing scan begins. -/
theorem Fails.first {n : Nat} {s : List Char} {e : LexError} (h : Fails n s e) :
    (∃ c s', s = c :: s' ∧ (c = ' ' ∨ c = '\t') ∧ Fails n s' e) ∨
      (∃ s', s = '\n' :: s' ∧ Fails (n + 1) s' e) ∨
      (∃ t s' k, s = t ++ s' ∧ Lexeme t k ∧ Closed t s' ∧ InRange t k ∧ Fails n s' e) ∨
      (∃ t c s' k, s = t ++ c :: s' ∧ Lexeme t k ∧ Closed t (c :: s') ∧ ¬ InRange t k ∧
        e = ⟨n, c, .literalOutOfRange⟩) ∨
      ∃ p c s' f, s = p ++ c :: s' ∧ Breaks p c f ∧ e = ⟨n, c, f⟩ := by
  cases h with
  | blank hc h => exact .inl ⟨_, _, rfl, hc, h⟩
  | newline h => exact .inr (.inl ⟨_, rfl, h⟩)
  | token ht hc hr h => exact .inr (.inr (.inl ⟨_, _, _, rfl, ht, hc, hr, h⟩))
  | outOfRange ht hc hr => exact .inr (.inr (.inr (.inl ⟨_, _, _, _, rfl, ht, hc, hr, rfl⟩)))
  | breaks hb => exact .inr (.inr (.inr (.inr ⟨_, _, _, _, rfl, hb, rfl⟩)))

theorem isLayout_of_blank {c : Char} (h : c = ' ' ∨ c = '\t') : isLayout c = true := by
  rcases h with rfl | rfl <;> rfl

/-- The scan of a text fails in at most one way: the first character at which it breaks, or
which closes a literal out of range, decides the error. The induction is on one failure; the
other is inverted at each of its first steps, which the first steps of the text decide. -/
theorem Fails.unique {n : Nat} {s : List Char} {e e' : LexError} (h : Fails n s e)
    (h' : Fails n s e') : e = e' := by
  induction h generalizing e' with
  | blank hc _ ih =>
    rcases h'.first with ⟨c', s', he, -, h''⟩ | ⟨s', he, -⟩ | ⟨t, s', k, he, ht, -⟩ |
      ⟨t, c', s', k, he, ht, -⟩ | ⟨p, c', s', f, he, hb, -⟩
    · obtain ⟨rfl, rfl⟩ := List.cons.inj he
      exact ih h''
    · obtain ⟨rfl, -⟩ := List.cons.inj he
      rcases hc with hc | hc <;> cases hc
    all_goals first
      | exact absurd (ht.first_not_layout he.symm) (by rw [isLayout_of_blank hc]; decide)
      | exact absurd (hb.first_not_layout he.symm) (by rw [isLayout_of_blank hc]; decide)
  | newline _ ih =>
    rcases h'.first with ⟨c', s', he, hc, -⟩ | ⟨s', he, h''⟩ | ⟨t, s', k, he, ht, -⟩ |
      ⟨t, c', s', k, he, ht, -⟩ | ⟨p, c', s', f, he, hb, -⟩
    · obtain ⟨rfl, -⟩ := List.cons.inj he
      rcases hc with hc | hc <;> cases hc
    · obtain ⟨-, rfl⟩ := List.cons.inj he
      exact ih h''
    all_goals first
      | exact absurd (ht.first_not_layout he.symm) (by decide)
      | exact absurd (hb.first_not_layout he.symm) (by decide)
  | token ht hc hr _ ih =>
    rcases h'.first with ⟨c', s', he, hc', -⟩ | ⟨s', he, -⟩ | ⟨t', s', k', he, ht', hc', -, h''⟩ |
      ⟨t', c', s', k', he, ht', hc', hr', -⟩ | ⟨p, c', s', f, he, hb, -⟩
    · exact absurd (ht.first_not_layout he) (by rw [isLayout_of_blank hc']; decide)
    · exact absurd (ht.first_not_layout he) (by decide)
    · obtain rfl := hc.token_eq hc' ⟨_, ht⟩ ⟨_, ht'⟩ he
      exact ih (List.append_cancel_left he ▸ h'')
    · obtain rfl := hc.token_eq hc' ⟨_, ht⟩ ⟨_, ht'⟩ he
      exact absurd ((ht.kind_unique ht') ▸ hr) hr'
    · exact (hc.not_breaks ⟨_, ht⟩ hb he).elim
  | outOfRange ht hc hr =>
    rcases h'.first with ⟨c', s', he, hc', -⟩ | ⟨s', he, -⟩ | ⟨t', s', k', he, ht', hc', hr', -⟩ |
      ⟨t', c', s', k', he, ht', hc', -, rfl⟩ | ⟨p, c', s', f, he, hb, -⟩
    · exact absurd (ht.first_not_layout he) (by rw [isLayout_of_blank hc']; decide)
    · exact absurd (ht.first_not_layout he) (by decide)
    · obtain rfl := hc.token_eq hc' ⟨_, ht⟩ ⟨_, ht'⟩ he
      exact absurd ((ht'.kind_unique ht) ▸ hr') hr
    · obtain rfl := hc.token_eq hc' ⟨_, ht⟩ ⟨_, ht'⟩ he
      obtain ⟨rfl, -⟩ := List.cons.inj (List.append_cancel_left he)
      rfl
    · exact (hc.not_breaks ⟨_, ht⟩ hb he).elim
  | breaks hb =>
    rcases h'.first with ⟨c', s', he, hc', -⟩ | ⟨s', he, -⟩ | ⟨t', s', k', he, ht', hc', -⟩ |
      ⟨t', c', s', k', he, ht', hc', -⟩ | ⟨p', c', s', f', he, hb', rfl⟩
    · exact absurd (hb.first_not_layout he) (by rw [isLayout_of_blank hc']; decide)
    · exact absurd (hb.first_not_layout he) (by decide)
    · exact (hc'.not_breaks ⟨_, ht'⟩ hb he.symm).elim
    · exact (hc'.not_breaks ⟨_, ht'⟩ hb he.symm).elim
    · obtain ⟨rfl, rfl⟩ := hb.place_eq hb' he
      rw [hb.fault_eq hb']

/-! ### Where the scan fails -/

/-- Tokens and breaks hold no line feed. -/
theorem Lexeme.count_newline {t : List Char} {k : TokenKind} (ht : Lexeme t k) :
    t.count '\n' = 0 :=
  List.count_eq_zero.mpr fun hm => by simpa [isLayout] using ht.not_layout '\n' hm

theorem Breaks.count_newline {p : List Char} {c : Char} {f : LexFault} (h : Breaks p c f) :
    p.count '\n' = 0 := by
  obtain ⟨v, k, hk⟩ := h.viable
  have hcount := hk.count_newline
  rw [List.count_append] at hcount
  omega

/-- The failing character stands after text whose line feeds give the error's line. -/
theorem Fails.position {n : Nat} {s : List Char} {e : LexError} (h : Fails n s e) :
    ∃ pre post, s = pre ++ e.symbol :: post ∧ e.line = n + pre.count '\n' := by
  induction h with
  | blank hc _ ih =>
    obtain ⟨pre, post, rfl, hline⟩ := ih
    refine ⟨_ :: pre, post, rfl, ?_⟩
    rcases hc with rfl | rfl <;> simpa using hline
  | newline _ ih =>
    obtain ⟨pre, post, rfl, hline⟩ := ih
    exact ⟨'\n' :: pre, post, rfl, by simp [hline]; omega⟩
  | @token n t s k e ht _ _ _ ih =>
    obtain ⟨pre, post, rfl, hline⟩ := ih
    exact ⟨t ++ pre, post, by simp, by simp [hline, ht.count_newline]⟩
  | outOfRange ht _ _ => exact ⟨_, _, rfl, by simp [ht.count_newline]⟩
  | breaks hb => exact ⟨_, _, rfl, by simp [hb.count_newline]⟩

/-- The scan fails only with the five faults of the language, never for a missing transition or
an unclassified lexeme. -/
theorem Fails.fault_mem {n : Nat} {s : List Char} {e : LexError} (h : Fails n s e) :
    e.fault ∈ [.literalOutOfRange, .unexpectedSymbol, .expectedEq, .expectedDigit,
      .expectedSignOrDigit] := by
  induction h with
  | blank _ _ ih => exact ih
  | newline _ ih => exact ih
  | token _ _ _ _ ih => exact ih
  | outOfRange => simp
  | breaks hb => cases hb <;> simp

/-- Whenever lexing fails, its error is the one failure of the greedy scan of the source, each
line followed by a line feed: the failing character stands in the source after text whose line
feeds give the error's line, and the fault is a literal out of range or one of the four
refusals, never a missing transition or an unclassified lexeme. -/
theorem lex_error_first_break {lines : List String} {e : LexError} (h : lex lines = .error e) :
    Fails 1 (source lines) e ∧ (∀ e', Fails 1 (source lines) e' → e' = e) ∧
      (∃ pre post, source lines = pre ++ e.symbol :: post ∧ e.line = 1 + pre.count '\n') ∧
      e.fault ∈ [.literalOutOfRange, .unexpectedSymbol, .expectedEq, .expectedDigit,
        .expectedSignOrDigit] := by
  have hf := lex_error_fails h
  exact ⟨hf, fun e' h' => h'.unique hf, hf.position, hf.fault_mem⟩

/-- `x = 12.;`: the decimal point is not followed by a digit. -/
theorem lex_error_first_break_point :
    lex ["x = 12.;"] = .error ⟨1, ';', .expectedDigit⟩ ∧
      Fails 1 (source ["x = 12.;"]) ⟨1, ';', .expectedDigit⟩ ∧
      (∀ e', Fails 1 (source ["x = 12.;"]) e' → e' = ⟨1, ';', .expectedDigit⟩) ∧
      (∃ pre post, source ["x = 12.;"] = pre ++ ';' :: post ∧ 1 = 1 + pre.count '\n') ∧
      LexFault.expectedDigit ∈ [.literalOutOfRange, .unexpectedSymbol, .expectedEq,
        .expectedDigit, .expectedSignOrDigit] := by
  have h : lex ["x = 12.;"] = .error ⟨1, ';', .expectedDigit⟩ := by
    with_unfolding_all rfl
  exact ⟨h, lex_error_first_break h⟩

end Lexical

end RpnLang
