import RpnLang.Proofs.AutomatonPaths

/-!
# The lexer's steps

What one character does to the lexer, for each disposition of the state it leads to, and what a
path of kept characters does. A lexer is *idle* between lexemes: in the start state with nothing
pending. Closing a lexeme leaves the lexer idle, and from an idle lexer no character retracts, so
the second pass of a retracted character is an ordinary first pass: a retracting step is the
closing of the pending lexeme followed by the step of the same character from the idle lexer.
-/

namespace RpnLang

open Automaton

namespace Lexer

/-- Between lexemes: the start state and nothing pending. -/
def Idle (lx : Lexer) : Prop :=
  lx.state = Automaton.start ∧ lx.lexeme = ""

/-- Resetting an idle lexer changes nothing. -/
theorem Idle.eq {lx : Lexer} (h : lx.Idle) :
    { lx with lexeme := "", state := Automaton.start } = lx := by
  obtain ⟨hs, hl⟩ := h
  cases lx
  simp_all

/-- Emitting keeps the state, the pending lexeme and the line. -/
theorem emit_fields {lx lx' : Lexer} {lexeme : String} {kind : TokenKind} {c : Char}
    (h : lx.emit lexeme kind c = .ok lx') :
    lx'.state = lx.state ∧ lx'.lexeme = lx.lexeme ∧ lx'.line = lx.line := by
  unfold emit at h
  split at h
  · cases h
    exact ⟨rfl, rfl, rfl⟩
  · split at h
    · split at h
      · cases h
      · cases h
        exact ⟨rfl, rfl, rfl⟩
    · cases h
      exact ⟨rfl, rfl, rfl⟩

/-- Closing a lexeme of a known kind is emitting it from the idle lexer. -/
theorem close_eq {lx : Lexer} {t : Nat} {c : Char} {k : TokenKind}
    (hk : (TokenKind.reserved? lx.lexeme).or (stateKind? t) = some k) :
    lx.close t c =
      ({ lx with lexeme := "", state := Automaton.start } : Lexer).emit lx.lexeme k c := by
  simp only [close, hk]

/-- A token that closes successfully leaves the lexer idle. -/
theorem close_idle {lx lx' : Lexer} {t : Nat} {c : Char} (h : lx.close t c = .ok lx') :
    lx'.Idle := by
  unfold close at h
  dsimp only at h
  split at h
  · cases h
  · obtain ⟨hs, hl, -⟩ := emit_fields h
    exact ⟨hs, hl⟩

/-! ### One pass of a character -/

/-- Only a retracting state asks for a second pass. -/
theorem feed_again {lx lx' : Lexer} {c : Char} (h : lx.feed c = .ok (.again lx')) :
    ∃ t, next? lx.state (SymbolClass.ofChar c) = some t ∧ disposition t = .retract := by
  unfold feed at h
  split at h
  · cases h
  · rename_i t hn
    split at h
    · cases h
    · cases h
    · cases h
    · cases h
    · cases hc : ({ lx with lexeme := lx.lexeme.push c } : Lexer).close t c <;>
        simp [hc, Except.map] at h
    · exact ⟨t, hn, by assumption⟩

/-- No transition out of the start state retracts. -/
theorem Idle.no_retract {lx : Lexer} {c : Char} {t : Nat} (hi : lx.Idle)
    (hn : next? lx.state (SymbolClass.ofChar c) = some t) : disposition t ≠ .retract := by
  intro hr
  have h0 : lx.state = 0 := hi.1
  rw [h0] at hn
  rcases retract_cases (Or.inl rfl) hn hr with ⟨hq, -⟩ | ⟨hq, -⟩ | ⟨hq, -⟩ | ⟨hq, -⟩ | ⟨hq, -⟩ <;>
    cases hq

/-- An idle lexer never asks to be fed its character again: the start state never retracts. -/
theorem Idle.feed_ne_again {lx lx' : Lexer} {c : Char} (hi : lx.Idle) :
    lx.feed c ≠ .ok (.again lx') := by
  intro h
  obtain ⟨t, hn, hr⟩ := feed_again h
  exact hi.no_retract hn hr

/-! ### One step, by disposition -/

/-- A kept transition appends the character to the pending lexeme and moves to the new state. -/
theorem step_keep {lx : Lexer} {c : Char} {t : Nat} (h : keepStep? lx.state c = some t) :
    lx.step c = .ok { lx with lexeme := lx.lexeme.push c, state := t } := by
  obtain ⟨hn, hk⟩ := keepStep?_eq_some.mp h
  simp [step, feed, hn, hk]

/-- A finishing transition appends the character and closes the token. -/
theorem step_finish {lx : Lexer} {c : Char} {t : Nat}
    (hn : next? lx.state (SymbolClass.ofChar c) = some t) (hf : disposition t = .finish) :
    lx.step c = ({ lx with lexeme := lx.lexeme.push c } : Lexer).close t c := by
  simp only [step, feed, hn, hf]
  cases ({ lx with lexeme := lx.lexeme.push c } : Lexer).close t c <;> rfl

/-- A retracting step closes the pending lexeme and steps the character again from the idle
lexer. -/
theorem step_retract {lx : Lexer} {c : Char} {t : Nat}
    (hn : next? lx.state (SymbolClass.ofChar c) = some t) (hr : disposition t = .retract) :
    lx.step c = lx.close t c >>= (·.step c) := by
  have hfeed : lx.feed c = (lx.close t c).map .again := by simp only [feed, hn, hr]
  cases hc : lx.close t c with
  | error e => simp only [step, hfeed, hc, Except.map, bind, Except.bind]
  | ok lx₁ =>
    have hi : lx₁.Idle := close_idle hc
    simp only [step, hfeed, hc, Except.map, bind, Except.bind]
    cases hf : lx₁.feed c with
    | error e => rfl
    | ok r =>
      cases r with
      | done lx₂ => rfl
      | again lx₂ => exact absurd hf hi.feed_ne_again

/-- A rejecting transition fails with the fault of its state. -/
theorem step_reject {lx : Lexer} {c : Char} {t : Nat}
    (hn : next? lx.state (SymbolClass.ofChar c) = some t) (hr : disposition t = .reject) :
    lx.step c = .error (lx.fail c (LexFault.ofState t)) := by
  simp only [step, feed, hn, hr]

/-- An idle lexer passes over a blank. -/
theorem step_blank {lx : Lexer} {c : Char} (hi : lx.Idle) (hc : c = ' ' ∨ c = '\t') :
    lx.step c = .ok lx := by
  have hn : next? lx.state (SymbolClass.ofChar c) = some 0 := by
    rw [hi.1]
    rcases hc with rfl | rfl <;> decide
  have hd : disposition 0 = .skip := rfl
  simp only [step, feed, hn, hd, hi.eq]

/-- An idle lexer counts a line feed. -/
theorem step_newline {lx : Lexer} (hi : lx.Idle) :
    lx.step '\n' = .ok { lx with line := lx.line + 1 } := by
  have hn : next? lx.state (SymbolClass.ofChar '\n') = some 5 := by
    rw [hi.1]
    decide
  have hd : disposition 5 = .newline := rfl
  simp only [step, feed, hn, hd]
  obtain ⟨hs, hl⟩ := hi
  cases lx
  simp_all

/-- An idle lexer passes over a blank and counts a line feed. -/
theorem layout_step {lx : Lexer} {c : Char} (hi : lx.Idle) (hc : Lexical.isLayout c = true) :
    (c = ' ' ∨ c = '\t') ∧ lx.step c = .ok lx ∨
      c = '\n' ∧ lx.step c = .ok { lx with line := lx.line + 1 } := by
  by_cases hblank : c = ' ' ∨ c = '\t'
  · exact .inl ⟨hblank, step_blank hi hblank⟩
  · obtain rfl : c = '\n' := by
      simp only [Lexical.isLayout, Bool.or_eq_true, beq_iff_eq] at hc
      exact hc.resolve_left hblank
    exact .inr ⟨rfl, step_newline hi⟩

/-! ### The pass loop

The lexer feeds a character in a loop that goes round again after every retracting pass. The
loop has no bound of its own; `step` unrolls it twice. That suffices because a retracting pass
closes the pending lexeme, which leaves the lexer idle, and no character retracts from the idle
lexer. -/

/-- The loop that feeds a character until a pass uses it, with a budget of passes: `none` when
the budget runs out first. -/
def passes : Nat → Lexer → Char → Option (Except LexError Lexer)
  | 0, _, _ => none
  | n + 1, lx, c =>
    match lx.feed c with
    | .error e => some (.error e)
    | .ok (.done lx') => some (.ok lx')
    | .ok (.again lx') => passes n lx' c

/-- A retracting pass is the closing of the pending lexeme. -/
theorem feed_again_close {lx lx' : Lexer} {c : Char} (h : lx.feed c = .ok (.again lx')) :
    ∃ t, next? lx.state (SymbolClass.ofChar c) = some t ∧ disposition t = .retract ∧
      lx.close t c = .ok lx' := by
  obtain ⟨t, hn, hr⟩ := feed_again h
  have hfeed : lx.feed c = (lx.close t c).map .again := by simp only [feed, hn, hr]
  refine ⟨t, hn, hr, ?_⟩
  rw [hfeed] at h
  cases hc : lx.close t c with
  | error e =>
    rw [hc] at h
    cases h
  | ok lx₁ =>
    rw [hc] at h
    cases h
    rfl

/-- A retracting pass leaves the lexer idle. -/
theorem feed_again_idle {lx lx' : Lexer} {c : Char} (h : lx.feed c = .ok (.again lx')) :
    lx'.Idle := by
  obtain ⟨t, -, -, hc⟩ := feed_again_close h
  exact close_idle hc

/-- After a retracting pass, the step is the step of the lexer that the pass left. -/
theorem step_of_feed_again {lx lx' : Lexer} {c : Char} (h : lx.feed c = .ok (.again lx')) :
    lx.step c = lx'.step c := by
  obtain ⟨t, hn, hr, hc⟩ := feed_again_close h
  rw [step_retract hn hr, hc]
  rfl

/-- From an idle lexer the first pass uses the character. -/
theorem Idle.passes_succ {lx : Lexer} {c : Char} (hi : lx.Idle) (n : Nat) :
    lx.passes (n + 1) c = some (lx.step c) := by
  cases hf : lx.feed c with
  | error e => simp only [passes, step, hf]
  | ok r =>
    cases r with
    | done lx' => simp only [passes, step, hf]
    | again lx' => exact absurd hf hi.feed_ne_again

/-- Every character is used within two passes, from every lexer, and the loop then answers
as `step`. -/
theorem passes_add_two (lx : Lexer) (c : Char) (n : Nat) :
    lx.passes (n + 2) c = some (lx.step c) := by
  cases hf : lx.feed c with
  | error e => simp only [passes, step, hf]
  | ok r =>
    cases r with
    | done lx' => simp only [passes, step, hf]
    | again lx' =>
      -- the second pass starts idle, so it never asks for a third
      calc lx.passes (n + 2) c = lx'.passes (n + 1) c := by simp only [passes, hf]
        _ = some (lx'.step c) := (feed_again_idle hf).passes_succ n
        _ = some (lx.step c) := by rw [step_of_feed_again hf]

/-! ### A path of kept characters -/

/-- Along a path of kept characters the lexer only collects them. -/
theorem run_walk {w : List Char} :
    ∀ {lx : Lexer} {t : Nat} (s : List Char), walk lx.state w = some t →
      (w ++ s).foldlM step lx =
        s.foldlM step { lx with lexeme := String.ofList (lx.lexeme.toList ++ w), state := t } := by
  induction w with
  | nil =>
    intro lx t s h
    obtain rfl : lx.state = t := Option.some.inj h
    cases lx
    simp
  | cons c w ih =>
    intro lx t s h
    rw [walk_cons] at h
    obtain ⟨t₁, h₁, hw⟩ := Option.bind_eq_some_iff.mp h
    rw [List.cons_append, List.foldlM_cons, step_keep h₁]
    refine (ih s hw).trans ?_
    simp

/-- From an idle lexer, characters walked from the start state are kept as the pending lexeme. -/
theorem run_walk_idle {lx : Lexer} {w : List Char} {t : Nat} (s : List Char) (hi : lx.Idle)
    (h : walk 0 w = some t) :
    (w ++ s).foldlM step lx = s.foldlM step { lx with lexeme := String.ofList w, state := t } := by
  have h0 : lx.state = 0 := hi.1
  rw [run_walk s (h0 ▸ h), hi.2]
  simp

end Lexer

end RpnLang
