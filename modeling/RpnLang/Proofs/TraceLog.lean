import RpnLang.Proofs.ParseInvariant
import RpnLang.Proofs.ParseProgram

/-!
# The records a parse traces

The parser logs every record it consumes: it is traced at once while no attempt is active and
held back otherwise. A failed attempt restores the rest of the records and the held records of
its checkpoint, so what it consumed is neither consumed nor logged any more; the outermost
attempt traces what it held when it ends. The invariant is that the traced records followed by
the held ones are exactly the records consumed so far, that nothing is held while no attempt is
active, and that nothing is traced inside an attempt (`LogsConsumed`). Every elementary step keeps
it, hence so does every production.

Main statement, `parse_traces_prefix`: whether a parse succeeds or fails, the records it traces
are a prefix of its records, in order and each once; an accepted parse traces them all.
-/

namespace RpnLang

namespace ParseState

/-- The log of a state: the traced records, then the held ones, oldest first. -/
def logged (s : ParseState) : List Record :=
  (s.held ++ s.traced).reverse

/-- Nothing is held back while no attempt is active. -/
def Settled (s : ParseState) : Prop :=
  s.depth = 0 → s.held = []

/-- From `s` to `t`, at the same attempt depth, the log grew by exactly the records consumed;
inside an attempt nothing was traced; and a settled state stays settled. -/
def LogsConsumed (s t : ParseState) : Prop :=
  s.Settled → t.Settled ∧ t.depth = s.depth ∧ t.logged ++ t.rest = s.logged ++ s.rest ∧
    (s.depth ≠ 0 → t.traced = s.traced)

/-- A step that touches neither the records, the logs nor the depth. -/
theorem logsConsumed_of_eq {s t : ParseState} (hr : t.rest = s.rest) (hh : t.held = s.held)
    (ht : t.traced = s.traced) (hd : t.depth = s.depth) : LogsConsumed s t := by
  intro hs
  refine ⟨fun h0 => ?_, hd, by simp only [logged, hr, hh, ht], fun _ => ht⟩
  rw [hh]
  exact hs (hd ▸ h0)

/-- Consuming a record logs it after everything logged before. -/
theorem advance_logsConsumed {s : ParseState} {r : Record} {t : Shorter s}
    (e : s.advance = .ok (r, t)) : LogsConsumed s t.1 := by
  unfold advance at e
  split at e
  · cases e
  · rename_i r' tail hs
    cases e
    intro hset
    unfold log
    split
    · -- outside any attempt the record is traced, after the traced ones, none being held
      rename_i h0
      have hheld := hset h0
      refine ⟨fun _ => hheld, rfl, ?_, fun h => absurd h0 h⟩
      simp [logged, hheld, hs]
    · -- inside an attempt the record is held, after the held ones
      rename_i h0
      refine ⟨fun h => absurd h h0, rfl, ?_, fun _ => rfl⟩
      simp [logged, hs]

/-- Leaving an attempt keeps the log: a rollback drops what the attempt consumed together with
what it held, and the end of the outermost attempt traces what it held. -/
theorem leave_logsConsumed {s t : ParseState} (failed : Bool) (h : LogsConsumed s.enter t) :
    LogsConsumed s (t.leave s.checkpoint failed) := by
  intro hset
  obtain ⟨-, hdepth, hlog, htraced⟩ := h fun h0 => absurd h0 (Nat.succ_ne_zero _)
  replace hlog : t.logged ++ t.rest = s.logged ++ s.rest := hlog
  have htr : t.traced = s.traced := htraced (Nat.succ_ne_zero _)
  have hd : t.depth - 1 = s.depth := by
    rw [hdepth]
    rfl
  unfold leave
  simp only [hd]
  cases failed
  · simp only [Bool.false_eq_true, if_false]
    split
    · rename_i h0
      refine ⟨fun _ => rfl, h0.symm ▸ rfl, ?_, fun h => absurd h0 h⟩
      simpa [logged] using hlog
    · rename_i h0
      exact ⟨fun h => absurd h h0, rfl, hlog, fun _ => htr⟩
  · simp only [if_true]
    split
    · rename_i h0
      refine ⟨fun _ => rfl, h0.symm ▸ rfl, ?_, fun h => absurd h0 h⟩
      simp [logged, checkpoint, htr]
    · rename_i h0
      refine ⟨fun h => absurd h h0, rfl, ?_, fun _ => htr⟩
      simp [logged, checkpoint, htr]

theorem LogsConsumed.trans {s t u : ParseState} (h : LogsConsumed s t) (h' : LogsConsumed t u) :
    LogsConsumed s u := by
  intro hs
  obtain ⟨ht, hd, hl, htr⟩ := h hs
  obtain ⟨hu, hd', hl', htr'⟩ := h' ht
  refine ⟨hu, hd'.trans hd, hl'.trans hl, fun h0 => ?_⟩
  rw [htr' (hd ▸ h0), htr h0]

/-- The log relation is kept by every elementary step. -/
theorem logsConsumed_invariant : Invariant LogsConsumed where
  refl _ := logsConsumed_of_eq rfl rfl rfl rfl
  trans := LogsConsumed.trans
  advance := advance_logsConsumed
  brackets _ _ := logsConsumed_of_eq rfl rfl rfl rfl
  emit _ _ := logsConsumed_of_eq rfl rfl rfl rfl
  zero _ := logsConsumed_of_eq rfl rfl rfl rfl
  declare he _ := (advance_logsConsumed (expectKind_ok he).2).trans
    (logsConsumed_of_eq rfl rfl rfl rfl)
  attempt failed h := leave_logsConsumed failed h

end ParseState

/-- A parse runs the program production from a state that holds the records, with empty logs
and no attempt active; it is accepted when that production succeeds. -/
theorem parse_run (records : List Record) (tables : Tables) :
    ∃ s : ParseState, s.rest = records ∧ s.held = [] ∧ s.traced = [] ∧ s.depth = 0 ∧
      (parse records tables).1.toList = (program s).state.traced.reverse ∧
      ((parse records tables).2.isOk = true → (program s).result = .ok ()) := by
  -- the state is the one `parse` builds, read off its traced records
  refine ⟨_, ?_, ?_, ?_, ?_, rfl, fun h => ?_⟩
  · rfl
  · rfl
  · rfl
  · rfl
  simp only [parse, Except.map] at h
  split at h
  · simp [Except.isOk, Except.toBool] at h
  · rename_i u hres
    cases u
    exact hres

/-- The program production, run from a state with empty logs and no attempt active, has traced
exactly the records it consumed, whether it succeeds or fails. -/
theorem program_traced {s : ParseState} (hheld : s.held = []) (htraced : s.traced = [])
    (hdepth : s.depth = 0) :
    (program s).state.traced.reverse ++ (program s).state.rest = s.rest := by
  obtain ⟨hset, hd, hlog, -⟩ := ParseState.logsConsumed_invariant.program_state s fun _ => hheld
  have hheld' : (program s).state.held = [] := hset (hd.trans hdepth)
  simpa [ParseState.logged, hheld', hheld, htraced] using hlog

/-- Whether a parse succeeds or fails, the records it traces are its first `k` records, in order,
each once; an accepted parse traces all its records. -/
theorem parse_traces_prefix (records : List Record) (tables : Tables) :
    ∃ k ≤ records.length, (parse records tables).1.toList = records.take k ∧
      ((parse records tables).2.isOk = true → k = records.length) := by
  obtain ⟨s, hrest, hheld0, htraced0, hdepth0, hparse, hok⟩ := parse_run records tables
  -- the parse starts settled with an empty log, and ends outside every attempt
  obtain ⟨hset, hdepth, hlog, -⟩ :=
    ParseState.logsConsumed_invariant.program_state s fun _ => hheld0
  have hheld : (program s).state.held = [] := hset (hdepth.trans hdepth0)
  have htraced : (program s).state.traced.reverse ++ (program s).state.rest = records := by
    simpa [ParseState.logged, hheld, hheld0, htraced0, hrest] using hlog
  have hlen : (program s).state.traced.length ≤ records.length := by
    rw [← htraced, List.length_append, List.length_reverse]
    exact Nat.le_add_right _ _
  refine ⟨(program s).state.traced.length, hlen, ?_, fun h => ?_⟩
  · rw [hparse, ← htraced, List.take_left' (List.length_reverse)]
  · -- an accepted program leaves no record unread
    obtain ⟨-, -, hempty, -⟩ := (program_sound s).2 (hok h)
    rw [← htraced, hempty, List.append_nil, List.length_reverse]

end RpnLang
