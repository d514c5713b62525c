import RpnLang.Proofs.BracketStack

/-!
# What an attempt leaves behind

An attempt runs a condition, an arithmetic expression or a parenthesised comparison one level
deeper and, if the production fails, restores the records, the code, the held records and the
bracket stack of its checkpoint. The tables are not part of the checkpoint. They need not be: an
expression never declares an identifier, and its only change to the constants is the zero of a
unary minus, appended at most once, since every later intern of the zero finds it.

`ParseState.ExprFrame` says what an expression may change between two of its states: the depth
and the identifiers stay, the constants gain at most the zero, and the code and, inside an
attempt, the held records grow only at their new end. Every step of an expression keeps it
(`exprFrame_invariant`).

Main statement, `attempt_atomic`: from every settled state (no record held while no attempt is
active, as in every state of a parse), a failed attempt of any of the three productions ends with
the records, the code, the held records, the bracket stack, the depth and the identifiers it
started with, and the constants at most extended by the zero; a successful one ends with the code
and the held records extended and the depth restored.
-/

namespace RpnLang

namespace Tables

/-- The zero of a unary minus as the constant table holds it, with its index. -/
def zeroEntry (index : Nat) : ConstEntry := ⟨"0", index, .int 0⟩

/-- The constants of `t'` are those of `t`, or those with the zero appended, as the last entry,
when `t` had no constant under the key `0`. -/
def ZeroAppended (t t' : Tables) : Prop :=
  t'.consts = t.consts ∨
    (¬ t.HasConst "0" ∧ t'.consts = t.consts.push (zeroEntry (t.consts.size + 1)))

/-- Tables with the same constants append no zero. -/
theorem ZeroAppended.of_consts {t t' : Tables} (h : t'.consts = t.consts) : t.ZeroAppended t' :=
  .inl h

/-- After the zero is appended, a second append finds it. -/
theorem ZeroAppended.trans {t t' t'' : Tables} (h : t.ZeroAppended t') (h' : t'.ZeroAppended t'') :
    t.ZeroAppended t'' := by
  rcases h with h | ⟨hnew, h⟩
  · rcases h' with h' | ⟨hnew', h'⟩
    · exact .inl (h'.trans h)
    · exact .inr ⟨fun hk => hnew' (KeysWithin.of_consts h "0" hk), h'.trans (by rw [h])⟩
  · rcases h' with h' | ⟨hnew', -⟩
    · exact .inr ⟨hnew, h'.trans h⟩
    · exact absurd (hasConst_iff.mpr ⟨zeroEntry _, by rw [h]; exact Array.mem_push_self, rfl⟩)
        hnew'

/-- Interning a constant leaves the identifier entries alone. -/
@[simp] theorem internConst_idents (t : Tables) (key : String) (v : Value) :
    (t.internConst key v).2.idents = t.idents := by
  unfold internConst
  split <;> rfl

/-- Interning the zero appends it if it is new. -/
theorem zeroAppended_internValue (t : Tables) : t.ZeroAppended (t.internValue (.int 0)).2 := by
  unfold internValue internConst
  rw [ParseState.zero_key]
  split
  · exact .inl rfl
  · rename_i hnone
    exact .inr ⟨fun hk => by simp [HasConst, hnone] at hk, rfl⟩

end Tables

namespace ParseState

/-- Consuming a record keeps the depth, and the held records only grow. -/
theorem advance_depth_held {s : ParseState} {r : Record} {t : Shorter s}
    (e : s.advance = .ok (r, t)) : t.1.depth = s.depth ∧ ∃ hs, t.1.held = hs ++ s.held := by
  unfold advance at e
  split at e
  · cases e
  · cases e
    unfold log
    split
    · exact ⟨rfl, [], rfl⟩
    · exact ⟨rfl, [r], rfl⟩

/-- Leaving an attempt goes one attempt up. -/
theorem leave_depth (t : ParseState) (cp : Checkpoint) (failed : Bool) :
    (t.leave cp failed).depth = t.depth - 1 := by
  unfold leave
  cases failed <;> simp only [Bool.false_eq_true, if_false, if_true] <;> split <;> rfl

/-- Leaving an attempt: the held records of the checkpoint after a failure, those of the
production after a success, and none once no attempt is active. -/
theorem leave_held (t : ParseState) (cp : Checkpoint) (failed : Bool) :
    (t.leave cp failed).held =
      if t.depth - 1 = 0 then [] else if failed then cp.held else t.held := by
  unfold leave
  cases failed <;> simp only [Bool.false_eq_true, if_false, if_true] <;> split <;> simp_all

/-- From `s` to a later state `t` of an expression: the depth and the identifiers are the same,
the constants gained at most the zero, and the code grew at its new end, as did the held
records if an attempt was active. -/
structure ExprFrame (s t : ParseState) : Prop where
  /-- The attempt depth is the same. -/
  depth : t.depth = s.depth
  /-- No identifier was added or changed. -/
  idents : t.tables.idents = s.tables.idents
  /-- At most the zero was appended to the constants. -/
  consts : s.tables.ZeroAppended t.tables
  /-- The code only grew. -/
  code : ∃ es, t.code = es ++ s.code
  /-- Inside an attempt, the held records only grew. -/
  held : s.depth ≠ 0 → ∃ hs, t.held = hs ++ s.held

/-- A step that changes no depth, table, code or held record. -/
theorem ExprFrame.of_eq {s t : ParseState} (hd : t.depth = s.depth) (ht : t.tables = s.tables)
    (hc : t.code = s.code) (hh : t.held = s.held) : ExprFrame s t :=
  ⟨hd, by rw [ht], .of_consts (by rw [ht]), ⟨[], hc⟩, fun _ => ⟨[], hh⟩⟩

theorem ExprFrame.refl (s : ParseState) : ExprFrame s s :=
  .of_eq rfl rfl rfl rfl

theorem ExprFrame.trans {s t u : ParseState} (h : ExprFrame s t) (h' : ExprFrame t u) :
    ExprFrame s u := by
  refine ⟨h'.depth.trans h.depth, h'.idents.trans h.idents, h.consts.trans h'.consts, ?_,
    fun hs => ?_⟩
  · obtain ⟨es, hes⟩ := h.code
    obtain ⟨es', hes'⟩ := h'.code
    exact ⟨es' ++ es, by rw [hes', hes, List.append_assoc]⟩
  · obtain ⟨hs₁, h₁⟩ := h.held hs
    obtain ⟨hs₂, h₂⟩ := h'.held (by rw [h.depth]; exact hs)
    exact ⟨hs₂ ++ hs₁, by rw [h₂, h₁, List.append_assoc]⟩

/-- Leaving an attempt whose production kept the frame: the depth is back, a failure restores the
code and the held records of the checkpoint, a success keeps what the production added. -/
theorem ExprFrame.leave {s t : ParseState} (failed : Bool) (h : ExprFrame s.enter t) :
    ExprFrame s (t.leave s.checkpoint failed) := by
  have hd : t.depth - 1 = s.depth := by
    rw [h.depth]
    rfl
  refine ⟨by rw [leave_depth, hd], by rw [leave_tables]; exact h.idents,
    by rw [leave_tables]; exact h.consts, ?_, fun hs => ?_⟩
  · rw [leave_code]
    cases failed
    · exact h.code
    · exact ⟨[], rfl⟩
  · rw [leave_held, hd, if_neg hs]
    cases failed
    · exact h.held (Nat.succ_ne_zero _)
    · exact ⟨[], rfl⟩

/-- Every step of an expression keeps the frame. -/
theorem exprFrame_invariant : ExprInvariant ExprFrame where
  refl := ExprFrame.refl
  trans := ExprFrame.trans
  advance e := by
    obtain ⟨-, hc, ht⟩ := advance_ok e
    obtain ⟨hd, hs, hh⟩ := advance_depth_held e
    exact ⟨hd, by rw [ht], .of_consts (by rw [ht]), ⟨[], hc⟩, fun _ => ⟨hs, hh⟩⟩
  brackets _ _ := .of_eq rfl rfl rfl rfl
  emit s i := ⟨rfl, rfl, .of_consts rfl, ⟨[i], rfl⟩, fun _ => ⟨[], rfl⟩⟩
  zero s := ⟨rfl, Tables.internConst_idents _ _ _, Tables.zeroAppended_internValue s.tables,
    ⟨[], rfl⟩, fun _ => ⟨[], rfl⟩⟩
  attempt failed h := h.leave failed

end ParseState

namespace Reply

open ParseState

/-- An attempt begun in `s` is atomic: if it failed, it ends with the records, the code, the held
records, the bracket stack, the depth and the identifiers of `s`, and constants that gained at
most the zero; if it succeeded, its code and held records extend those of `s` and its depth is
that of `s`. -/
structure Atomic {s : ParseState} (r : Reply s) : Prop where
  /-- A failure restores everything but the zero. -/
  failed : ∀ e, r.result = .error e →
    r.state.rest = s.rest ∧ r.state.code = s.code ∧ r.state.held = s.held ∧
      r.state.brackets = s.brackets ∧ r.state.depth = s.depth ∧
      r.state.tables.idents = s.tables.idents ∧ s.tables.ZeroAppended r.state.tables
  /-- A success only extends the code and the held records. -/
  succeeded : r.result = .ok () →
    s.code.reverse <+: r.state.code.reverse ∧ s.held.reverse <+: r.state.held.reverse ∧
      r.state.depth = s.depth

/-- An attempt of a production that keeps the frame, from a settled state, is atomic. -/
theorem atomic_of_frame {s : ParseState} {r : Reply s.enter} (hs : s.Settled)
    (hr : ExprFrame s.enter r.state) : r.attempt.Atomic := by
  obtain ⟨res, t, ht⟩ := r
  -- outside every attempt nothing is held, so flushing the held records changes nothing
  have hheld : ∀ failed, (t.leave s.checkpoint failed).held = s.held ∨
      ∃ hs, (t.leave s.checkpoint failed).held = hs ++ s.held ∧ failed = false := by
    intro failed
    have hd : t.depth - 1 = s.depth := by
      rw [hr.depth]
      rfl
    rw [leave_held, hd]
    by_cases h0 : s.depth = 0
    · exact .inl (by rw [if_pos h0, hs h0])
    · rw [if_neg h0]
      cases failed
      · obtain ⟨hs', h'⟩ := hr.held (Nat.succ_ne_zero _)
        exact .inr ⟨hs', h', rfl⟩
      · exact .inl rfl
  have hf := hr.leave (s := s)
  constructor
  · intro e he
    cases he
    show (t.leave s.checkpoint true).rest = s.rest ∧ _
    have hf := hf true
    refine ⟨leave_rest _ _ _, leave_code _ _ _, ?_, leave_brackets _ _ _, hf.depth, hf.idents,
      hf.consts⟩
    rcases hheld true with h | ⟨-, -, hne⟩
    · exact h
    · cases hne
  · intro he
    cases he
    show s.code.reverse <+: (t.leave s.checkpoint false).code.reverse ∧
      s.held.reverse <+: (t.leave s.checkpoint false).held.reverse ∧
      (t.leave s.checkpoint false).depth = s.depth
    have hf := hf false
    obtain ⟨es, hes⟩ := hf.code
    refine ⟨⟨es.reverse, by rw [hes, List.reverse_append]⟩, ?_, hf.depth⟩
    rcases hheld false with h | ⟨hs', h, -⟩
    · exact h ▸ List.prefix_refl _
    · exact ⟨hs'.reverse, by rw [h, List.reverse_append]⟩

end Reply

/-- From every settled parser state, an attempt of a condition, of an arithmetic expression or of
a parenthesised comparison is atomic: a failed attempt leaves the records, the code, the held
records, the bracket stack, the attempt depth and the identifiers as they were, and the constants
at most extended by the zero of a unary minus; a successful one extends the code and the held
records and restores the depth. -/
theorem attempt_atomic (p : (s : ParseState) → Reply s)
    (hp : p = condition ∨ p = arith ∨ p = parenComparison) (s : ParseState) (hs : s.Settled) :
    (p s.enter).attempt.Atomic := by
  refine Reply.atomic_of_frame hs ?_
  rcases hp with rfl | rfl | rfl
  · exact ParseState.exprFrame_invariant.condition_state s.enter
  · exact ParseState.exprFrame_invariant.arith_state s.enter
  · exact ParseState.exprFrame_invariant.parenComparison_state s.enter

/-- The state before a lone `-` at the start of a parse: an attempt to read it as an arithmetic
expression interns the zero and then fails. -/
def loneMinusState : ParseState :=
  { rest := [⟨1, "-", .addOp, none⟩], tables := {}, lastLine := 1 }

/-- An attempt at an arithmetic expression on a lone `-` is atomic, even though it interns the zero
before it fails. -/
theorem attempt_atomic_loneMinus :
    (arith = condition ∨ arith = arith ∨ arith = parenComparison) ∧ loneMinusState.Settled ∧
      (arith loneMinusState.enter).attempt.Atomic :=
  ⟨.inr (.inl rfl), fun _ => rfl, attempt_atomic arith (.inr (.inl rfl)) _ fun _ => rfl⟩

end RpnLang
