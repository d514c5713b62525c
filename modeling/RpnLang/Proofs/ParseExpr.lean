import RpnLang.Parser.Expr
import RpnLang.Proofs.Derivation
import RpnLang.Proofs.ParseSteps

/-!
# Soundness of the expression parser

Whenever an arithmetic production succeeds, the records it consumed are the yield of a
derivation at its level and the code it appended is that derivation's emission. The loops that
read more operators of a level do not start a derivation of their own: they extend whatever
derivation ended where they start (`Continues`), adding one operator and its right operand per
turn. All seven productions are proved together by the parser's own mutual induction, one case
per branch of the code; the conditions and the right side of an assignment follow from them.
-/

namespace RpnLang

open ParseState Reply

namespace ParseState

/-- `t` ends a derivation at level `l` that began in `s`. -/
def Derives (l : Level) (s t : ParseState) : Prop :=
  ∃ e : Arith l, Reads s t e.yield e.emit

/-- Any derivation at level `l` that ended in `s` extends to one that ends in `t`. -/
def Continues (l : Level) (s t : ParseState) : Prop :=
  ∀ s0 (acc : Arith l), Reads s0 s acc.yield acc.emit → ∃ e : Arith l, Reads s0 t e.yield e.emit

/-- A state where the loop of a level stops continues every derivation that ended there. -/
theorem continues_refl (l : Level) (s : ParseState) : Continues l s s :=
  fun _ acc h => ⟨acc, h⟩

/-- The first operand of a level, then the level's loop, derive the level. -/
theorem derives_first {l l' : Level} (first : Arith l' → Arith l)
    (hy : ∀ b, (first b).yield = b.yield) (he : ∀ b, (first b).emit = b.emit)
    {s u v : ParseState} (hu : Derives l' s u) (hv : Continues l u v) : Derives l s v := by
  obtain ⟨b, hb⟩ := hu
  exact hv s (first b) (by rw [hy, he]; exact hb)

/-- One turn of a level's loop: the operator `op` read from `s` to `t`, a right operand from `t`
to `u`, the operator emitted, and the rest of the loop from there. -/
theorem continues_step {l l' : Level} {k : TokenKind}
    (mk : Arith l → OfKind k → Arith l' → Arith l)
    (hy : ∀ a o b, (mk a o b).yield = a.yield ++ o.1 :: b.yield)
    (he : ∀ a o b, (mk a o b).emit = a.emit ++ b.emit ++ [.ofRecord o.1])
    {s t u v : ParseState} (op : OfKind k) (hst : Reads s t [op.1] []) (htu : Derives l' t u)
    (hv : Continues l (u.emit (.ofRecord op.1)) v) : Continues l s v := by
  intro s0 acc hacc
  obtain ⟨b, hb⟩ := htu
  refine hv s0 (mk acc op b) ?_
  have h := ((hacc.trans hst).trans hb).trans (reads_emit u (.ofRecord op.1))
  rw [hy, he]
  simpa using h

/-- An operator is not a literal, so emitting it keeps the literals known. -/
theorem leads_emit_op {s : ParseState} {lexeme : String} {kind : TokenKind}
    (hk : kind.isConstant = false) : Leads s (s.emit (.token lexeme kind)) :=
  leads_emit fun hl => by simp [Instr.IsLiteral, hk] at hl

theorem zero_key : (Value.int 0).text = "0" := rfl

end ParseState

/-- A level read as its first operand and then its loop. -/
theorem first_sound {l l' : Level} (first : Arith l' → Arith l)
    (hy : ∀ b, (first b).yield = b.yield) (he : ∀ b, (first b).emit = b.emit)
    {s : ParseState} {sub : Reply s} (hsub : sub.Sound (Derives l' s))
    {more : (u : ParseState) → Reply u}
    (hmore : ∀ u, u.rest.length ≤ s.rest.length → (more u).Sound (Continues l u)) :
    (sub.andThen fun u _ => more u).Sound (Derives l s) :=
  hsub.andThen fun u hu _ hQ => (hmore u hu).mono fun _ hv => derives_first first hy he hQ hv

/-- One turn of a level's loop, as the code writes it: the operator, the right operand, then the
loop again after the operator is emitted. -/
theorem turn_sound {l l' : Level} {k : TokenKind} (hk : k.isConstant = false)
    (mk : Arith l → OfKind k → Arith l' → Arith l)
    (hy : ∀ a o b, (mk a o b).yield = a.yield ++ o.1 :: b.yield)
    (he : ∀ a o b, (mk a o b).emit = a.emit ++ b.emit ++ [.ofRecord o.1])
    {s t : ParseState} {op : Record} {h : t.rest.length < s.rest.length}
    (hadv : s.advance = .ok (op, ⟨t, h⟩)) (hop : op.kind = k)
    {sub : Reply t} (hsub : sub.Sound (Derives l' t)) {more : (u : ParseState) → Reply u}
    (hmore : ∀ u : ParseState, u.rest.length ≤ t.rest.length →
      (more (u.emit (.ofRecord op))).Sound (Continues l (u.emit (.ofRecord op)))) :
    ((sub.andThen fun u _ => (more (u.emit (.ofRecord op))).widen (Nat.le_refl _)).widen
      (Nat.le_of_lt h)).Sound (Continues l s) := by
  refine (hsub.andThen fun u hu _ hQ => ?_).widen _ (advance_leads hadv)
  refine ((hmore u hu).widen _ (leads_emit_op (by rw [hop]; exact hk))).mono fun v hv => ?_
  exact continues_step mk hy he ⟨op, hop⟩ (advance_reads hadv) hQ hv

/-- All seven arithmetic productions are sound. -/
theorem arith_sound_all :
    (∀ s, (arith s).Sound (Derives .arith s)) ∧
    (∀ s, (arithMore s).Sound (Continues .arith s)) ∧
    (∀ s, (term s).Sound (Derives .term s)) ∧
    (∀ s, (termMore s).Sound (Continues .term s)) ∧
    (∀ s, (chunk s).Sound (Derives .chunk s)) ∧
    (∀ s, (chunkMore s).Sound (Continues .chunk s)) ∧
    (∀ s, (factor s).Sound (Derives .factor s)) := by
  apply arith.mutual_induct (fun s => (arith s).Sound (Derives .arith s))
    (fun s => (arithMore s).Sound (Continues .arith s))
    (fun s => (term s).Sound (Derives .term s))
    (fun s => (termMore s).Sound (Continues .term s))
    (fun s => (chunk s).Sound (Derives .chunk s))
    (fun s => (chunkMore s).Sound (Continues .chunk s))
    (fun s => (factor s).Sound (Derives .factor s))
  · intro s hk e ha
    rw [arith, if_pos hk, ha]
    exact sound_fail e
  · intro s hk sign t h ha hminus zero tables hint t' _ ihTerm ihMore
    -- the code reads the interned key and tables as the two halves of one pair
    obtain ⟨rfl, rfl⟩ : zero = (t.tables.internValue (.int 0)).1 ∧
        tables = (t.tables.internValue (.int 0)).2 := by rw [hint]; exact ⟨rfl, rfl⟩
    have hkeys := Tables.internValue_keys t.tables (.int 0)
    have hsk : sign.kind = .addOp := kind_of_checkKind hk ha
    rw [arith, if_pos hk, ha]
    simp only [if_pos hminus]
    let t' : ParseState := { t with tables := (t.tables.internValue (.int 0)).2 }
    have hl1 : Leads t t' := leads_of_restore rfl rfl hkeys.1
    have hl2 : Leads t' (t'.emit (.token (t.tables.internValue (.int 0)).1 .int)) :=
      leads_emit fun _ => hkeys.2
    have hl := (advance_leads ha).trans (hl1.trans hl2)
    refine (ihTerm.andThen fun u hu _ huc => ?_).widen _ hl
    obtain ⟨c, hc⟩ := huc
    refine ((ihMore u hu).widen _ (leads_emit_op rfl)).mono fun v hv => ?_
    refine hv s (.signed (some ⟨sign, hsk⟩) c) ?_
    have hread := ((advance_reads ha).trans (reads_emit t'
      (.token (t.tables.internValue (.int 0)).1 .int))).trans (hc.trans (reads_emit u minusInstr))
    simpa [Arith.yield, Arith.emit, hminus, Tables.internValue, zero_key, zeroInstr, minusInstr]
      using hread
  · intro s hk sign t h ha hminus ihTerm ihMore
    have hsk : sign.kind = .addOp := kind_of_checkKind hk ha
    rw [arith, if_pos hk, ha]
    simp only [if_neg hminus]
    refine (ihTerm.andThen fun u hu _ huc => ?_).widen _ (advance_leads ha)
    obtain ⟨c, hc⟩ := huc
    refine (ihMore u hu).mono fun v hv => hv s (.signed (some ⟨sign, hsk⟩) c) ?_
    simpa [Arith.yield, Arith.emit, hminus] using (advance_reads ha).trans hc
  · intro s hk ihTerm ihMore
    rw [arith, if_neg hk]
    exact first_sound (.signed none) (fun _ => rfl) (fun _ => rfl) ihTerm ihMore
  · intro s hk e ha
    rw [arithMore, if_pos hk, ha]
    exact sound_fail e
  · intro s hk op t h ha ihTerm ihMore
    rw [arithMore, if_pos hk, ha]
    exact turn_sound rfl .add (fun _ _ _ => rfl) (fun _ _ _ => rfl) ha
      (kind_of_checkKind hk ha) ihTerm ihMore
  · intro s hk
    rw [arithMore, if_neg hk]
    exact sound_ok _ (Leads.refl s) (continues_refl _ s)
  · intro s ihChunk ihMore
    rw [term]
    exact first_sound .term (fun _ => rfl) (fun _ => rfl) ihChunk ihMore
  · intro s hk e ha
    rw [termMore, if_pos hk, ha]
    exact sound_fail e
  · intro s hk op t h ha ihChunk ihMore
    rw [termMore, if_pos hk, ha]
    exact turn_sound rfl .mul (fun _ _ _ => rfl) (fun _ _ _ => rfl) ha
      (kind_of_checkKind hk ha) ihChunk ihMore
  · intro s hk
    rw [termMore, if_neg hk]
    exact sound_ok _ (Leads.refl s) (continues_refl _ s)
  · intro s ihFactor ihMore
    rw [chunk]
    exact first_sound .chunk (fun _ => rfl) (fun _ => rfl) ihFactor ihMore
  · intro s hk e ha
    rw [chunkMore, if_pos hk, ha]
    exact sound_fail e
  · intro s hk op t h ha ihFactor ihMore
    rw [chunkMore, if_pos hk, ha]
    exact turn_sound rfl .pow (fun _ _ _ => rfl) (fun _ _ _ => rfl) ha
      (kind_of_checkKind hk ha) ihFactor ihMore
  · intro s hk
    rw [chunkMore, if_neg hk]
    exact sound_ok _ (Leads.refl s) (continues_refl _ s)
  · intro s hs
    simp only [factor, hs]
    exact sound_fail _
  · intro s r tail hs hop e ha
    simp only [factor, hs]
    simp only [if_pos hop, ha]
    exact sound_fail e
  · intro s r tail hs hop r' t h ha
    obtain ⟨hr, -⟩ := List.cons.inj (hs.symm.trans (advance_ok ha).1)
    subst hr
    simp only [factor, hs]
    simp only [if_pos hop, ha]
    refine sound_ok _ (advance_emit_leads ha) ⟨.operand ⟨r, hop⟩, ?_⟩
    simpa [Arith.yield, Arith.emit] using (advance_reads ha).trans (reads_emit t (.ofRecord r))
  · intro s r tail hs hop hpar e hb
    simp only [factor, hs]
    simp only [if_neg hop, if_pos hpar, hb]
    exact sound_fail e
  · intro s r tail hs hop hpar lp t h hb ihArith
    obtain ⟨hlp, hreadl, hleadl⟩ := bracket_ok hb
    simp only [factor, hs]
    simp only [if_neg hop, if_pos hpar, hb]
    refine (ihArith.andThen fun u hu hlu hue => ?_).widen _ hleadl
    obtain ⟨e, he⟩ := hue
    split
    · exact sound_fail _
    · rename_i rp v hv hbr
      obtain ⟨hrp, hreadr, hleadr⟩ := bracket_ok hbr
      refine sound_ok _ hleadr ⟨.paren ⟨lp, hlp⟩ e ⟨rp, hrp⟩, ?_⟩
      simpa [Arith.yield, Arith.emit] using (hreadl.trans he).trans hreadr
  · intro s r tail hs hop hpar
    simp only [factor, hs]
    simp only [if_neg hop, if_neg hpar]
    exact sound_fail _

theorem arith_sound (s : ParseState) : (arith s).Sound (Derives .arith s) :=
  arith_sound_all.1 s

/-- A comparison reads two arithmetic expressions around its operator and emits the operator
last. -/
theorem comparison_sound (s : ParseState) :
    (comparison s).Sound (Parsed Comparison.yield Comparison.emit s) := by
  unfold comparison
  refine (arith_sound s).andThen fun t _ _ hta => ?_
  obtain ⟨a, ha⟩ := hta
  split
  · exact sound_fail _
  · rename_i op u hu he
    obtain ⟨hk, hadv⟩ := expectKind_ok he
    refine ((arith_sound u).andThen fun v _ _ hvb => ?_).widen _ (advance_leads hadv)
    obtain ⟨b, hb⟩ := hvb
    refine sound_ok _ (leads_emit_op (by rw [hk]; rfl)) ⟨⟨a, ⟨op, hk⟩, b⟩, ?_⟩
    have h := ((ha.trans (advance_reads hadv)).trans hb).trans (reads_emit v (.ofRecord op))
    simpa [Comparison.yield, Comparison.emit] using h

/-- A comparison between parentheses. -/
theorem parenComparison_sound (s : ParseState) :
    (parenComparison s).Sound (Parsed Cond.yield Cond.emit s) := by
  unfold parenComparison
  split
  · exact sound_fail _
  · rename_i lp t h hb
    obtain ⟨hlp, hreadl, hleadl⟩ := bracket_ok hb
    refine ((comparison_sound t).andThen fun u _ _ huc => ?_).widen _ hleadl
    obtain ⟨c, hc⟩ := huc
    split
    · exact sound_fail _
    · rename_i rp v hv hbr
      obtain ⟨hrp, hreadr, hleadr⟩ := bracket_ok hbr
      refine sound_ok _ hleadr ⟨.paren ⟨lp, hlp⟩ c ⟨rp, hrp⟩, ?_⟩
      simpa [Cond.yield, Cond.emit] using (hreadl.trans hc).trans hreadr

/-- Derivations are about the records and the code alone. -/
theorem parsed_congr {α : Type} (yield : α → List Record) (emit : α → List Instr)
    (s : ParseState) : ∀ t t' : ParseState, t'.rest = t.rest → t'.code = t.code →
      Parsed yield emit s t → Parsed yield emit s t' :=
  fun _ _ hr hc hx => hx.imp fun _ h => h.congr hr hc

/-- A condition: a truth literal, a parenthesised comparison if one can be read, or else a
comparison. -/
theorem condition_sound (s : ParseState) :
    (condition s).Sound (Parsed Cond.yield Cond.emit s) := by
  unfold condition
  split
  · -- a truth literal, emitted as it is
    rename_i hk
    split
    · exact sound_fail _
    · rename_i r t h ha
      refine sound_ok _ (advance_emit_leads ha) ⟨.lit ⟨r, kind_of_checkKind hk ha⟩, ?_⟩
      simpa [Cond.yield, Cond.emit] using (advance_reads ha).trans (reads_emit t (.ofRecord r))
  · split
    · -- a parenthesised comparison is attempted first
      have hA := parenComparison_sound s.enter
      split
      · rename_i t h heq
        obtain ⟨hl, hq⟩ := attempt_ok_eq hA (parsed_congr _ _ _) heq
        exact sound_ok h hl hq
      · rename_i e t h heq
        obtain ⟨hl, hrest, hcode⟩ := attempt_error_eq hA heq
        refine ((comparison_sound t).widen h hl).mono fun u huc => ?_
        obtain ⟨c, hc⟩ := huc
        exact ⟨.compare c, hc.congr_left hrest.symm hcode.symm⟩
    · exact (comparison_sound s).mono fun u huc => huc.elim fun c hc => ⟨.compare c, hc⟩

/-- The right side of an assignment: a condition if one can be read, else an arithmetic
expression. -/
theorem expression_sound (s : ParseState) :
    (expression s).Sound (Parsed Rhs.yield Rhs.emit s) := by
  unfold expression
  have hA := condition_sound s.enter
  split
  · rename_i t h heq
    obtain ⟨hl, ⟨c, hc⟩⟩ := attempt_ok_eq hA (parsed_congr _ _ _) heq
    exact sound_ok h hl ⟨.cond c, hc⟩
  · rename_i e t h heq
    obtain ⟨hl, hrest, hcode⟩ := attempt_error_eq hA heq
    have hB := arith_sound t.enter
    split
    · rename_i u hu heq'
      obtain ⟨hl', ⟨a, ha⟩⟩ := attempt_ok_eq hB (parsed_congr _ _ _) heq'
      exact sound_ok _ (hl.trans hl') ⟨.arith a, ha.congr_left hrest.symm hcode.symm⟩
    · rename_i e' u hu heq'
      obtain ⟨hl', -⟩ := attempt_error_eq hB heq'
      exact sound_error _ _ (hl.trans hl')

end RpnLang
