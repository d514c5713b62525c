import RpnLang.Parser.Program
import RpnLang.Proofs.ParseExpr

/-!
# Soundness of the statement and program parser

A successful parse of a program consumes exactly the yield of a derivation of the program and
leaves as code that derivation's emission. Every statement production begins after the
statement's first record, which the statement dispatch consumes; its promise (`StmtAfter`) is
that the statement begun before that record ends where the production ends. The declarations
are read with the tables: an identifier is declared only if it has no type yet, and keeps its
type afterwards, so no identifier is named twice in the declarations of a parsed program.
-/

namespace RpnLang

open ParseState Reply

namespace ParseState

/-- After the first record `first` of a statement, the statement begun before that record ends
in `t`. -/
def StmtAfter (first : Record) (s t : ParseState) : Prop :=
  ∀ s0, Reads s0 s [first] [] → Parsed Stmt.yield Stmt.emit s0 t

end ParseState

/-! ### Declarations -/

/-- A declaration succeeds only for an identifier with no type yet; afterwards it has one, and
every identifier that had a type keeps it. -/
theorem declare_ok {t t' : Tables} {name : Record} {ty : Ty} (h : t.declare name ty = .ok t') :
    ¬t.Typed name.lexeme ∧ t'.Typed name.lexeme ∧ (∀ m, t.Typed m → t'.Typed m) ∧
      t'.consts = t.consts := by
  unfold Tables.declare at h
  split at h
  · rename_i e he
    split at h
    · cases h
    · rename_i hty
      cases h
      refine ⟨fun hex => ?_, Tables.setType_typed ty (by simp [he]), ?_, by simp⟩
      · obtain ⟨e', he', hty'⟩ := hex
        rw [he] at he'
        cases he'
        exact hty hty'
      · intro m hm
        by_cases hmn : m = name.lexeme
        · subst hmn
          exact Tables.setType_typed ty (by simp [he])
        · obtain ⟨e', he', hty'⟩ := hm
          exact ⟨e', by rw [Tables.setType_ident?_other ty hmn, he'], hty'⟩
  · rename_i he
    cases h
    obtain ⟨hreg, hother⟩ := Tables.registerIdent_ident? t name.lexeme
    refine ⟨?_, Tables.setType_typed ty hreg, ?_, by simp⟩
    · rintro ⟨e', he', -⟩
      rw [he] at he'
      cases he'
    intro m hm
    by_cases hmn : m = name.lexeme
    · subst hmn
      exact Tables.setType_typed ty hreg
    · obtain ⟨e', he', hty'⟩ := hm
      exact ⟨e', by rw [Tables.setType_ident?_other ty hmn, hother m hmn, he'], hty'⟩

/-- Declared names so far: all typed, none twice. -/
def DeclaredSoFar (t : Tables) (names : List String) : Prop :=
  names.Nodup ∧ ∀ x ∈ names, t.Typed x

/-- A declaration extends the declared names by its identifier. -/
theorem declaredSoFar_declare {t t' : Tables} {name : Record} {ty : Ty} {names : List String}
    (h : t.declare name ty = .ok t') (hd : DeclaredSoFar t names) :
    DeclaredSoFar t' (names ++ [name.lexeme]) := by
  obtain ⟨hnew, htyped, hkeep, -⟩ := declare_ok h
  refine ⟨List.nodup_append.mpr ⟨hd.1, List.nodup_cons.mpr ⟨List.not_mem_nil, List.nodup_nil⟩, ?_⟩,
    ?_⟩
  · intro x hx y hy hxy
    rw [List.mem_singleton] at hy
    rw [hxy, hy] at hx
    exact hnew (hd.2 _ hx)
  · intro x hx
    rcases List.mem_append.mp hx with hx | hx
    · exact hkeep x (hd.2 x hx)
    · rw [List.mem_singleton] at hx
      subst hx
      exact htyped

/-- A state whose tables differ only in their identifiers comes after the state. -/
theorem leads_declare {s : ParseState} {tables : Tables} (h : tables.consts = s.tables.consts) :
    Leads s { s with tables } :=
  leads_of_restore rfl rfl (Tables.KeysWithin.of_consts h)

/-- The identifiers of a list of names, as text. -/
def Names.lexemes (ns : Names) : List String :=
  ns.idents.map (·.lexeme)

/-- A list of names with one more identifier and a comma in front. -/
def Names.cons (x : OfKind .ident) (comma : Word "," .punct) (ns : Names) : Names :=
  ⟨x, (comma, ns.first) :: ns.more⟩

/-- A name list with one more name in front reads that name and a comma first. -/
@[simp] theorem Names.yield_cons (x : OfKind .ident) (comma : Word "," .punct) (ns : Names) :
    (ns.cons x comma).yield = x.1 :: comma.1 :: ns.yield := by
  simp [Names.cons, Names.yield]

/-- A name list with one more name in front has that identifier first. -/
@[simp] theorem Names.idents_cons (x : OfKind .ident) (comma : Word "," .punct) (ns : Names) :
    (ns.cons x comma).idents = x.1 :: ns.idents := by
  simp [Names.cons, Names.idents]

/-- A name list with one more name in front has that name first. -/
@[simp] theorem Names.lexemes_cons (x : OfKind .ident) (comma : Word "," .punct) (ns : Names) :
    (ns.cons x comma).lexemes = x.1.lexeme :: ns.lexemes := by
  simp [Names.lexemes]

/-- Whatever is declared after a list of names, by the declaration of its identifiers in order. -/
def NamesDeclared (s t : ParseState) : Prop :=
  ∀ names, DeclaredSoFar s.tables names →
    ∃ ns : Names, Reads s t ns.yield [] ∧ DeclaredSoFar t.tables (names ++ ns.lexemes)

/-- The list of names of a declaration: each one declared with the type, none twice. -/
theorem declNames_sound (ty : Ty) (s : ParseState) : (declNames s ty).Sound (NamesDeclared s) := by
  induction s using declNames.induct ty with
  | case1 s e he =>
    rw [declNames, he]
    exact sound_fail e
  | case2 s name t h he e hd =>
    rw [declNames, he]
    simp only [hd]
    exact sound_error _ _ (advance_leads (expectKind_ok he).2)
  | case3 s name t h he tables hd t' _ hc e ha =>
    rw [declNames, he]
    simp only [hd]
    rw [if_pos hc, ha]
    exact sound_error _ _ ((advance_leads (expectKind_ok he).2).trans
      (leads_declare (declare_ok hd).2.2.2))
  | case4 s name t h he tables hd t' _ hc comma u hu ha ih =>
    rw [declNames, he]
    simp only [hd]
    rw [if_pos hc, ha]
    obtain ⟨hkind, hadv⟩ := expectKind_ok he
    have hl : Leads s t' := (advance_leads hadv).trans (leads_declare (declare_ok hd).2.2.2)
    refine (ih.mono fun v hv names hnames => ?_).widen _ (hl.trans (advance_leads ha))
    -- the identifier is declared before the rest of the list is read
    have hnames' : DeclaredSoFar u.tables (names ++ [name.lexeme]) := by
      rw [(advance_ok ha).2.2]
      exact declaredSoFar_declare hd (by rw [(advance_ok hadv).2.2]; exact hnames)
    obtain ⟨ns, hread, hdecl⟩ := hv _ hnames'
    refine ⟨ns.cons ⟨name, hkind⟩ ⟨comma, is_of_check hc ha⟩, ?_, by simpa using hdecl⟩
    have h1 : Reads s t' [name] [] := (advance_reads hadv).congr rfl rfl
    simpa using (h1.trans (advance_reads ha)).trans hread
  | case5 s name t h he tables hd t' _ hc =>
    rw [declNames, he]
    simp only [hd]
    rw [if_neg hc]
    obtain ⟨hkind, hadv⟩ := expectKind_ok he
    refine sound_ok _ ((advance_leads hadv).trans (leads_declare (declare_ok hd).2.2.2))
      fun names hnames => ⟨⟨⟨name, hkind⟩, []⟩, ?_, ?_⟩
    · have h1 : Reads s t' [name] [] := (advance_reads hadv).congr rfl rfl
      simpa [Names.yield] using h1
    · have := declaredSoFar_declare hd (by rw [(advance_ok hadv).2.2]; exact hnames)
      simpa [Names.lexemes, Names.idents] using this

/-- The type keyword the dispatch of declarations sees is the record consumed next. -/
theorem declaredType?_some {s : ParseState} {ty : Ty} {r : Record} {t : Shorter s}
    (hty : s.declaredType? = some ty) (e : s.advance = .ok (r, t)) :
    r.kind = .keyword ∧ Ty.ofKeyword? r.lexeme = some ty := by
  have hr := (advance_ok e).1
  simp only [declaredType?, hr] at hty
  split at hty
  · exact ⟨by assumption, hty⟩
  · cases hty

@[simp] theorem declaredSoFar_nil (t : Tables) : DeclaredSoFar t [] :=
  ⟨List.nodup_nil, fun _ h => nomatch h⟩

/-- The identifiers of declarations, as text. -/
def Decl.lexemes (ds : List Decl) : List String :=
  ds.flatMap (·.names.lexemes)

/-- Whatever is declared after declarations, by the declaration of their identifiers in order. -/
def DeclsDeclared (s t : ParseState) : Prop :=
  ∀ names, DeclaredSoFar s.tables names →
    ∃ ds : List Decl, Reads s t (ds.flatMap Decl.yield) [] ∧
      DeclaredSoFar t.tables (names ++ Decl.lexemes ds)

/-- Declarations read as long as a type keyword comes next. -/
theorem declarations_sound (s : ParseState) : (declarations s).Sound (DeclsDeclared s) := by
  induction s using declarations.induct with
  | case1 s hty =>
    rw [declarations, hty]
    exact sound_ok _ (Leads.refl s) fun names hnames =>
      ⟨[], Reads.of_eq rfl rfl, by simpa [Decl.lexemes] using hnames⟩
  | case2 s ty hty e ha =>
    rw [declarations, hty]
    simp only [ha]
    exact sound_fail e
  | case3 s ty hty kw t h ha ih =>
    rw [declarations, hty]
    simp only [ha]
    obtain ⟨hkw, hkty⟩ := declaredType?_some hty ha
    refine ((declNames_sound ty t).andThen fun u hu _ hnames => ?_).widen _ (advance_leads ha)
    split
    · exact sound_fail _
    · rename_i semi v hv he
      obtain ⟨hsemi, hadv⟩ := expect_ok he
      refine ((ih u hu v hv).widen _ (advance_leads hadv)).mono fun w hw names hd => ?_
      -- the tables of `s` are those of `t`, and those of `u` are those of `v`
      obtain ⟨ns, hread, hd'⟩ := hnames names (by rw [(advance_ok ha).2.2]; exact hd)
      obtain ⟨ds, hread', hd''⟩ := hw _ (by rw [(advance_ok hadv).2.2]; exact hd')
      let d : Decl := ⟨⟨kw, hkw, by rw [hkty]; rfl⟩, ns, ⟨semi, hsemi⟩⟩
      refine ⟨d :: ds, ?_, by simpa [Decl.lexemes, d] using hd''⟩
      have hread'' := (((advance_reads ha).trans hread).trans (advance_reads hadv)).trans hread'
      simpa [Decl.yield, d] using hread''

/-! ### Statements -/

/-- The rest of an assignment: `=`, the right side and `;`, the target's instruction first and
the `=` last. -/
theorem assignRest_sound (s : ParseState) (target : OfKind .ident) :
    (assignRest s target.1).Sound (StmtAfter target.1 s) := by
  have hl : Leads s (s.emit (.ofRecord target.1)) :=
    leads_emit_op (by rw [target.2]; rfl)
  unfold assignRest
  dsimp only
  split
  · exact sound_error _ _ hl
  · rename_i r tail hs
    split
    · rename_i hIs
      split
      · exact sound_error _ _ hl
      · rename_i op t h ha
        have hop : op.Is "=" .assignOp = true := by
          obtain ⟨hr, -⟩ := List.cons.inj (hs.symm.trans (advance_ok ha).1)
          rw [← hr]
          exact hIs
        have hopk : op.kind = .assignOp := Record.kind_of_is hop
        refine ((expression_sound t).andThen fun u _ _ hrhs' => ?_).widen _
          (hl.trans (advance_leads ha))
        obtain ⟨rhs, hrhs⟩ := hrhs'
        split
        · exact sound_fail _
        · rename_i semi v hv he
          obtain ⟨hsemi, hadv⟩ := expect_ok he
          refine sound_ok _ ((advance_leads hadv).trans (leads_emit_op (by rw [hopk]; rfl)))
            fun s0 h0 => ⟨.assign target ⟨op, hop⟩ rhs ⟨semi, hsemi⟩, ?_⟩
          have hread := ((((h0.trans (reads_emit s (.ofRecord target.1))).trans
            (advance_reads ha)).trans hrhs).trans (advance_reads hadv)).trans
            (reads_emit v (.ofRecord op))
          simpa [Stmt.yield, Stmt.emit] using hread
    · exact sound_error _ _ hl

/-- The identifiers of an `input` or `print` list, each followed by the keyword in the code. -/
theorem ioNames_sound (kw : Record) (hkw : kw.kind.isConstant = false) (s : ParseState) :
    (ioNames s kw).Sound fun t => ∃ ns : Names, Reads s t ns.yield (ns.emitWith kw) := by
  induction s using ioNames.induct kw with
  | case1 s e he =>
    rw [ioNames, he]
    exact sound_fail e
  | case2 s name t h he t' _ hc e ha =>
    obtain ⟨hkind, hadv⟩ := expectKind_ok he
    have hl : Leads s t' := (advance_leads hadv).trans
      ((leads_emit_op (by rw [hkind]; rfl)).trans (leads_emit_op hkw))
    rw [ioNames, he]
    simp only
    rw [if_pos hc, ha]
    exact sound_error _ _ hl
  | case3 s name t h he t' _ hc comma u hu ha ih =>
    obtain ⟨hkind, hadv⟩ := expectKind_ok he
    have hl : Leads s t' := (advance_leads hadv).trans
      ((leads_emit_op (by rw [hkind]; rfl)).trans (leads_emit_op hkw))
    rw [ioNames, he]
    simp only
    rw [if_pos hc, ha]
    refine (ih.mono fun v hv => ?_).widen _ (hl.trans (advance_leads ha))
    obtain ⟨ns, hread⟩ := hv
    refine ⟨ns.cons ⟨name, hkind⟩ ⟨comma, is_of_check hc ha⟩, ?_⟩
    have h1 : Reads s t' [name] [.ofRecord name, .ofRecord kw] :=
      ((advance_reads hadv).trans (reads_emit t _)).trans (reads_emit _ _)
    simpa [Names.emitWith] using (h1.trans (advance_reads ha)).trans hread
  | case4 s name t h he t' _ hc =>
    obtain ⟨hkind, hadv⟩ := expectKind_ok he
    have hl : Leads s t' := (advance_leads hadv).trans
      ((leads_emit_op (by rw [hkind]; rfl)).trans (leads_emit_op hkw))
    rw [ioNames, he]
    simp only
    rw [if_neg hc]
    refine sound_ok _ hl ⟨⟨⟨name, hkind⟩, []⟩, ?_⟩
    have h1 : Reads s t' [name] [.ofRecord name, .ofRecord kw] :=
      ((advance_reads hadv).trans (reads_emit t _)).trans (reads_emit _ _)
    simpa [Names.yield, Names.emitWith, Names.idents] using h1

/-- The rest of an `input` or `print` statement: the list of names in parentheses and `;`. -/
theorem ioRest_sound (s : ParseState) (kw : IoWord) : (ioRest s kw.1).Sound (StmtAfter kw.1 s) := by
  have hkw : kw.1.kind.isConstant = false := by rw [kw.2.1]; rfl
  unfold ioRest
  split
  · exact sound_fail _
  · rename_i lp t h hb
    obtain ⟨hlp, hreadl, hleadl⟩ := bracket_ok hb
    refine ((ioNames_sound kw.1 hkw t).andThen fun u _ _ hu => ?_).widen _ hleadl
    obtain ⟨ns, hns⟩ := hu
    split
    · exact sound_fail _
    · rename_i rp v hv hbr
      obtain ⟨hrp, hreadr, hleadr⟩ := bracket_ok hbr
      split
      · exact sound_error _ _ hleadr
      · rename_i semi w hw he
        obtain ⟨hsemi, hadv⟩ := expect_ok he
        refine sound_ok _ (hleadr.trans (advance_leads hadv))
          fun s0 h0 => ⟨.io kw ⟨lp, hlp⟩ ns ⟨rp, hrp⟩ ⟨semi, hsemi⟩, ?_⟩
        have hread := (((h0.trans hreadl).trans hns).trans hreadr).trans (advance_reads hadv)
        simpa [Stmt.yield, Stmt.emit] using hread

/-- Emitting a marker keeps the literals known. -/
theorem leads_emit_marker (s : ParseState) (m : Marker) : Leads s (s.emit (.marker m)) :=
  leads_emit fun h => h.elim

/-- A statement chosen by its first record, which has just been consumed. -/
theorem dispatch_sound {s : ParseState} {first : Record}
    (hstart : (first.kind = .ident || (first.kind = .keyword && (first.lexeme = "input" ||
      first.lexeme = "print" || first.lexeme = "if" || first.lexeme = "do"))) = true)
    (hif : (ifRest s).Sound fun t => ∀ kw : Word "if" .keyword, StmtAfter kw.1 s t)
    (hdo : (doRest s).Sound fun t => ∀ kw : Word "do" .keyword, StmtAfter kw.1 s t) :
    (if first.kind = .ident then assignRest s first
      else if first.lexeme = "if" then ifRest s
      else if first.lexeme = "do" then doRest s
      else ioRest s first).Sound (StmtAfter first s) := by
  simp only [Bool.or_eq_true, Bool.and_eq_true, decide_eq_true_eq] at hstart
  by_cases hid : first.kind = .ident
  · rw [if_pos hid]
    exact assignRest_sound s ⟨first, hid⟩
  -- any other statement starts with a keyword
  obtain ⟨hkw, hlex⟩ := hstart.resolve_left hid
  rw [if_neg hid]
  by_cases hif' : first.lexeme = "if"
  · rw [if_pos hif']
    exact hif.mono fun t ht => ht ⟨first, by simp [Record.Is, hkw, hif']⟩
  rw [if_neg hif']
  by_cases hdo' : first.lexeme = "do"
  · rw [if_pos hdo']
    exact hdo.mono fun t ht => ht ⟨first, by simp [Record.Is, hkw, hdo']⟩
  rw [if_neg hdo']
  have hio : first.lexeme = "input" ∨ first.lexeme = "print" := by
    rcases hlex with ((h | h) | h) | h
    · exact Or.inl h
    · exact Or.inr h
    · exact absurd h hif'
    · exact absurd h hdo'
  exact ioRest_sound s ⟨first, hkw, hio⟩

/-- Blocks, statement lists and the `if` and `do` statements are sound together, by the
parser's own mutual induction. -/
theorem block_sound_all :
    (∀ s, (block s).Sound (Parsed Block.yield Block.emit s)) ∧
    (∀ s, (statements s).Sound (Parsed Stmt.yieldAll Stmt.emitAll s)) ∧
    (∀ s, (doRest s).Sound fun t => ∀ kw : Word "do" .keyword, StmtAfter kw.1 s t) ∧
    (∀ s, (ifRest s).Sound fun t => ∀ kw : Word "if" .keyword, StmtAfter kw.1 s t) := by
  apply block.mutual_induct (fun s => (block s).Sound (Parsed Block.yield Block.emit s))
    (fun s => (statements s).Sound (Parsed Stmt.yieldAll Stmt.emitAll s))
    (fun s => (doRest s).Sound fun t => ∀ kw : Word "do" .keyword, StmtAfter kw.1 s t)
    (fun s => (ifRest s).Sound fun t => ∀ kw : Word "if" .keyword, StmtAfter kw.1 s t)
  · intro s e hb
    rw [block, hb]
    exact sound_fail e
  · intro s lb t h hb ih
    obtain ⟨hlb, hreadl, hleadl⟩ := bracket_ok hb
    rw [block, hb]
    refine (ih.andThen fun u _ _ hu => ?_).widen _ hleadl
    obtain ⟨ss, hss⟩ := hu
    split
    · exact sound_fail _
    · rename_i rb v hv hbr
      obtain ⟨hrb, hreadr, hleadr⟩ := bracket_ok hbr
      refine sound_ok _ hleadr ⟨.mk ⟨lb, hlb⟩ ss ⟨rb, hrb⟩, ?_⟩
      simpa [Block.yield, Block.emit] using (hreadl.trans hss).trans hreadr
  · intro s hs
    rw [statements]
    simp only [hs]
    exact sound_ok _ (Leads.refl s) ⟨[], Reads.of_eq rfl rfl⟩
  · intro s r tail hs hclose
    rw [statements]
    simp only [hs]
    rw [if_pos hclose]
    exact sound_ok _ (Leads.refl s) ⟨[], Reads.of_eq rfl rfl⟩
  · intro s r tail hs hclose hstart e ha
    rw [statements]
    simp only [hs]
    rw [if_neg hclose, if_pos hstart, ha]
    exact sound_fail e
  · intro s r tail hs hclose hstart first t h ha ihIf ihDo ihStmts
    obtain ⟨hr, -⟩ := List.cons.inj (hs.symm.trans (advance_ok ha).1)
    subst hr
    rw [statements]
    simp only [hs]
    rw [if_neg hclose, if_pos hstart, ha]
    refine ((dispatch_sound hstart ihIf ihDo).andThen fun u hu _ hst => ?_).widen _
      (advance_leads ha)
    refine ((ihStmts u hu).widen _ (Leads.refl u)).mono fun v hv => ?_
    obtain ⟨ss, hss⟩ := hv
    obtain ⟨st, hst⟩ := hst s (advance_reads ha)
    exact ⟨st :: ss, by simpa [Stmt.yieldAll, Stmt.emitAll] using hst.trans hss⟩
  · intro s r tail hs hclose hstart
    rw [statements]
    simp only [hs]
    rw [if_neg hclose, if_neg hstart]
    exact sound_fail _
  · intro s s' _ ih
    rw [doRest]
    refine (ih.andThen fun t _ _ ht => ?_).widen _ (leads_emit_marker s .loopStart)
    obtain ⟨b, hb⟩ := ht
    split
    · exact sound_fail _
    · rename_i wkw u hu he
      obtain ⟨hw, hadv⟩ := expect_ok he
      split
      · exact sound_error _ _ (advance_leads hadv)
      · rename_i lp v hv hbl
        obtain ⟨hlp, hreadl, hleadl⟩ := bracket_ok hbl
        refine ((condition_sound v).andThen fun w _ _ hcw => ?_).widen _
          ((advance_leads hadv).trans hleadl)
        obtain ⟨c, hc⟩ := hcw
        split
        · exact sound_fail _
        · rename_i rp x hx hbr
          obtain ⟨hrp, hreadr, hleadr⟩ := bracket_ok hbr
          refine sound_ok _ (hleadr.trans (leads_emit_marker x .loopEnd))
            fun kw s0 h0 => ⟨.doWhile kw b ⟨wkw, hw⟩ ⟨lp, hlp⟩ c ⟨rp, hrp⟩, ?_⟩
          have hread := ((((((h0.trans (reads_emit s _)).trans hb).trans (advance_reads hadv)).trans
            hreadl).trans hc).trans hreadr).trans (reads_emit x (.marker .loopEnd))
          simpa [Stmt.yield, Stmt.emit] using hread
  · intro s e hb
    rw [ifRest, hb]
    exact sound_fail e
  · intro s lp t h hb ihBlock
    obtain ⟨hlp, hreadl, hleadl⟩ := bracket_ok hb
    rw [ifRest, hb]
    refine ((condition_sound t).andThen fun u hu _ huc => ?_).widen _ hleadl
    obtain ⟨c, hc⟩ := huc
    split
    · exact sound_fail _
    · rename_i rp v hv hbr
      obtain ⟨hrp, hreadr, hleadr⟩ := bracket_ok hbr
      refine ((ihBlock u hu v hv).andThen fun w _ _ hw => ?_).widen _ hleadr
      obtain ⟨b, hb⟩ := hw
      refine sound_ok _ (leads_emit_marker w .ifEnd)
        fun kw s0 h0 => ⟨.ifThen kw ⟨lp, hlp⟩ c ⟨rp, hrp⟩ b, ?_⟩
      have hread := ((((h0.trans hreadl).trans hc).trans hreadr).trans hb).trans
        (reads_emit w (.marker .ifEnd))
      simpa [Stmt.yield, Stmt.emit] using hread

/-- A block that succeeds read a block derivation and emitted its code. -/
theorem block_sound (s : ParseState) : (block s).Sound (Parsed Block.yield Block.emit s) :=
  block_sound_all.1 s

/-! ### Programs -/

/-- The identifiers a program declares, as text, are those of its declarations. -/
theorem Program.declared_lexemes (p : Program) :
    p.declared.map (·.lexeme) = Decl.lexemes p.decls := by
  simp [Program.declared, Decl.lexemes, Names.lexemes, List.map_flatMap]

/-- A parsed program: a derivation of the consumed records with its emission as the code, no
record left, and no identifier declared twice. -/
def ProgramParsed (s t : ParseState) : Prop :=
  ∃ p : Program, Reads s t p.yield p.emit ∧ t.rest = [] ∧ p.DeclaredOnce

/-- The program production is sound. -/
theorem program_sound (s : ParseState) : (program s).Sound (ProgramParsed s) := by
  unfold program
  split
  · exact sound_fail _
  · rename_i kw s1 h1 he1
    obtain ⟨hkw, hadv1⟩ := expect_ok he1
    split
    · exact sound_error _ _ (advance_leads hadv1)
    · rename_i name s2 h2 he2
      obtain ⟨hname, hadv2⟩ := expectKind_ok he2
      split
      · exact sound_error _ _ ((advance_leads hadv1).trans (advance_leads hadv2))
      · rename_i lb s3 h3 hb3
        obtain ⟨hlb, hread3, hlead3⟩ := bracket_ok hb3
        have hl : Leads s s3 := ((advance_leads hadv1).trans (advance_leads hadv2)).trans hlead3
        refine ((declarations_sound s3).andThen fun s4 _ _ hdecls => ?_).widen _ hl
        refine (block_sound s4).andThen fun s5 _ _ h5 => ?_
        obtain ⟨b, hb⟩ := h5
        split
        · exact sound_fail _
        · rename_i rb s6 h6 hb6
          obtain ⟨hrb, hread6, hlead6⟩ := bracket_ok hb6
          split
          · exact sound_error _ _ hlead6
          · split
            · rename_i hempty
              obtain ⟨ds, hds, hdecl⟩ := hdecls [] (declaredSoFar_nil _)
              refine sound_ok _ hlead6 ⟨⟨⟨kw, hkw⟩, ⟨name, hname⟩, ⟨lb, hlb⟩, ds, b, ⟨rb, hrb⟩⟩,
                ?_, List.isEmpty_iff.mp hempty, ?_⟩
              · have hread := (((((advance_reads hadv1).trans (advance_reads hadv2)).trans
                  hread3).trans hds).trans hb).trans hread6
                simpa [Program.yield, Program.emit] using hread
              · simpa [Program.DeclaredOnce, Program.declared_lexemes] using hdecl.1
            · exact sound_error _ _ hlead6

/-- An accepted list of records: the program production succeeded from the state that holds the
records, no code and the given tables, and the translation is the code and tables it ended
with. -/
theorem parse_ok {records : List Record} {tables : Tables} {tr : Translation}
    (h : (parse records tables).2 = .ok tr) :
    ∃ s : ParseState, s.rest = records ∧ s.code = [] ∧ s.tables = tables ∧
      (program s).result = .ok () ∧ tr.code.toList = (program s).state.code.reverse ∧
      tr.tables = (program s).state.tables := by
  simp only [parse, Except.map] at h
  split at h
  · cases h
  · rename_i u hres
    cases h
    exact ⟨_, rfl, rfl, rfl, hres, by simp, rfl⟩

/-- Accepted records are the yield of a derivation whose emission is the code. -/
theorem parse_derivation {records : List Record} {tables : Tables} {tr : Translation}
    (h : (parse records tables).2 = .ok tr) :
    ∃ p : Program, p.yield = records ∧ tr.code.toList = p.emit := by
  obtain ⟨s, hrest, hcode0, -, hres, hcode, -⟩ := parse_ok h
  obtain ⟨p, ⟨hread, hemit⟩, hempty, -⟩ := (program_sound s).2 hres
  refine ⟨p, ?_, ?_⟩
  · rw [← hrest, hread, hempty, List.append_nil]
  · rw [hcode, hemit, hcode0, List.reverse_nil, List.nil_append]

/-- Whenever the parser accepts a list of records, the records are exactly the yield of a
derivation of a program that declares no identifier twice, and the code is that derivation's
emission. -/
theorem parse_emits_derivation {records : List Record} {tables : Tables} {tr : Translation}
    (h : (parse records tables).2 = .ok tr) :
    ∃ p : Program, p.yield = records ∧ p.DeclaredOnce ∧ tr.code.toList = p.emit := by
  obtain ⟨s, hrest, hcode0, -, hres, hcode, -⟩ := parse_ok h
  obtain ⟨p, ⟨hread, hemit⟩, hempty, honce⟩ := (program_sound s).2 hres
  refine ⟨p, ?_, honce, ?_⟩
  · rw [← hrest, hread, hempty, List.append_nil]
  · rw [hcode, hemit, hcode0, List.reverse_nil, List.nil_append]

/-- The records of `program p { int x; { x = 1; print(x); } }`. -/
def printProgramRecords : List Record :=
  [⟨1, "program", .keyword, none⟩, ⟨1, "p", .ident, some 1⟩, ⟨1, "\x7b", .parOp, none⟩,
    ⟨2, "int", .keyword, none⟩, ⟨2, "x", .ident, some 2⟩, ⟨2, ";", .punct, none⟩,
    ⟨3, "\x7b", .parOp, none⟩, ⟨4, "x", .ident, some 2⟩, ⟨4, "=", .assignOp, none⟩,
    ⟨4, "1", .int, some 1⟩, ⟨4, ";", .punct, none⟩, ⟨5, "print", .keyword, none⟩,
    ⟨5, "(", .parOp, none⟩, ⟨5, "x", .ident, some 2⟩, ⟨5, ")", .parOp, none⟩,
    ⟨5, ";", .punct, none⟩, ⟨6, "\x7d", .parOp, none⟩, ⟨7, "\x7d", .parOp, none⟩]

/-- `program p { int x; { x = 1; print(x); } }` is parsed to the code `x 1 = x print`, the emission
of its derivation. -/
theorem parse_emits_derivation_print :
    (parse printProgramRecords {}).2 =
      .ok ⟨#[.token "x" .ident, .token "1" .int, .token "=" .assignOp, .token "x" .ident,
        .token "print" .keyword], ⟨#[⟨"x", 1, some .int, none⟩], #[]⟩⟩ ∧
    ∃ p : Program, p.yield = printProgramRecords ∧ p.DeclaredOnce ∧
      [.token "x" .ident, .token "1" .int, .token "=" .assignOp, .token "x" .ident,
        .token "print" .keyword] = p.emit := by
  have h : (parse printProgramRecords {}).2 =
      .ok ⟨#[.token "x" .ident, .token "1" .int, .token "=" .assignOp, .token "x" .ident,
        .token "print" .keyword], ⟨#[⟨"x", 1, some .int, none⟩], #[]⟩⟩ := by
    with_unfolding_all rfl
  exact ⟨h, parse_emits_derivation h⟩

/-- Every literal of an accepted program's code is a key of the tables it ends with, when every
literal record was a key of the tables it started with. -/
theorem parse_literals_known {records : List Record} {tables : Tables} {tr : Translation}
    (h : (parse records tables).2 = .ok tr)
    (hlit : ∀ r ∈ records, r.kind.isConstant = true → tables.HasConst r.lexeme) :
    ∀ i ∈ tr.code.toList, i.IsLiteral → tr.tables.HasConst i.lexeme := by
  obtain ⟨s, hrest, hcode0, htables, hres, hcode, htr⟩ := parse_ok h
  -- the literals are known at the start, and every production keeps them known
  have hknown : s.Known := by
    refine ⟨fun r hr hc => ?_, fun i hi => by rw [hcode0] at hi; cases hi⟩
    rw [htables]
    exact hlit r (hrest ▸ hr) hc
  have hend := ((program_sound s).1.2 hknown).2
  intro i hi hl
  rw [hcode, List.mem_reverse] at hi
  rw [htr]
  exact hend i hi hl

end RpnLang
