import RpnLang.Proofs.LexerSteps
import RpnLang.Proofs.TokenTables

/-!
# The lexer scans by longest match

Main statement, `lex_eq_ok_iff`: lexing a list of lines succeeds exactly when its source, each
line followed by a line feed, is scanned by longest match into tokens whose literals are in
range. The records are then those tokens, each with its line, 1 plus the line feeds before it;
their lexemes put together are the source without its layout; and the tables hold the distinct
identifiers and the distinct literals.

The automaton keeps a character while the pending lexeme can still grow into a token. Once it
cannot, no longer token starts where the lexeme did (`tokenPath_bound`), so what it closes is
the longest token there. From a successful run, each step extends a scan of what is left
(`step_scans`, `run_scans`); from a scan, each token is lexed whole by the walk along its
characters and the step that closes it (`token_run`, `scans_run`).
-/

namespace RpnLang

open Automaton SymbolClass Lexical

namespace Lexer

/-- The pending lexeme leads from the start state to the lexer's state by kept characters. -/
def Pends (lx : Lexer) : Prop :=
  walk 0 lx.lexeme.toList = some lx.state

/-- An idle lexer pends: its empty lexeme leads to the start state. -/
theorem Idle.pends {lx : Lexer} (h : lx.Idle) : lx.Pends := by
  simp [Pends, h.1, h.2, Automaton.start]

/-- The pending lexeme has the shape its state stands for. -/
theorem Pends.pending {lx : Lexer} (h : lx.Pends) : Pending lx.state lx.lexeme.toList := by
  simpa using Pending.walk (q := 0) (p := []) rfl h

/-- In the start state nothing is pending. -/
theorem Pends.idle {lx : Lexer} (h : lx.Pends) (h0 : lx.state = 0) : lx.Idle := by
  have hp := h.pending
  rw [h0] at hp
  exact ⟨h0, by simpa [Pending] using hp⟩

/-- A finishing step emits the pending lexeme with the character, an operator of its reserved
kind, from the idle lexer. -/
theorem step_finish_emit {lx : Lexer} {c : Char} {t : Nat} (hp : lx.Pends)
    (hn : next? lx.state (ofChar c) = some t) (hf : disposition t = .finish) :
    ∃ k, Lexeme (lx.lexeme.toList ++ [c]) k ∧
      TokenKind.reserved? (String.ofList (lx.lexeme.toList ++ [c])) = some k ∧
      lx.step c = ({ lx with lexeme := "", state := Automaton.start } : Lexer).emit
        (String.ofList (lx.lexeme.toList ++ [c])) k c := by
  obtain ⟨k, hk, hlex⟩ := hp.pending.finish hn hf
  -- a finishing state gives no kind, so the kind is the reserved one
  have hres : TokenKind.reserved? (String.ofList (lx.lexeme.toList ++ [c])) = some k := by
    rcases finishing hf with rfl | rfl <;> simpa [stateKind?] using hk
  have hpush : String.ofList (lx.lexeme.toList ++ [c]) = lx.lexeme.push c := by simp
  rw [hpush] at hk
  refine ⟨k, hlex, hres, ?_⟩
  rw [step_finish hn hf, close_eq hk, hpush]

/-- A retracting step emits the pending lexeme, a token, from the idle lexer, and steps the
character again from there. -/
theorem step_retract_emit {lx : Lexer} {c : Char} {t : Nat} (hp : lx.Pends)
    (hn : next? lx.state (ofChar c) = some t) (hr : disposition t = .retract) :
    ∃ k, Lexeme lx.lexeme.toList k ∧
      lx.step c = ({ lx with lexeme := "", state := Automaton.start } : Lexer).emit
        (String.ofList lx.lexeme.toList) k c >>= (·.step c) := by
  obtain ⟨k, hk, hlex⟩ := hp.pending.retract hn hr
  rw [String.ofList_toList] at hk
  refine ⟨k, hlex, ?_⟩
  rw [step_retract hn hr, close_eq hk, String.ofList_toList]

/-- Emitting from the idle lexer leaves it idle on its line. -/
theorem emit_idle {lx lx₁ : Lexer} {l : String} {k : TokenKind} {c : Char}
    (h : ({ lx with lexeme := "", state := Automaton.start } : Lexer).emit l k c = .ok lx₁) :
    lx₁.Idle ∧ lx₁.line = lx.line := by
  obtain ⟨hs, hl, hline⟩ := emit_fields h
  exact ⟨⟨hs, hl⟩, hline⟩

end Lexer

namespace Lexical

open Lexer

/-! ### No longer token -/

/-- A prefix of `p ++ c :: r` longer than `p` goes through `c`. -/
theorem prefix_through {p u r : List Char} {c : Char} (h : u <+: p ++ c :: r)
    (hl : p.length < u.length) : ∃ w, u = p ++ c :: w := by
  have hp : p <+: u :=
    List.prefix_of_prefix_length_le (List.prefix_append p (c :: r)) h (by omega)
  obtain ⟨w, rfl⟩ := hp
  have hw : w <+: c :: r := (List.prefix_append_right_inj p).mp h
  obtain _ | ⟨d, w⟩ := w
  · simp at hl
  · obtain ⟨rfl, -⟩ := List.cons_prefix_cons.mp hw
    exact ⟨w, rfl⟩

/-- A walk that cannot keep `c` goes no further. -/
theorem walk_through {p w : List Char} {q : Nat} {c : Char} (hw : walk 0 p = some q)
    (hk : keepStep? q c = none) : walk 0 (p ++ c :: w) = none := by
  rw [walk_append, hw, Option.bind_some, walk_cons, hk, Option.bind_none]

/-- Once the walk from the start state along `p` cannot keep `c`, a token that is a prefix of
`p ++ c :: r` is no longer than `p`, or it is `p ++ [c]` and `c` finishes it. -/
theorem tokenPath_bound {p u r : List Char} {q : Nat} {c : Char} (hu : TokenPath u)
    (hw : walk 0 p = some q) (hk : keepStep? q c = none) (hpre : u <+: p ++ c :: r) :
    u.length ≤ p.length ∨
      (u = p ++ [c] ∧ ∃ t, next? q (ofChar c) = some t ∧ disposition t = .finish) := by
  by_cases hl : u.length ≤ p.length
  · exact .inl hl
  obtain ⟨w, rfl⟩ := prefix_through hpre (by omega)
  rcases hu with ⟨q', hq', -⟩ | ⟨v, e, q', t, hv, hq', hn, hf⟩
  · rw [walk_through hw hk] at hq'
    cases hq'
  · -- the finishing walk cannot pass `c`, so it is the walk along `p`
    have hvp : v.length ≤ p.length := by
      refine Nat.le_of_not_lt fun hgt => ?_
      have hpre' : v <+: p ++ c :: r :=
        (List.prefix_append v [e]).trans (by rw [← hv]; exact hpre)
      obtain ⟨w', rfl⟩ := prefix_through hpre' hgt
      rw [walk_through hw hk] at hq'
      cases hq'
    have hlen := congrArg List.length hv
    simp only [List.length_append, List.length_cons, List.length_nil] at hlen
    obtain rfl : w = [] := List.eq_nil_of_length_eq_zero (by omega)
    obtain ⟨rfl, he⟩ := List.append_inj' hv.symm rfl
    obtain rfl : e = c := (List.cons.inj he).1
    rw [hw] at hq'
    cases hq'
    exact .inr ⟨rfl, t, hn, hf⟩

/-- A retracted lexeme is the longest token where it starts. -/
theorem longest_retract {p s : List Char} {q t : Nat} {c : Char} (hw : walk 0 p = some q)
    (hn : next? q (ofChar c) = some t) (hr : disposition t = .retract) : Longest p (c :: s) := by
  have hk : keepStep? q c = none := by simp [keepStep?, hn, hr]
  rintro u ⟨k, hu⟩ hpre
  rcases tokenPath_bound (Lexeme.path hu) hw hk hpre with h | ⟨-, t', hn', hf⟩
  · exact h
  · rw [hn] at hn'
    cases hn'
    rw [hr] at hf
    cases hf

/-- A finished lexeme is the longest token where it starts. -/
theorem longest_finish {p s : List Char} {q t : Nat} {c : Char} (hw : walk 0 p = some q)
    (hn : next? q (ofChar c) = some t) (hf : disposition t = .finish) :
    Longest (p ++ [c]) s := by
  have hk : keepStep? q c = none := by simp [keepStep?, hn, hf]
  rintro u ⟨k, hu⟩ hpre
  rcases tokenPath_bound (Lexeme.path hu) hw hk (by simpa using hpre) with h | ⟨rfl, -⟩
  · simp only [List.length_append, List.length_singleton]
    omega
  · exact Nat.le_refl _

/-! ### From a run to a scan -/

/-- After the characters `w` the lexer `lx'`, having closed the tokens `e`, continues the scan
that `lx` had begun on the tokens `ts`: it holds what the tokens so far determine, its pending
lexeme is a walk of the automaton, a scan of what it has pending and what follows extends by `e`
to a scan of what `lx` had pending, `w` and what follows, and after a line feed nothing is
pending. -/
structure Continues (lx : Lexer) (ts : List Scanned) (w : List Char) (lx' : Lexer)
    (e : List Scanned) : Prop where
  built : Built lx' (ts ++ e)
  pends : lx'.Pends
  resumes : ∀ s ts', Scans lx'.line (lx'.lexeme.toList ++ s) ts' →
    Scans lx.line (lx.lexeme.toList ++ w ++ s) (e ++ ts')
  settled : w.getLast? = some '\n' → lx'.lexeme = ""

/-- Continuing over one character and then over the rest continues over both. -/
theorem Continues.cons {lx lx₁ lx' : Lexer} {ts e₁ e₂ : List Scanned} {c d : Char}
    {w : List Char} (h₁ : Continues lx ts [c] lx₁ e₁)
    (h₂ : Continues lx₁ (ts ++ e₁) (d :: w) lx' e₂) :
    Continues lx ts (c :: d :: w) lx' (e₁ ++ e₂) where
  built := by simpa using h₂.built
  pends := h₂.pends
  resumes s ts' hs := by
    simpa using h₁.resumes (d :: w ++ s) (e₂ ++ ts') (by simpa using h₂.resumes s ts' hs)
  settled hl := h₂.settled (by simpa using hl)

/-- A layout character from an idle lexer closes nothing. -/
theorem layout_scans {lx lx' : Lexer} {ts : List Scanned} {c : Char} (hi : lx.Idle)
    (hb : Built lx ts) (hc : isLayout c = true) (h : lx.step c = .ok lx') :
    Continues lx ts [c] lx' [] := by
  have hl : lx.lexeme.toList = [] := by simp [hi.2]
  rcases layout_step hi hc with ⟨hblank, h'⟩ | ⟨rfl, h'⟩ <;> rw [h'] at h <;> cases h
  · refine ⟨by simpa using hb, hi.pends, fun s ts' hs => ?_, fun _ => hi.2⟩
    rw [hl] at hs ⊢
    exact .blank hblank hs
  · refine ⟨by rw [List.append_nil]; exact hb.congr rfl rfl, hi.pends, fun s ts' hs => ?_,
      fun _ => hi.2⟩
    rw [hl] at hs ⊢
    exact .newline hs

/-- Closing a lexeme: the idle copy of the lexer emits it, which records it as the next token
on the lexer's line and leaves the lexer idle. -/
theorem close_built {lx lx₁ : Lexer} {ts : List Scanned} {t : List Char} {k : TokenKind}
    {c : Char} (hb : Built lx ts) (ht : Lexeme t k)
    (h : ({ lx with lexeme := "", state := Automaton.start } : Lexer).emit (String.ofList t) k c =
      .ok lx₁) :
    Built lx₁ (ts ++ [⟨lx.line, t, k⟩]) ∧ lx₁.Idle ∧ lx₁.line = lx.line := by
  have hb' : Built ({ lx with lexeme := "", state := Automaton.start } : Lexer) ts :=
    hb.congr rfl rfl
  have hb₁ := emit_built (x := ⟨lx.line, t, k⟩) hb' ht rfl h
  obtain ⟨hs, hl, hline⟩ := emit_fields h
  exact ⟨hb₁, ⟨hs, hl⟩, hline⟩

/-- A step that does not retract: it keeps the character, passes over layout, or closes the
pending lexeme together with the character. -/
theorem step_scans_direct {lx lx' : Lexer} {ts : List Scanned} {c : Char} (hp : lx.Pends)
    (hb : Built lx ts)
    (hnr : ∀ t, next? lx.state (ofChar c) = some t → disposition t ≠ .retract)
    (h : lx.step c = .ok lx') : ∃ e, Continues lx ts [c] lx' e := by
  have hpend := hp.pending
  obtain ⟨t, hn⟩ := hpend.reachable.next c
  cases hd : disposition t with
  | keep =>
    have hk : keepStep? lx.state c = some t := keepStep?_eq_some.mpr ⟨hn, hd⟩
    rw [step_keep hk] at h
    cases h
    refine ⟨[], ⟨by rw [List.append_nil]; exact hb.congr rfl rfl, ?_,
      fun s ts' hs => by simpa using hs, fun hl => ?_⟩⟩
    · have hw : walk 0 lx.lexeme.toList = some lx.state := hp
      simp [Pends, walk_append, hw, walk_cons, hk]
    · exact absurd (by simpa using hl) (Keeps.of_keepStep? hpend.reachable hk).ne_newline
  | skip =>
    obtain ⟨hq, hlay⟩ := layout_cases hpend.reachable hn (.inl hd)
    exact ⟨[], layout_scans (hp.idle hq) hb hlay h⟩
  | newline =>
    obtain ⟨hq, hlay⟩ := layout_cases hpend.reachable hn (.inr hd)
    exact ⟨[], layout_scans (hp.idle hq) hb hlay h⟩
  | finish =>
    -- the pending lexeme and the character form a token, the longest there
    obtain ⟨k, hlex, -, hstep⟩ := step_finish_emit hp hn hd
    rw [hstep] at h
    obtain ⟨hbx, hi, hline⟩ := close_built hb hlex h
    refine ⟨[⟨lx.line, lx.lexeme.toList ++ [c], k⟩], hbx, hi.pends,
      fun s ts' hscan => ?_, fun _ => hi.2⟩
    rw [hi.2, hline] at hscan
    simpa using Scans.token hlex (longest_finish hp hn hd) (by simpa using hscan)
  | retract => exact absurd hd (hnr t hn)
  | reject =>
    rw [step_reject hn hd] at h
    cases h

/-- One step of the lexer continues the scan: a retracting step closes the pending lexeme, the
longest token there, and then steps the character from the idle lexer. -/
theorem step_scans {lx lx' : Lexer} {ts : List Scanned} {c : Char} (hp : lx.Pends)
    (hb : Built lx ts) (h : lx.step c = .ok lx') : ∃ e, Continues lx ts [c] lx' e := by
  by_cases hr : ∃ t, next? lx.state (ofChar c) = some t ∧ disposition t = .retract
  · obtain ⟨t, hn, hr⟩ := hr
    obtain ⟨k, hlex, hstep⟩ := step_retract_emit hp hn hr
    rw [hstep] at h
    cases h₁ : ({ lx with lexeme := "", state := Automaton.start } : Lexer).emit
        (String.ofList lx.lexeme.toList) k c with
    | error e =>
      rw [h₁] at h
      cases h
    | ok lx₁ =>
      rw [h₁] at h
      obtain ⟨hb₁, hi₁, hline₁⟩ := close_built hb hlex h₁
      obtain ⟨e, hc⟩ := step_scans_direct hi₁.pends hb₁ (fun _ hn₁ => hi₁.no_retract hn₁) h
      refine ⟨⟨lx.line, lx.lexeme.toList, k⟩ :: e,
        ⟨by simpa using hc.built, hc.pends, fun s ts' hs => ?_, hc.settled⟩⟩
      have hrest := hc.resumes s ts' hs
      rw [hi₁.2, hline₁] at hrest
      simpa using Scans.token hlex (longest_retract hp hn hr) (by simpa using hrest)
  · exact step_scans_direct hp hb (fun t hn hd => hr ⟨t, hn, hd⟩) h

/-- A successful run continues the scan along all its characters. -/
theorem run_scans {s : List Char} :
    ∀ {lx lx' : Lexer} {ts : List Scanned}, lx.Pends → Built lx ts →
      s.foldlM step lx = .ok lx' → s ≠ [] → ∃ e, Continues lx ts s lx' e := by
  induction s with
  | nil => exact fun _ _ _ hne => absurd rfl hne
  | cons c s ih =>
    intro lx lx' ts hp hb h _
    rw [List.foldlM_cons] at h
    cases h₁ : lx.step c with
    | error e =>
      rw [h₁] at h
      cases h
    | ok lx₁ =>
      rw [h₁] at h
      obtain ⟨e₁, hc₁⟩ := step_scans hp hb h₁
      obtain _ | ⟨d, s⟩ := s
      · cases h
        exact ⟨e₁, hc₁⟩
      · obtain ⟨e₂, hc₂⟩ := ih hc₁.pends hc₁.built h (List.cons_ne_nil d s)
        exact ⟨e₁ ++ e₂, hc₁.cons hc₂⟩

/-! ### From a scan to a run -/

/-- A token followed by a scanned rest is lexed whole: the walk along its characters, then the
step that closes it, which emits it. -/
theorem token_run {lx : Lexer} {t s : List Char} {k : TokenKind} {n : Nat} {ts : List Scanned}
    (hi : lx.Idle) (ht : Lexeme t k) (hl : Longest t s) (hs : Scans n s ts) (hne : s ≠ []) :
    ∃ c, (t ++ s).foldlM step lx = lx.emit (String.ofList t) k c >>= (s.foldlM step ·) := by
  rcases Lexeme.path ht with ⟨q, hw, hq⟩ | ⟨v, e, q, t', rfl, hw, hn, hf⟩
  · -- the walk ends in an accepting state; the next character closes the token
    obtain _ | ⟨c, s⟩ := s
    · exact absurd rfl hne
    have hpend : Pending q t := by simpa using Pending.walk (q := 0) (p := []) rfl hw
    rw [run_walk_idle _ hi hw, List.foldlM_cons]
    obtain ⟨t', hn⟩ := hq.reachable.next c
    cases hd : disposition t' with
    | keep =>
      -- keeping `c` would make a longer token, or `c` is a point or a mark, which starts none
      exfalso
      have hk := Keeps.of_keepStep? hq.reachable (keepStep?_eq_some.mpr ⟨hn, hd⟩)
      by_cases ha : Accepting t'
      · have hlen := hl _ ((hpend.keep hk).token ha) (by simp)
        simp only [List.length_append, List.length_singleton] at hlen
        omega
      · have hhead := hs.head
        rcases hk.incomplete hq ha with rfl | rfl <;> revert hhead <;> decide
    | finish =>
      exfalso
      obtain ⟨k', -, hlex⟩ := hpend.finish hn hd
      have hlen := hl _ ⟨k', hlex⟩ (by simp)
      simp only [List.length_append, List.length_singleton] at hlen
      omega
    | retract =>
      obtain ⟨k', hk', hlex⟩ := hpend.retract hn hd
      obtain rfl := hlex.kind_unique ht
      refine ⟨c, ?_⟩
      rw [step_retract hn hd, close_eq hk', hi.eq, bind_assoc]
      rfl
    | reject => exact absurd hd (Accepting.not_reject hq hn)
    | skip =>
      obtain ⟨rfl, -⟩ := layout_cases hq.reachable hn (.inl hd)
      simp [Accepting] at hq
    | newline =>
      obtain ⟨rfl, -⟩ := layout_cases hq.reachable hn (.inr hd)
      simp [Accepting] at hq
  · -- the token ends with the character that finishes it
    have hpend : Pending q v := by simpa using Pending.walk (q := 0) (p := []) rfl hw
    obtain ⟨k', hk', hlex⟩ := hpend.finish hn hf
    obtain rfl := hlex.kind_unique ht
    have hpush : String.ofList (v ++ [e]) = (String.ofList v).push e := by simp
    rw [hpush] at hk'
    refine ⟨e, ?_⟩
    rw [List.append_assoc, List.singleton_append, run_walk_idle _ hi hw, List.foldlM_cons,
      step_finish hn hf, close_eq hk', hi.eq, hpush]

/-- Texts that end with a line feed, or are empty: the lexer is idle at their end. -/
def EndsLine (s : List Char) : Prop :=
  s = [] ∨ s.getLast? = some '\n'

/-- Texts that end lines, one after the other, end a line. -/
theorem EndsLine.append {a b : List Char} (ha : EndsLine a) (hb : EndsLine b) :
    EndsLine (a ++ b) := by
  rcases hb with rfl | hb
  · simpa using ha
  · exact .inr (by simp [List.getLast?_append, hb])

/-- The last part of a text that ends a line ends a line. -/
theorem EndsLine.of_append {a b : List Char} (h : EndsLine (a ++ b)) : EndsLine b := by
  rcases h with h | h
  · exact .inl (List.append_eq_nil_iff.mp h).2
  · by_cases hb : b = []
    · exact .inl hb
    · obtain ⟨x, hx⟩ := Option.isSome_iff_exists.mp (List.getLast?_isSome.mpr hb)
      rw [List.getLast?_append, hx] at h
      exact .inr (hx.trans h)

/-- A token that the text ends after would have to end with a line feed. -/
theorem EndsLine.rest_ne_nil {t s : List Char} {k : TokenKind} (h : EndsLine (t ++ s))
    (ht : Lexeme t k) : s ≠ [] := by
  rintro rfl
  rcases h with h | h
  · exact ht.ne_nil (by simpa using h)
  · have hmem : '\n' ∈ t := List.mem_of_getLast? (by simpa using h)
    simpa [isLayout] using ht.not_layout '\n' hmem

/-- A scan of a text ending a line, from an idle lexer on the scan's line, is a successful run
that emits the scanned tokens and leaves the lexer idle. -/
theorem scans_run {n : Nat} {s : List Char} {ts : List Scanned} (h : Scans n s ts) :
    ∀ {lx : Lexer} {ts₀ : List Scanned}, lx.Idle → lx.line = n → Built lx ts₀ →
      (∀ x ∈ ts, InRange x.text x.kind) → EndsLine s →
      ∃ lx', s.foldlM step lx = .ok lx' ∧ Built lx' (ts₀ ++ ts) ∧ lx'.Idle := by
  induction h with
  | nil => exact fun hi _ hb _ _ => ⟨_, rfl, by simpa using hb, hi⟩
  | blank hc _ ih =>
    intro lx ts₀ hi hline hb hr hend
    obtain ⟨lx', hrun, hb', hi'⟩ := ih hi hline hb hr (EndsLine.of_append (a := [_]) hend)
    exact ⟨lx', by rw [List.foldlM_cons, step_blank hi hc]; exact hrun, hb', hi'⟩
  | newline _ ih =>
    intro lx ts₀ hi hline hb hr hend
    have hi₁ : ({ lx with line := lx.line + 1 } : Lexer).Idle := hi
    obtain ⟨lx', hrun, hb', hi'⟩ :=
      ih hi₁ (by simp [hline]) (hb.congr rfl rfl) hr (EndsLine.of_append (a := ['\n']) hend)
    exact ⟨lx', by rw [List.foldlM_cons, step_newline hi]; exact hrun, hb', hi'⟩
  | @token n t s k ts ht hl hs ih =>
    intro lx ts₀ hi hline hb hr hend
    obtain ⟨c, hrun⟩ := token_run hi ht hl hs (hend.rest_ne_nil ht)
    obtain ⟨lx₁, h₁⟩ : ∃ lx₁, lx.emit (String.ofList t) k c = .ok lx₁ :=
      emit_ok (x := ⟨n, t, k⟩) c ht (hr _ List.mem_cons_self)
    have hb₁ := emit_built (x := ⟨n, t, k⟩) hb ht hline.symm h₁
    obtain ⟨hs₁, hl₁, hline₁⟩ := emit_fields h₁
    obtain ⟨lx', hrun', hb', hi'⟩ := ih ⟨hs₁.trans hi.1, hl₁.trans hi.2⟩
      (hline₁.trans hline) hb₁ (fun x hx => hr x (List.mem_cons_of_mem _ hx)) hend.of_append
    refine ⟨lx', ?_, by simpa using hb', hi'⟩
    rw [hrun, h₁]
    exact hrun'

/-! ### Lines and the source -/

/-- The source of any lines ends a line: every line is fed with its line feed. -/
theorem EndsLine.source (lines : List String) : EndsLine (source lines) := by
  induction lines with
  | nil => exact .inl rfl
  | cons l lines ih =>
    simpa [Lexical.source] using
      (EndsLine.append (.inr (by simp) : EndsLine (l.toList ++ ['\n'])) ih)

/-- Lexing the lines one after another is lexing their source character by character. -/
theorem foldlM_feedLine (lines : List String) (lx : Lexer) :
    lines.foldlM feedLine lx = (source lines).foldlM step lx := by
  induction lines generalizing lx with
  | nil => rfl
  | cons l lines ih =>
    simp only [List.foldlM_cons, feedLine, Lexical.source, List.flatMap_cons, List.foldlM_append]
    congr 1
    funext lx₁
    exact ih lx₁

/-- A token of a scan stands after text whose line feeds give its line and whose tokens are the
tokens before it. -/
theorem Scans.split {n : Nat} {s : List Char} {ts : List Scanned} (h : Scans n s ts) :
    ∀ {ts₁ ts₂ : List Scanned} {x : Scanned}, ts = ts₁ ++ x :: ts₂ →
      ∃ pre rest, s = pre ++ x.text ++ rest ∧ x.line = n + pre.count '\n' ∧
        (ts₁.map (·.text)).flatten = pre.filter fun c => !isLayout c := by
  induction h with
  | nil => exact fun h => absurd h.symm (by simp)
  | blank hc _ ih =>
    intro ts₁ ts₂ x hts
    obtain ⟨pre, rest, rfl, hline, htexts⟩ := ih hts
    refine ⟨_ :: pre, rest, rfl, ?_, ?_⟩
    · rcases hc with rfl | rfl <;> simpa using hline
    · rcases hc with rfl | rfl <;> simpa [isLayout] using htexts
  | newline _ ih =>
    intro ts₁ ts₂ x hts
    obtain ⟨pre, rest, rfl, hline, htexts⟩ := ih hts
    refine ⟨'\n' :: pre, rest, rfl, by simp [hline]; omega, by simpa [isLayout] using htexts⟩
  | @token n t s k ts ht _ _ ih =>
    intro ts₁ ts₂ x hts
    -- a token contributes no line feed and no layout
    have hcount : t.count '\n' = 0 :=
      List.count_eq_zero.mpr fun hm => by simpa [isLayout] using ht.not_layout '\n' hm
    have hkeep : t.filter (fun c => !isLayout c) = t :=
      List.filter_eq_self.mpr fun c hc => by simp [ht.not_layout c hc]
    obtain _ | ⟨y, ts₁⟩ := ts₁
    · obtain ⟨rfl, -⟩ := List.cons.inj hts
      exact ⟨[], s, rfl, by simp, rfl⟩
    · rw [List.cons_append] at hts
      obtain ⟨rfl, hrest⟩ := List.cons.inj hts
      obtain ⟨pre, rest, rfl, hline, htexts⟩ := ih hrest
      refine ⟨t ++ pre, rest, by simp, by simp [hline, hcount], ?_⟩
      simp [htexts, List.filter_append, hkeep]

/-! ### The lexer -/

/-- A successful run from the empty lexer over the source scans it into the tokens whose
tables and records it has built. -/
theorem run_source_scans {lines : List String} {lx : Lexer}
    (h : (source lines).foldlM step {} = .ok lx) :
    ∃ ts, Built lx ts ∧ Scans 1 (source lines) ts := by
  by_cases hne : source lines = []
  · rw [hne] at h ⊢
    cases h
    exact ⟨[], Built.empty, .nil⟩
  · -- the run continues the empty scan, and ends idle after the last line feed
    have hidle : ({} : Lexer).Idle := ⟨rfl, rfl⟩
    obtain ⟨ts, hc⟩ := run_scans hidle.pends Built.empty h hne
    have hl : lx.lexeme = "" := hc.settled ((EndsLine.source lines).resolve_left hne)
    have hscan := hc.resumes [] [] (by rw [hl]; exact .nil)
    exact ⟨ts, by simpa using hc.built, by simpa using hscan⟩

/-- Lexing succeeds exactly when the source is scanned by longest match into tokens in range;
the records are then the scanned tokens, each on the line that the line feeds before it give,
their lexemes are the source without layout, and the tables hold the distinct identifiers and
the distinct literals. -/
theorem lex_eq_ok_iff (lines : List String) (lexed : Lexed) :
    lex lines = .ok lexed ↔
      ∃ ts : List Scanned, Scans 1 (source lines) ts ∧ (∀ x ∈ ts, InRange x.text x.kind) ∧
        lexed.records.toList = ts.map (Scanned.record ts) ∧ lexed.tables = tablesOf ts ∧
        (ts.map (·.text)).flatten = (source lines).filter (fun c => !isLayout c) ∧
        ∀ ts₁ x ts₂, ts = ts₁ ++ x :: ts₂ →
          ∃ pre rest, source lines = pre ++ x.text ++ rest ∧ x.line = 1 + pre.count '\n' ∧
            (ts₁.map (·.text)).flatten = pre.filter (fun c => !isLayout c) := by
  have hidle : ({} : Lexer).Idle := ⟨rfl, rfl⟩
  constructor
  · intro h
    unfold lex at h
    rw [foldlM_feedLine] at h
    cases hrun : (source lines).foldlM step {} with
    | error e =>
      rw [hrun] at h
      cases h
    | ok lx =>
      rw [hrun] at h
      cases h
      obtain ⟨ts, hb, hscan⟩ := run_source_scans hrun
      exact ⟨ts, hscan, hb.inRange, hb.records, hb.tables, hscan.texts,
        fun _ _ _ hts => hscan.split hts⟩
  · rintro ⟨ts, hscan, hr, hrec, htab, -, -⟩
    obtain ⟨lx, hrun, hb, -⟩ := scans_run hscan hidle rfl Built.empty hr (EndsLine.source lines)
    unfold lex
    rw [foldlM_feedLine, hrun]
    obtain ⟨records, tables⟩ := lexed
    have hrec' : lx.records = records := Array.ext' (by simpa [hb.records] using hrec.symm)
    have htab' : lx.tables = tables := by
      rw [hb.tables, List.nil_append]
      exact htab.symm
    simp only [hrec', htab']

end Lexical

end RpnLang
