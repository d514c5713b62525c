import RpnLang.Proofs.BracketStack
import RpnLang.Pipeline

/-!
# Derivable programs the parser accepts

The parser reads by ordered choice and commits to the first choice that succeeds: the right side
of an assignment is read as a condition if one can be read and only else as arithmetic, and a
condition that begins with a truth literal is that literal alone. A derivation whose right side
or condition begins with `true` or `false` and goes on, such as `ok = true == ok;` or
`x = true * 2;`, is cut short after the literal, and the statement fails on the next record.

Every other derivable program is read as derived. An arithmetic production reads the yield of a
derivation and then loops on the operators of its level (`Completes`), so it stops exactly where
the derivation ends when no operator follows; a parenthesised comparison that is not there fails
and is rolled back; and the declarations succeed while no identifier is declared twice or had a
type before. The records are taken as the lexer makes them, with brackets of the bracket kind
(`BracketsTagged`).

Main statement, `parse_derivable_accepted_iff`: a derivable program whose declarations name no
identifier twice and none that has a type is accepted exactly when none of its right sides and
conditions is cut short (`Block.cutShort`). A statement cut short fails at the operator after
its literal, where it expects `;` or `)`, and stops the statements with an error.
-/

namespace RpnLang

open ParseState Reply

/-! ### What follows a derivation -/

/-- The records do not begin with a record of kind `k`. -/
def NotLed (k : TokenKind) (rs : List Record) : Prop :=
  ∀ r ∈ rs.head?, r.kind ≠ k

@[simp] theorem notLed_nil (k : TokenKind) : NotLed k [] := by
  simp [NotLed]

/-- Records are not led by a kind when their first record is of another kind. -/
@[simp] theorem notLed_cons {k : TokenKind} {r : Record} {rs : List Record} :
    NotLed k (r :: rs) ↔ r.kind ≠ k := by
  simp [NotLed]

/-- The records cannot continue an arithmetic expression. -/
def EndsArith (rs : List Record) : Prop :=
  NotLed .addOp rs ∧ NotLed .multOp rs ∧ NotLed .powOp rs

/-- A record of a kind that is no arithmetic operator ends an arithmetic expression. -/
theorem endsArith_cons {r : Record} (rs : List Record)
    (h : r.kind = .relOp ∨ r.kind = .parOp ∨ r.kind = .punct) : EndsArith (r :: rs) := by
  rcases h with h | h | h <;> simp [EndsArith, h]

/-- Checking for a kind that does not lead the records fails. -/
theorem checkKind_of_notLed {s : ParseState} {k : TokenKind} (h : NotLed k s.rest) :
    s.checkKind k = false := by
  unfold checkKind
  split
  · rename_i r rs hs
    rw [hs, notLed_cons] at h
    simpa using h
  · rfl

/-! ### Tagged brackets -/

@[simp] theorem bracketsTagged_nil : BracketsTagged [] :=
  fun _ h => absurd h List.not_mem_nil

/-- Records are tagged when the first is and the others are. -/
@[simp] theorem bracketsTagged_cons {r : Record} {rs : List Record} :
    BracketsTagged (r :: rs) ↔ (r.IsBracket → r.kind = .parOp) ∧ BracketsTagged rs := by
  simp [BracketsTagged]

/-- Concatenated records are tagged when both parts are. -/
@[simp] theorem bracketsTagged_append_iff {rs rs' : List Record} :
    BracketsTagged (rs ++ rs') ↔ BracketsTagged rs ∧ BracketsTagged rs' := by
  simp only [BracketsTagged, List.mem_append, or_imp, forall_and]

/-- A bracket among tagged records has the bracket kind. -/
theorem Bracket.kind_eq {c : Char} (b : Bracket c) (hc : c ∈ ['(', ')', '{', '}'])
    (h : b.1.IsBracket → b.1.kind = .parOp) : b.1.kind = .parOp :=
  h ⟨c, hc, b.2⟩

/-- A bracket of the bracket kind is the word it spells. -/
theorem Bracket.is {c : Char} (b : Bracket c) (lexeme : String) (hl : lexeme.toList = [c])
    (hk : b.1.kind = .parOp) : b.1.Is lexeme .parOp = true := by
  have hlex : b.1.lexeme = lexeme := String.toList_inj.mp (b.2.trans hl.symm)
  simp [Record.Is, hk, hlex]

/-! ### Replies that succeed -/

namespace Reply

variable {s : ParseState}

/-- A production succeeded, leaving the records `rest` and the bracket stack `stack`. -/
def Ends (r : Reply s) (rest : List Record) (stack : List Char) : Prop :=
  r.result = .ok () ∧ r.state.rest = rest ∧ r.state.brackets.stack = stack

/-- Two replies with the same result and the same state. -/
def Same {s' : ParseState} (r : Reply s) (r' : Reply s') : Prop :=
  r.result = r'.result ∧ r.state = r'.state

/-- A production failed. -/
def Fails (r : Reply s) : Prop :=
  ∃ e, r.result = .error e

theorem Same.trans {s' s'' : ParseState} {r : Reply s} {r' : Reply s'} {r'' : Reply s''}
    (h : r.Same r') (h' : r'.Same r'') : r.Same r'' :=
  ⟨h.1.trans h'.1, h.2.trans h'.2⟩

theorem same_widen {t : ParseState} (r : Reply t) (h : t.rest.length ≤ s.rest.length) :
    (r.widen h).Same r :=
  ⟨rfl, rfl⟩

/-- After a success in `u`, a sequence answers as its continuation from `u`. -/
theorem andThen_same {r : Reply s} {u : ParseState}
    {k : (t : ParseState) → t.rest.length ≤ s.rest.length → Reply t}
    (h : r.result = .ok () ∧ r.state = u) : (r.andThen k).Same (k u (h.2 ▸ r.le)) := by
  obtain ⟨res, t, ht⟩ := r
  obtain ⟨hres, rfl⟩ := h
  cases hres
  exact ⟨rfl, rfl⟩

/-- A reply that answers as one that succeeded in the state `u`. -/
theorem Same.ok_of {s' u : ParseState} {r : Reply s} {r' : Reply s'} (h : r.Same r')
    (h' : r'.result = .ok () ∧ r'.state = u) : r.result = .ok () ∧ r.state = u :=
  ⟨h.1.trans h'.1, h.2.trans h'.2⟩

/-- A reply that answers as a successful one succeeds alike. -/
theorem Same.ends {s' : ParseState} {r : Reply s} {r' : Reply s'} {rest : List Record}
    {stack : List Char} (h : r.Same r') (h' : r'.Ends rest stack) : r.Ends rest stack :=
  ⟨h.1.trans h'.1, by rw [h.2]; exact h'.2.1, by rw [h.2]; exact h'.2.2⟩

/-- A success in `u` ends with the records and the stack of `u`. -/
theorem Ends.of_ok {r : Reply s} {u : ParseState} (h : r.result = .ok () ∧ r.state = u) :
    r.Ends u.rest u.brackets.stack :=
  ⟨h.1, by rw [h.2], by rw [h.2]⟩

theorem Ends.widen {t : ParseState} {r : Reply t} {rest : List Record} {stack : List Char}
    (hr : r.Ends rest stack) (h : t.rest.length ≤ s.rest.length) : (r.widen h).Ends rest stack :=
  hr

/-- A sequence of two productions that succeed succeeds. -/
theorem Ends.andThen {r : Reply s} {rest rest' : List Record} {stack stack' : List Char}
    {k : (t : ParseState) → t.rest.length ≤ s.rest.length → Reply t} (hr : r.Ends rest stack)
    (hk : ∀ t h, t.rest = rest → t.brackets.stack = stack → (k t h).Ends rest' stack') :
    (r.andThen k).Ends rest' stack' :=
  (andThen_same (k := k) ⟨hr.1, rfl⟩).ends (hk r.state r.le hr.2.1 hr.2.2)

/-- A failure reply fails. -/
theorem fails_fail (e : ParseError) : (Reply.fail s e).Fails :=
  ⟨e, rfl⟩

theorem Fails.widen {t : ParseState} {r : Reply t} (hr : r.Fails)
    (h : t.rest.length ≤ s.rest.length) : (r.widen h).Fails :=
  hr

/-- A sequence whose first production fails fails. -/
theorem Fails.andThen {r : Reply s}
    {k : (t : ParseState) → t.rest.length ≤ s.rest.length → Reply t}
    (hr : r.Fails) : (r.andThen k).Fails := by
  obtain ⟨res, t, ht⟩ := r
  obtain ⟨e, he⟩ := hr
  cases he
  exact ⟨e, rfl⟩

/-- A sequence whose first production succeeds and whose second fails fails. -/
theorem Ends.andThen_fails {r : Reply s} {rest : List Record} {stack : List Char}
    {k : (t : ParseState) → t.rest.length ≤ s.rest.length → Reply t} (hr : r.Ends rest stack)
    (hk : ∀ t h, t.rest = rest → t.brackets.stack = stack → (k t h).Fails) :
    (r.andThen k).Fails := by
  obtain ⟨e, he⟩ := hk r.state r.le hr.2.1 hr.2.2
  exact ⟨e, (andThen_same (k := k) ⟨hr.1, rfl⟩).1.trans he⟩

/-- An attempt whose production succeeds succeeds where the production ends. -/
theorem Ends.attempt {r : Reply s.enter} {rest : List Record} {stack : List Char}
    (hr : r.Ends rest stack) : r.attempt.Ends rest stack := by
  obtain ⟨res, t, ht⟩ := r
  obtain ⟨hres, hrest, hb⟩ := hr
  cases hres
  exact ⟨rfl, (leave_rest _ _ _).trans hrest,
    (congrArg Brackets.stack (leave_brackets _ _ _)).trans hb⟩

/-- An attempt whose production fails fails, rolled back to the records and the stack it began
with. -/
theorem Fails.attempt {r : Reply s.enter} (hr : r.Fails) :
    r.attempt.Fails ∧ r.attempt.state.rest = s.rest ∧
      r.attempt.state.brackets.stack = s.brackets.stack := by
  obtain ⟨res, t, ht⟩ := r
  obtain ⟨e, he⟩ := hr
  cases he
  exact ⟨⟨e, rfl⟩, leave_rest _ _ _, congrArg Brackets.stack (leave_brackets _ _ _)⟩

/-- The attempt of a production that succeeds, taken apart. -/
theorem Ends.attempt_eq {r : Reply s.enter} {rest : List Record} {stack : List Char}
    (hr : r.Ends rest stack) {res : Except ParseError Unit} {t : ParseState}
    {h : t.rest.length ≤ s.rest.length} (heq : r.attempt = ⟨res, t, h⟩) :
    res = .ok () ∧ t.rest = rest ∧ t.brackets.stack = stack := by
  have ha := hr.attempt
  rw [heq] at ha
  exact ha

/-- The attempt of a production that fails, taken apart. -/
theorem Fails.attempt_eq {r : Reply s.enter} (hr : r.Fails) {res : Except ParseError Unit}
    {t : ParseState} {h : t.rest.length ≤ s.rest.length} (heq : r.attempt = ⟨res, t, h⟩) :
    (∃ e, res = .error e) ∧ t.rest = s.rest ∧ t.brackets.stack = s.brackets.stack := by
  have ha := hr.attempt
  rw [heq] at ha
  exact ha

/-- A reply that answers as a failed one fails. -/
theorem Same.fails {s' : ParseState} {r : Reply s} {r' : Reply s'} (h : r.Same r')
    (h' : r'.Fails) : r.Fails := by
  obtain ⟨e, he⟩ := h'
  exact ⟨e, h.1.trans he⟩

end Reply

/-! ### Steps on known records -/

/-- The head record is consumed. -/
theorem advance_cons {s : ParseState} {r : Record} {rest : List Record} (h : s.rest = r :: rest) :
    ∃ t h', s.advance = .ok (r, ⟨t, h'⟩) ∧ t.rest = rest ∧ t.brackets = s.brackets := by
  unfold advance
  split
  · rename_i hs
    rw [hs] at h
    cases h
  · rename_i r' tail hs
    rw [hs] at h
    obtain ⟨rfl, rfl⟩ := List.cons.inj h
    refine ⟨({ s with rest := tail } : ParseState).log r', by rw [log_rest, hs]; simp, rfl,
      log_rest _ _, ?_⟩
    unfold log
    split <;> rfl

/-- The head record is the word expected. -/
theorem expect_cons {s : ParseState} {r : Record} {rest : List Record} {lexeme : String}
    {kind : TokenKind} (h : s.rest = r :: rest) (hr : r.Is lexeme kind = true) :
    ∃ t h', s.expect lexeme kind = .ok (r, ⟨t, h'⟩) ∧ t.rest = rest ∧
      t.brackets = s.brackets := by
  unfold expect
  split
  · rename_i hs
    rw [hs] at h
    cases h
  · rename_i r' tail hs
    rw [hs] at h
    obtain ⟨rfl, rfl⟩ := List.cons.inj h
    rw [if_pos hr]
    exact advance_cons hs

/-- The head record has the kind expected. -/
theorem expectKind_cons {s : ParseState} {r : Record} {rest : List Record} {kind : TokenKind}
    (h : s.rest = r :: rest) (hr : r.kind = kind) :
    ∃ t h', s.expectKind kind = .ok (r, ⟨t, h'⟩) ∧ t.rest = rest ∧
      t.brackets = s.brackets := by
  unfold expectKind
  split
  · rename_i hs
    rw [hs] at h
    cases h
  · rename_i r' tail hs
    rw [hs] at h
    obtain ⟨rfl, rfl⟩ := List.cons.inj h
    rw [if_pos (by simp [hr])]
    exact advance_cons hs

/-- The stack step of a bracket: an opener is pushed, a closer pops its partner from the top. -/
theorem Brackets.control_opener {b : Brackets} {lexeme : String} {c : Char}
    (hl : lexeme.toList = [c]) (hc : c = '{' ∨ c = '(') :
    b.control lexeme c = (none, ⟨c :: b.stack⟩) := by
  unfold Brackets.control
  rw [hl]
  dsimp only
  rw [if_neg (fun h => h rfl), if_pos hc]

/-- A closer whose partner is on top reports nothing and pops it. -/
theorem Brackets.control_closer {b : Brackets} {lexeme : String} {c o : Char} {rest : List Char}
    (hl : lexeme.toList = [c]) (hc : ¬(c = '{' ∨ c = '(')) (ho : openerOf? c = some o)
    (hb : b.stack = o :: rest) : b.control lexeme c = (none, ⟨rest⟩) := by
  unfold Brackets.control
  rw [hl]
  dsimp only
  rw [if_neg (fun h => h rfl), if_neg hc, ho]
  dsimp only
  rw [hb]
  dsimp only
  rw [if_pos rfl]

/-- Consuming a bracket whose step succeeds. -/
theorem bracket_of_control {s : ParseState} {r : Record} {rest : List Record} {c : Char}
    {b : Brackets} (h : s.rest = r :: rest) (hctl : s.brackets.control r.lexeme c = (none, b)) :
    ∃ t h', s.bracket c = .ok (r, ⟨t, h'⟩) ∧ t.rest = rest ∧ t.brackets = b := by
  obtain ⟨t, h', ha, hrest, hb⟩ := advance_cons (s := { s with brackets := b }) h
  refine ⟨t, h', ?_, hrest, hb⟩
  unfold bracket
  split
  · rename_i hs
    rw [hs] at h
    cases h
  · rename_i r' tail hs
    rw [hs] at h
    obtain ⟨rfl, rfl⟩ := List.cons.inj h
    rw [hctl]
    dsimp only
    rw [ha]

/-- An opening bracket is consumed and pushed. -/
theorem bracket_open {s : ParseState} {r : Record} {rest : List Record} {c : Char}
    (h : s.rest = r :: rest) (hl : r.lexeme.toList = [c]) (hc : c = '{' ∨ c = '(') :
    ∃ t h', s.bracket c = .ok (r, ⟨t, h'⟩) ∧ t.rest = rest ∧
      t.brackets.stack = c :: s.brackets.stack := by
  obtain ⟨t, h', hb, hrest, hbr⟩ := bracket_of_control h (Brackets.control_opener hl hc)
  exact ⟨t, h', hb, hrest, by rw [hbr]⟩

/-- A closing bracket whose partner is on top is consumed and pops it. -/
theorem bracket_close {s : ParseState} {r : Record} {rest : List Record} {c o : Char}
    {stack : List Char} (h : s.rest = r :: rest) (hl : r.lexeme.toList = [c])
    (hc : ¬(c = '{' ∨ c = '(')) (ho : openerOf? c = some o)
    (hs : s.brackets.stack = o :: stack) :
    ∃ t h', s.bracket c = .ok (r, ⟨t, h'⟩) ∧ t.rest = rest ∧
      t.brackets.stack = stack := by
  obtain ⟨t, h', hb, hrest, hbr⟩ := bracket_of_control h (Brackets.control_closer hl hc ho hs)
  exact ⟨t, h', hb, hrest, by rw [hbr]⟩

/-! ### Arithmetic derivations -/

namespace Arith

/-- Every arithmetic derivation reads at least one record. -/
theorem yield_ne_nil {l : Level} (e : Arith l) : e.yield ≠ [] := by
  induction e with
  | signed sign first ih => cases sign <;> simp [yield, ih]
  | add left op right => simp [yield]
  | term first ih => exact ih
  | mul left op right => simp [yield]
  | chunk first ih => exact ih
  | pow left op right => simp [yield]
  | operand r => simp [yield]
  | paren lp inner rp => simp [yield]

/-- Below the loosest level a derivation begins with an operand or an opening parenthesis. -/
theorem head_of_ne_arith {l : Level} (e : Arith l) (hl : l ≠ .arith) :
    ∃ r rs, e.yield = r :: rs ∧ (r.kind.isOperand = true ∨ r.lexeme.toList = ['(']) := by
  induction e with
  | signed => exact absurd rfl hl
  | add => exact absurd rfl hl
  | term first ih => exact ih (by decide)
  | mul left op right ihl =>
    obtain ⟨r, rs, h, hr⟩ := ihl (by decide)
    exact ⟨r, rs ++ op.1 :: right.yield, by simp [yield, h], hr⟩
  | chunk first ih => exact ih (by decide)
  | pow left op right ihl =>
    obtain ⟨r, rs, h, hr⟩ := ihl (by decide)
    exact ⟨r, rs ++ op.1 :: right.yield, by simp [yield, h], hr⟩
  | operand r => exact ⟨r.1, [], rfl, .inl r.2⟩
  | paren lp inner rp => exact ⟨lp.1, inner.yield ++ [rp.1], rfl, .inr lp.2⟩

/-- Below the loosest level a derivation of tagged records does not begin with a sign. -/
theorem notLed_addOp {l : Level} (e : Arith l) (hl : l ≠ .arith) (htag : BracketsTagged e.yield)
    (rest : List Record) : NotLed .addOp (e.yield ++ rest) := by
  obtain ⟨r, rs, h, hr⟩ := e.head_of_ne_arith hl
  rw [h, List.cons_append, notLed_cons]
  rcases hr with hr | hr
  · intro hk
    rw [hk] at hr
    exact absurd hr (by decide)
  · have hk : r.kind = .parOp :=
      htag r (by rw [h]; exact List.mem_cons_self) ⟨'(', by simp, hr⟩
    rw [hk]
    decide

/-- A parenthesised expression that follows the first record of `ys` follows it in
`ys ++ rest` too. -/
theorem paren_after_append {ys rest rs : List Record} {r : Record} (hne : ys ≠ [])
    (h : ys ++ rest = r :: rs)
    (hys : ∀ {rs' : List Record}, ys = r :: rs' →
      ∃ (inner : Arith .arith) (rp : Bracket ')') (tail : List Record),
        rs' = inner.yield ++ rp.1 :: tail) :
    ∃ (inner : Arith .arith) (rp : Bracket ')') (tail : List Record),
      rs = inner.yield ++ rp.1 :: tail := by
  obtain ⟨x, xs, hx⟩ := List.exists_cons_of_ne_nil hne
  rw [hx, List.cons_append, List.cons.injEq] at h
  obtain ⟨rfl, rfl⟩ := h
  obtain ⟨inner, rp, tail, htail⟩ := hys hx
  exact ⟨inner, rp, tail ++ rest, by simp [htail]⟩

/-- A derivation that begins with a parenthesis of the bracket kind begins with a parenthesised
arithmetic expression. -/
theorem paren_head {l : Level} (e : Arith l) {r : Record} {rs : List Record}
    (h : e.yield = r :: rs) (hk : r.kind = .parOp) :
    ∃ (inner : Arith .arith) (rp : Bracket ')') (tail : List Record),
      rs = inner.yield ++ rp.1 :: tail := by
  induction e generalizing rs with
  | signed sign first ih =>
    cases sign with
    | none => exact ih h
    | some sign =>
      simp only [yield, List.cons.injEq] at h
      rw [← h.1, sign.2] at hk
      cases hk
  | add left op right ihl =>
    exact paren_after_append left.yield_ne_nil h ihl
  | term first ih => exact ih h
  | mul left op right ihl =>
    exact paren_after_append left.yield_ne_nil h ihl
  | chunk first ih => exact ih h
  | pow left op right ihl =>
    exact paren_after_append left.yield_ne_nil h ihl
  | operand x =>
    simp only [yield, List.cons.injEq] at h
    have hx := x.2
    rw [h.1, hk] at hx
    exact absurd hx (by decide)
  | paren lp inner rp =>
    simp only [yield, List.cons_append, List.cons.injEq] at h
    exact ⟨inner, rp, [], h.2.symm⟩

end Arith

/-! ### The arithmetic productions -/

/-- The loop of a level stops at a record that is not an operator of the level. -/
theorem arithMore_stop {s : ParseState} (h : NotLed .addOp s.rest) :
    (arithMore s).result = .ok () ∧ (arithMore s).state = s := by
  rw [arithMore, if_neg (by simp [checkKind_of_notLed h])]
  exact ⟨rfl, rfl⟩

/-- The multiplicative loop stops at a record that is no multiplicative operator. -/
theorem termMore_stop {s : ParseState} (h : NotLed .multOp s.rest) :
    (termMore s).result = .ok () ∧ (termMore s).state = s := by
  rw [termMore, if_neg (by simp [checkKind_of_notLed h])]
  exact ⟨rfl, rfl⟩

/-- The power loop stops at a record that is no power operator. -/
theorem chunkMore_stop {s : ParseState} (h : NotLed .powOp s.rest) :
    (chunkMore s).result = .ok () ∧ (chunkMore s).state = s := by
  rw [chunkMore, if_neg (by simp [checkKind_of_notLed h])]
  exact ⟨rfl, rfl⟩

/-- The loop of a level at an operator of the level reads it and the operand after it, emits
the operator and loops again. -/
theorem arithMore_cons {s : ParseState} {op : Record} {rest : List Record}
    (h : s.rest = op :: rest) (hk : op.kind = .addOp) :
    ∃ t : ParseState, t.rest = rest ∧ t.brackets = s.brackets ∧
      (arithMore s).Same ((term t).andThen fun u (_ : u.rest.length ≤ t.rest.length) =>
        (arithMore (u.emit (.ofRecord op))).widen (Nat.le_refl _)) := by
  obtain ⟨t, h', ha, hrest, hb⟩ := advance_cons h
  refine ⟨t, hrest, hb, ?_⟩
  rw [arithMore, if_pos (by simp [checkKind, h, hk]), ha]
  exact same_widen _ _

/-- The multiplicative loop at a multiplicative operator reads it and a chunk, emits the operator
and loops again. -/
theorem termMore_cons {s : ParseState} {op : Record} {rest : List Record}
    (h : s.rest = op :: rest) (hk : op.kind = .multOp) :
    ∃ t : ParseState, t.rest = rest ∧ t.brackets = s.brackets ∧
      (termMore s).Same ((chunk t).andThen fun u (_ : u.rest.length ≤ t.rest.length) =>
        (termMore (u.emit (.ofRecord op))).widen (Nat.le_refl _)) := by
  obtain ⟨t, h', ha, hrest, hb⟩ := advance_cons h
  refine ⟨t, hrest, hb, ?_⟩
  rw [termMore, if_pos (by simp [checkKind, h, hk]), ha]
  exact same_widen _ _

/-- The power loop at a power operator reads it and a factor, emits the operator and loops again. -/
theorem chunkMore_cons {s : ParseState} {op : Record} {rest : List Record}
    (h : s.rest = op :: rest) (hk : op.kind = .powOp) :
    ∃ t : ParseState, t.rest = rest ∧ t.brackets = s.brackets ∧
      (chunkMore s).Same ((factor t).andThen fun u (_ : u.rest.length ≤ t.rest.length) =>
        (chunkMore (u.emit (.ofRecord op))).widen (Nat.le_refl _)) := by
  obtain ⟨t, h', ha, hrest, hb⟩ := advance_cons h
  refine ⟨t, hrest, hb, ?_⟩
  rw [chunkMore, if_pos (by simp [checkKind, h, hk]), ha]
  exact same_widen _ _

namespace Arith

/-- What the production of a level does on the yield of a derivation followed by `rest`: at a
level with operators it reads the derivation and then answers as its loop from the records
after it, as long as no operator of a tighter level follows; a factor reads the derivation and
succeeds. -/
def Completes : (l : Level) → Arith l → Prop
  | .arith, e => ∀ s rest, s.rest = e.yield ++ rest → BracketsTagged e.yield →
      NotLed .multOp rest → NotLed .powOp rest →
      ∃ u : ParseState, u.rest = rest ∧ u.brackets.stack = s.brackets.stack ∧
        (arith s).Same (arithMore u)
  | .term, e => ∀ s rest, s.rest = e.yield ++ rest → BracketsTagged e.yield →
      NotLed .powOp rest →
      ∃ u : ParseState, u.rest = rest ∧ u.brackets.stack = s.brackets.stack ∧
        (RpnLang.term s).Same (termMore u)
  | .chunk, e => ∀ s rest, s.rest = e.yield ++ rest → BracketsTagged e.yield →
      ∃ u : ParseState, u.rest = rest ∧ u.brackets.stack = s.brackets.stack ∧
        (RpnLang.chunk s).Same (chunkMore u)
  | .factor, e => ∀ s rest, s.rest = e.yield ++ rest → BracketsTagged e.yield →
      (RpnLang.factor s).Ends rest s.brackets.stack

/-- An arithmetic expression that no operator follows is read to its end. -/
theorem Completes.arith_ends {e : Arith .arith} (h : Completes .arith e) {s : ParseState}
    {rest : List Record} (hs : s.rest = e.yield ++ rest) (htag : BracketsTagged e.yield)
    (hend : EndsArith rest) : (arith s).Ends rest s.brackets.stack := by
  obtain ⟨u, hu, hub, hsame⟩ := h s rest hs htag hend.2.1 hend.2.2
  rw [← hu, ← hub]
  exact Ends.of_ok (hsame.ok_of (arithMore_stop (hu ▸ hend.1)))

/-- Every production reads what a derivation of its level derives. The induction is on the
derivation; an operator chain is read by the production of its left operand and one more
round of the loop. -/
theorem completes {l : Level} (e : Arith l) : Completes l e := by
  induction e with
  | signed sign first ih =>
    intro s rest hs htag hmul hpow
    cases sign with
    | none =>
      -- no sign: the first term begins with an operand or a parenthesis
      simp only [yield] at hs htag
      have hk : ¬s.checkKind .addOp = true := by
        rw [checkKind_of_notLed (hs ▸ first.notLed_addOp (by decide) htag rest)]
        decide
      obtain ⟨u, hu, hub, hsame⟩ := ih s rest hs htag hpow
      refine ⟨u, hu, hub, ?_⟩
      rw [arith, if_neg hk]
      exact andThen_same (hsame.ok_of (termMore_stop (hu ▸ hmul)))
    | some sign =>
      simp only [yield, List.cons_append, bracketsTagged_cons] at hs htag
      obtain ⟨t, h', ha, hrest, hb⟩ := advance_cons hs
      have hk : s.checkKind .addOp = true := by simp [checkKind, hs, sign.2]
      by_cases hminus : sign.1.lexeme = "-"
      · -- a leading minus: an interned zero before the first term, `-` after it
        obtain ⟨u, hu, hub, hsame⟩ :=
          ih (({ t with tables := (t.tables.internValue (.int 0)).2 } : ParseState).emit
            (.token (t.tables.internValue (.int 0)).1 .int)) rest hrest htag.2 hpow
        refine ⟨u.emit (.token "-" .addOp), hu, hub.trans (congrArg Brackets.stack hb), ?_⟩
        rw [arith, if_pos hk, ha]
        simp only [if_pos hminus]
        exact (same_widen _ _).trans
          ((andThen_same (hsame.ok_of (termMore_stop (hu ▸ hmul)))).trans (same_widen _ _))
      · obtain ⟨u, hu, hub, hsame⟩ := ih t rest hrest htag.2 hpow
        refine ⟨u, hu, hub.trans (congrArg Brackets.stack hb), ?_⟩
        rw [arith, if_pos hk, ha]
        simp only [if_neg hminus]
        exact (same_widen _ _).trans (andThen_same (hsame.ok_of (termMore_stop (hu ▸ hmul))))
  | add left op right ihl ihr =>
    intro s rest hs htag hmul hpow
    simp only [yield, List.append_assoc, List.cons_append, bracketsTagged_append_iff,
      bracketsTagged_cons] at hs htag
    obtain ⟨u1, hu1, hub1, hs1⟩ := ihl s _ hs htag.1 (by simp [op.2]) (by simp [op.2])
    obtain ⟨t, hrest, hb, hs2⟩ := arithMore_cons hu1 op.2
    obtain ⟨u2, hu2, hub2, hs3⟩ := ihr t rest hrest htag.2.2 hpow
    refine ⟨u2.emit (.ofRecord op.1), hu2, ?_, hs1.trans (hs2.trans
      ((andThen_same (hs3.ok_of (termMore_stop (hu2 ▸ hmul)))).trans (same_widen _ _)))⟩
    show u2.brackets.stack = _
    rw [hub2, hb, hub1]
  | term first ih =>
    intro s rest hs htag hpow
    simp only [yield] at hs htag
    obtain ⟨u, hu, hub, hsame⟩ := ih s rest hs htag
    refine ⟨u, hu, hub, ?_⟩
    rw [RpnLang.term]
    exact andThen_same (hsame.ok_of (chunkMore_stop (hu ▸ hpow)))
  | mul left op right ihl ihr =>
    intro s rest hs htag hpow
    simp only [yield, List.append_assoc, List.cons_append, bracketsTagged_append_iff,
      bracketsTagged_cons] at hs htag
    obtain ⟨u1, hu1, hub1, hs1⟩ := ihl s _ hs htag.1 (by simp [op.2])
    obtain ⟨t, hrest, hb, hs2⟩ := termMore_cons hu1 op.2
    obtain ⟨u2, hu2, hub2, hs3⟩ := ihr t rest hrest htag.2.2
    refine ⟨u2.emit (.ofRecord op.1), hu2, ?_, hs1.trans (hs2.trans
      ((andThen_same (hs3.ok_of (chunkMore_stop (hu2 ▸ hpow)))).trans (same_widen _ _)))⟩
    show u2.brackets.stack = _
    rw [hub2, hb, hub1]
  | chunk first ih =>
    intro s rest hs htag
    simp only [yield] at hs htag
    have hf := ih s rest hs htag
    refine ⟨(RpnLang.factor s).state, hf.2.1, hf.2.2, ?_⟩
    rw [RpnLang.chunk]
    exact andThen_same ⟨hf.1, rfl⟩
  | pow left op right ihl ihr =>
    intro s rest hs htag
    simp only [yield, List.append_assoc, List.cons_append, bracketsTagged_append_iff,
      bracketsTagged_cons] at hs htag
    obtain ⟨u1, hu1, hub1, hs1⟩ := ihl s _ hs htag.1
    obtain ⟨t, hrest, hb, hs2⟩ := chunkMore_cons hu1 op.2
    have hf := ihr t rest hrest htag.2.2
    refine ⟨(RpnLang.factor t).state.emit (.ofRecord op.1), hf.2.1, ?_, hs1.trans (hs2.trans
      ((andThen_same ⟨hf.1, rfl⟩).trans (same_widen _ _)))⟩
    show (RpnLang.factor t).state.brackets.stack = _
    rw [hf.2.2, hb, hub1]
  | operand r =>
    intro s rest hs htag
    simp only [yield, List.singleton_append] at hs
    obtain ⟨t, h', ha, hrest, hb⟩ := advance_cons hs
    rw [RpnLang.factor]
    split
    · rename_i hnil
      rw [hnil] at hs
      cases hs
    · rename_i r' tail hs'
      rw [hs'] at hs
      obtain ⟨rfl, rfl⟩ := List.cons.inj hs
      rw [if_pos r.2, ha]
      exact ⟨rfl, hrest, congrArg Brackets.stack hb⟩
  | paren lp inner rp ih =>
    intro s rest hs htag
    simp only [yield, List.cons_append, List.append_assoc, bracketsTagged_cons,
      bracketsTagged_append_iff] at hs htag
    have hlp : lp.1.kind = .parOp := lp.kind_eq (by simp) htag.1
    have hrp : rp.1.kind = .parOp := rp.kind_eq (by simp) htag.2.2.1
    obtain ⟨t, h', hbr, hrest, hst⟩ := bracket_open hs lp.2 (.inr rfl)
    -- the inner expression ends at the closing parenthesis, which closes the one opened
    have harith := ih.arith_ends hrest htag.2.1 (endsArith_cons rest (.inr (.inl hrp)))
    rw [RpnLang.factor]
    split
    · rename_i hnil
      rw [hnil] at hs
      cases hs
    · rename_i r' tail hs'
      rw [hs'] at hs
      obtain ⟨rfl, rfl⟩ := List.cons.inj hs
      rw [if_neg (by rw [hlp]; decide), if_pos (lp.is "(" (by decide) hlp), hbr]
      refine Ends.widen (Ends.andThen harith fun u _ hu hub => ?_) _
      obtain ⟨v, hv, hbc, hvrest, hvst⟩ := bracket_close hu rp.2 (by decide) rfl (hub.trans hst)
      rw [hbc]
      exact ⟨rfl, hvrest, hvst⟩

end Arith

/-! ### Comparisons and conditions -/

/-- Expecting a kind that does not lead the records fails. -/
theorem expectKind_of_notLed {s : ParseState} {kind : TokenKind} (h : NotLed kind s.rest) :
    ∃ e, s.expectKind kind = .error e := by
  unfold expectKind
  split
  · exact ⟨_, rfl⟩
  · rename_i r tail hs
    rw [hs, notLed_cons] at h
    rw [if_neg (by simpa using h)]
    exact ⟨_, rfl⟩

/-- The word `(` of the bracket kind. -/
theorem Record.paren_of_is {r : Record} (h : r.Is "(" .parOp = true) :
    r.lexeme.toList = ['('] ∧ r.kind = .parOp := by
  simp only [Record.Is, Bool.and_eq_true, beq_iff_eq] at h
  exact ⟨by rw [h.2]; decide, h.1⟩

/-- A comparison is read to its end when no operator follows it. -/
theorem comparison_ends (c : Comparison) {s : ParseState} {rest : List Record}
    (hs : s.rest = c.yield ++ rest) (htag : BracketsTagged c.yield) (hend : EndsArith rest) :
    (comparison s).Ends rest s.brackets.stack := by
  simp only [Comparison.yield, List.append_assoc, List.cons_append, bracketsTagged_append_iff,
    bracketsTagged_cons] at hs htag
  have hleft := (Arith.completes c.left).arith_ends hs htag.1 (endsArith_cons _ (.inl c.op.2))
  unfold comparison
  refine Ends.andThen hleft fun t _ ht htb => ?_
  obtain ⟨u, hu, hek, hurest, hub⟩ := expectKind_cons ht c.op.2
  rw [hek]
  have hright := (Arith.completes c.right).arith_ends hurest htag.2.2 hend
  refine Ends.widen (Ends.andThen hright fun v _ hv hvb => ?_) _
  exact ⟨rfl, hv, hvb.trans ((congrArg Brackets.stack hub).trans htb)⟩

/-- An arithmetic expression followed by no comparison operator is no comparison. -/
theorem comparison_fails (e : Arith .arith) {s : ParseState} {rest : List Record}
    (hs : s.rest = e.yield ++ rest) (htag : BracketsTagged e.yield) (hend : EndsArith rest)
    (hrel : NotLed .relOp rest) : (comparison s).Fails := by
  unfold comparison
  refine Ends.andThen_fails ((Arith.completes e).arith_ends hs htag hend) fun t _ ht _ => ?_
  obtain ⟨err, he⟩ := expectKind_of_notLed (ht ▸ hrel)
  rw [he]
  exact fails_fail _

/-- A comparison in parentheses is read to its closing parenthesis. -/
theorem parenComparison_ends (lp : Bracket '(') (c : Comparison) (rp : Bracket ')')
    {s : ParseState} {rest : List Record} (hs : s.rest = lp.1 :: (c.yield ++ rp.1 :: rest))
    (htag : BracketsTagged c.yield) (hrp : rp.1.kind = .parOp) :
    (parenComparison s).Ends rest s.brackets.stack := by
  obtain ⟨t, h', hb, hrest, hst⟩ := bracket_open hs lp.2 (.inr rfl)
  unfold parenComparison
  rw [hb]
  have hc := comparison_ends c hrest htag (endsArith_cons rest (.inr (.inl hrp)))
  refine Ends.widen (Ends.andThen hc fun u _ hu hub => ?_) _
  obtain ⟨v, hv, hbc, hvrest, hvst⟩ := bracket_close hu rp.2 (by decide) rfl (hub.trans hst)
  rw [hbc]
  exact ⟨rfl, hvrest, hvst⟩

/-- A parenthesis that opens an arithmetic expression opens no comparison: the comparison inside
stops at the closing parenthesis. -/
theorem parenComparison_fails (e : Arith .arith) {s : ParseState} {rest : List Record}
    (hs : s.rest = e.yield ++ rest) (htag : BracketsTagged e.yield)
    (hp : s.check "(" .parOp = true) : (parenComparison s).Fails := by
  obtain ⟨x, xs, hx⟩ := List.exists_cons_of_ne_nil e.yield_ne_nil
  rw [hx, List.cons_append] at hs
  obtain ⟨hxl, hxk⟩ := Record.paren_of_is (by simpa [check, hs] using hp)
  obtain ⟨inner, rp, tail, rfl⟩ := e.paren_head hx hxk
  rw [hx] at htag
  simp only [bracketsTagged_cons, bracketsTagged_append_iff] at htag
  have hrp : rp.1.kind = .parOp := rp.kind_eq (by simp) htag.2.2.1
  have hs' : s.rest = x :: (inner.yield ++ rp.1 :: (tail ++ rest)) := hs.trans (by simp)
  obtain ⟨t, h', hb, hrest, -⟩ := bracket_open hs' hxl (.inr rfl)
  unfold parenComparison
  rw [hb]
  exact Fails.widen (Fails.andThen (comparison_fails inner hrest htag.2.1
    (endsArith_cons _ (.inr (.inl hrp))) (by simp [hrp]))) _

/-- A condition that begins with no truth literal answers as a comparison from where it began:
a parenthesis that opens no comparison is rolled back. -/
theorem condition_as_comparison {s : ParseState} (hb : NotLed .boolval s.rest)
    (hp : s.check "(" .parOp = true → (parenComparison s.enter).Fails) :
    ∃ t : ParseState, t.rest = s.rest ∧ t.brackets.stack = s.brackets.stack ∧
      (condition s).Same (comparison t) := by
  unfold condition
  rw [if_neg (by simp [checkKind_of_notLed hb])]
  split
  · rename_i hcheck
    have hf := hp hcheck
    split
    · rename_i t h heq
      obtain ⟨⟨e, he⟩, -, -⟩ := hf.attempt_eq heq
      cases he
    · rename_i e t h heq
      obtain ⟨-, ht, htb⟩ := hf.attempt_eq heq
      exact ⟨t, ht, htb, same_widen _ _⟩
  · exact ⟨s, rfl, rfl, rfl, rfl⟩

/-! ### Right sides and conditions cut short -/

/-- The records begin with a truth literal and go on after it. -/
def truthLed : List Record → Bool
  | r :: _ :: _ => r.kind == .boolval
  | _ => false

/-- Records that are not cut short after a leading truth literal begin with no truth literal,
or are that literal alone. -/
theorem truthLed_cons {r : Record} {rs : List Record} (hne : rs ≠ []) :
    truthLed (r :: rs) = (r.kind == .boolval) := by
  obtain ⟨x, xs, rfl⟩ := List.exists_cons_of_ne_nil hne
  rfl

/-- Records of two or more not cut short after a truth literal do not begin with one. -/
theorem notLed_boolval_of_truthLed {r : Record} {rs : List Record} (h : truthLed (r :: rs) = false)
    (hne : rs ≠ []) : r.kind ≠ .boolval := by
  simpa [truthLed_cons hne] using h

/-- A condition that begins with a truth literal is that literal alone. -/
theorem condition_truth {s : ParseState} {b : Record} {rest : List Record}
    (hs : s.rest = b :: rest) (hb : b.kind = .boolval) :
    (condition s).Ends rest s.brackets.stack := by
  obtain ⟨t, h', ha, hrest, hbr⟩ := advance_cons hs
  unfold condition
  rw [if_pos (by simp [checkKind, hs, hb]), ha]
  exact ⟨rfl, hrest, congrArg Brackets.stack hbr⟩

/-- A condition that is not cut short after a truth literal is read to its end when no operator
follows it. -/
theorem condition_ends (c : Cond) {s : ParseState} {rest : List Record}
    (hs : s.rest = c.yield ++ rest) (htag : BracketsTagged c.yield)
    (hc : truthLed c.yield = false) (hend : EndsArith rest) :
    (condition s).Ends rest s.brackets.stack := by
  cases c with
  | lit r => exact condition_truth hs r.2
  | compare cmp =>
    simp only [Cond.yield] at hs htag hc
    have hs' : s.rest = cmp.left.yield ++ (cmp.op.1 :: cmp.right.yield ++ rest) := by
      simp [hs, Comparison.yield]
    have htag' : BracketsTagged cmp.left.yield := by
      simp only [Comparison.yield, bracketsTagged_append_iff] at htag
      exact htag.1
    -- the left side begins the condition, and it is no truth literal
    obtain ⟨x, xs, hx⟩ := List.exists_cons_of_ne_nil cmp.left.yield_ne_nil
    have hbool : NotLed .boolval s.rest := by
      rw [hs', hx, List.cons_append, notLed_cons]
      have hxs : truthLed (x :: (xs ++ cmp.op.1 :: cmp.right.yield)) = false := by
        simpa [Comparison.yield, hx] using hc
      exact notLed_boolval_of_truthLed hxs (by simp)
    obtain ⟨t, ht, htb, hsame⟩ := condition_as_comparison hbool
      fun hp => parenComparison_fails cmp.left (s := s.enter) hs' htag' hp
    rw [← htb]
    exact hsame.ends (comparison_ends cmp (ht.trans hs) htag hend)
  | paren lp cmp rp =>
    simp only [Cond.yield, List.cons_append, List.append_assoc] at hs
    have hlp : lp.1.kind = .parOp := lp.kind_eq (by simp) (htag lp.1 (by simp [Cond.yield]))
    have hrp : rp.1.kind = .parOp := rp.kind_eq (by simp) (htag rp.1 (by simp [Cond.yield]))
    have htag' : BracketsTagged cmp.yield := fun r hr => htag r (by simp [Cond.yield, hr])
    have hA := parenComparison_ends lp cmp rp (s := s.enter) hs htag' hrp
    unfold condition
    rw [if_neg (by simp [checkKind, hs, hlp]),
      if_pos (by simp [check, hs, lp.is "(" (by decide) hlp])]
    split
    · rename_i t h heq
      obtain ⟨-, ht, htb⟩ := hA.attempt_eq heq
      exact ⟨rfl, ht, htb⟩
    · rename_i e t h heq
      obtain ⟨he, -, -⟩ := hA.attempt_eq heq
      cases he

/-- An arithmetic expression that begins with no truth literal and is followed by no operator
is no condition. -/
theorem condition_fails (e : Arith .arith) {s : ParseState} {rest : List Record}
    (hs : s.rest = e.yield ++ rest) (htag : BracketsTagged e.yield) (hbool : NotLed .boolval s.rest)
    (hend : EndsArith rest) (hrel : NotLed .relOp rest) : (condition s).Fails := by
  obtain ⟨t, ht, -, hsame⟩ := condition_as_comparison hbool
    fun hp => parenComparison_fails e (s := s.enter) hs htag hp
  exact hsame.fails (comparison_fails e (ht.trans hs) htag hend hrel)

/-- The right side of an assignment answers as its condition when that succeeds. -/
theorem expression_of_condition {s : ParseState} {rest : List Record}
    (hc : (condition s.enter).Ends rest s.brackets.stack) :
    (expression s).Ends rest s.brackets.stack := by
  unfold expression
  split
  · rename_i t h heq
    obtain ⟨-, ht, htb⟩ := hc.attempt_eq heq
    exact ⟨rfl, ht, htb⟩
  · rename_i e t h heq
    obtain ⟨he, -, -⟩ := hc.attempt_eq heq
    cases he

/-- The right side of an assignment answers as arithmetic when no condition can be read. -/
theorem expression_of_arith {s : ParseState} {rest : List Record}
    (hc : (condition s.enter).Fails)
    (ha : ∀ t : ParseState, t.rest = s.rest → t.brackets.stack = s.brackets.stack →
      (arith t.enter).Ends rest s.brackets.stack) :
    (expression s).Ends rest s.brackets.stack := by
  unfold expression
  split
  · rename_i t h heq
    obtain ⟨⟨e, he⟩, -, -⟩ := hc.attempt_eq heq
    cases he
  · rename_i e t h heq
    obtain ⟨-, ht, htb⟩ := hc.attempt_eq heq
    have hA := ha t ht htb
    split
    · rename_i u hu heq'
      obtain ⟨-, hur, hub⟩ := hA.attempt_eq heq'
      exact ⟨rfl, hur, hub⟩
    · rename_i e' u hu heq'
      obtain ⟨he, -, -⟩ := hA.attempt_eq heq'
      cases he

/-- A right side that is not cut short after a truth literal is read to its end, before a record
that neither continues arithmetic nor compares. -/
theorem expression_ends (rhs : Rhs) {s : ParseState} {rest : List Record}
    (hs : s.rest = rhs.yield ++ rest) (htag : BracketsTagged rhs.yield)
    (hc : truthLed rhs.yield = false) (hend : EndsArith rest) (hrel : NotLed .relOp rest) :
    (expression s).Ends rest s.brackets.stack := by
  cases rhs with
  | cond c => exact expression_of_condition (condition_ends c (s := s.enter) hs htag hc hend)
  | arith e =>
    simp only [Rhs.yield] at hs htag hc
    obtain ⟨x, xs, hx⟩ := List.exists_cons_of_ne_nil e.yield_ne_nil
    by_cases hlit : xs = [] ∧ x.kind = .boolval
    · -- a lone truth literal is read as a condition
      obtain ⟨rfl, hk⟩ := hlit
      exact expression_of_condition (condition_truth (s := s.enter) (hs.trans (by rw [hx]; rfl)) hk)
    · have hbool : NotLed .boolval s.rest := by
        rw [hs, hx, List.cons_append, notLed_cons]
        intro hk
        by_cases hxs : xs = []
        · exact hlit ⟨hxs, hk⟩
        · exact notLed_boolval_of_truthLed (hx ▸ hc) hxs hk
      refine expression_of_arith (condition_fails e (s := s.enter) hs htag hbool hend hrel)
        fun t ht htb => ?_
      rw [← htb]
      exact (Arith.completes e).arith_ends (s := t.enter) (ht.trans hs) htag hend

/-! ### Declarations -/

/-- A word rules out every other word of its lexeme. -/
theorem Record.is_of_ne {r : Record} {lexeme lexeme' : String} {kind kind' : TokenKind}
    (h : r.Is lexeme kind = true) (hne : lexeme ≠ lexeme') : r.Is lexeme' kind' = false := by
  simp only [Record.Is, Bool.and_eq_true, beq_iff_eq] at h
  simp [Record.Is, h.2, hne]

/-- Checking for a word that the first record is not fails. -/
theorem check_of_head {s : ParseState} {lexeme : String} {kind : TokenKind}
    (h : ∀ r ∈ s.rest.head?, r.Is lexeme kind = false) : s.check lexeme kind = false := by
  unfold check
  split
  · rename_i r rs hs
    exact h r (by simp [hs])
  · rfl

/-- An identifier without a type is declared. -/
theorem Tables.declare_of_untyped {t : Tables} {name : Record} (ty : Ty)
    (h : ¬t.Typed name.lexeme) : ∃ t', t.declare name ty = .ok t' := by
  unfold Tables.declare
  split
  · rename_i e he
    split
    · rename_i hty
      exact absurd ⟨e, he, hty⟩ h
    · exact ⟨_, rfl⟩
  · exact ⟨_, rfl⟩

/-- A declaration types no other identifier. -/
theorem Tables.typed_of_declare {t t' : Tables} {name : Record} {ty : Ty}
    (h : t.declare name ty = .ok t') {m : String} (hm : m ≠ name.lexeme) (ht' : t'.Typed m) :
    t.Typed m := by
  obtain ⟨e, he, hty⟩ := ht'
  unfold Tables.declare at h
  split at h
  · split at h
    · cases h
    · cases h
      exact ⟨e, by rwa [Tables.setType_ident?_other _ hm] at he, hty⟩
  · cases h
    rw [Tables.setType_ident?_other _ hm, (Tables.registerIdent_ident? _ _).2 m hm] at he
    exact ⟨e, he, hty⟩

/-- The last name of a declaration: it is declared, and nothing else gets a type. -/
theorem declNames_last (ty : Ty) {s : ParseState} {x : Record} {rest : List Record}
    (hs : s.rest = x :: rest) (hx : x.kind = .ident) (hfresh : ¬s.tables.Typed x.lexeme)
    (hrest : ∀ r ∈ rest.head?, r.Is "," .punct = false) :
    ∃ t : ParseState, t.rest = rest ∧ t.brackets = s.brackets ∧
      (∀ m, m ≠ x.lexeme → t.tables.Typed m → s.tables.Typed m) ∧
      (declNames s ty).result = .ok () ∧ (declNames s ty).state = t := by
  obtain ⟨t, h', hek, hrest', hb⟩ := expectKind_cons hs hx
  have htab : t.tables = s.tables := (advance_ok (expectKind_ok hek).2).2.2
  obtain ⟨tables, hdecl⟩ := Tables.declare_of_untyped ty (htab ▸ hfresh)
  have hc : ({ t with tables } : ParseState).check "," .punct = false :=
    check_of_head (by simpa [hrest'] using hrest)
  refine ⟨{ t with tables }, hrest', hb, fun m hm ht => ?_, ?_⟩
  · exact htab ▸ Tables.typed_of_declare hdecl hm ht
  · rw [declNames, hek]
    dsimp only
    rw [hdecl]
    dsimp only
    rw [if_neg (by simp [hc])]
    exact ⟨rfl, rfl⟩

/-- A name of a declaration followed by a comma: it is declared, nothing else gets a type, and
the list goes on after the comma. -/
theorem declNames_cons (ty : Ty) {s : ParseState} {x comma : Record} {rest : List Record}
    (hs : s.rest = x :: comma :: rest) (hx : x.kind = .ident) (hfresh : ¬s.tables.Typed x.lexeme)
    (hcomma : comma.Is "," .punct = true) :
    ∃ u : ParseState, u.rest = rest ∧ u.brackets = s.brackets ∧
      (∀ m, m ≠ x.lexeme → u.tables.Typed m → s.tables.Typed m) ∧
      (declNames s ty).Same (declNames u ty) := by
  obtain ⟨t, h', hek, hrest', hb⟩ := expectKind_cons hs hx
  have htab : t.tables = s.tables := (advance_ok (expectKind_ok hek).2).2.2
  obtain ⟨tables, hdecl⟩ := Tables.declare_of_untyped ty (htab ▸ hfresh)
  obtain ⟨u, hu, ha, hurest, hub⟩ := advance_cons (s := { t with tables }) hrest'
  have hutab : u.tables = tables := (advance_ok ha).2.2
  refine ⟨u, hurest, hub.trans hb, fun m hm ht => ?_, ?_⟩
  · exact htab ▸ Tables.typed_of_declare hdecl hm (hutab ▸ ht)
  · rw [declNames, hek]
    dsimp only
    rw [hdecl]
    dsimp only
    rw [if_pos (by simp [check, hrest', hcomma]), ha]
    exact same_widen _ _

/-- A list of names none of which has a type, and none twice, is declared to its end; no other
identifier gets a type. The induction is on the names after the first. -/
theorem declNames_ends (ty : Ty) (ns : Names) {s : ParseState} {rest : List Record}
    (hs : s.rest = ns.yield ++ rest) (hrest : ∀ r ∈ rest.head?, r.Is "," .punct = false)
    (hfresh : ∀ x ∈ ns.lexemes, ¬s.tables.Typed x) (hnodup : ns.lexemes.Nodup) :
    (declNames s ty).Ends rest s.brackets.stack ∧
      ∀ m, m ∉ ns.lexemes → (declNames s ty).state.tables.Typed m → s.tables.Typed m := by
  obtain ⟨first, more⟩ := ns
  induction more generalizing first s with
  | nil =>
    have hlex : (Names.mk first []).lexemes = [first.1.lexeme] := by
      simp [Names.lexemes, Names.idents]
    simp only [Names.yield, List.flatMap_nil, List.cons_append, List.nil_append] at hs
    obtain ⟨t, hrest', hb, htyped, hok, hst⟩ :=
      declNames_last ty hs first.2 (hfresh _ (by simp [hlex])) hrest
    have hends := Ends.of_ok ⟨hok, hst⟩
    rw [hrest', hb] at hends
    refine ⟨hends, fun m hm ht => ?_⟩
    rw [hst] at ht
    exact htyped m (fun h => hm (by simp [hlex, h])) ht
  | cons p more ih =>
    obtain ⟨comma, x⟩ := p
    have hlex : (Names.mk first ((comma, x) :: more)).lexemes =
        first.1.lexeme :: (Names.mk x more).lexemes := Names.lexemes_cons first comma ⟨x, more⟩
    have hyield : (Names.mk first ((comma, x) :: more)).yield =
        first.1 :: comma.1 :: (Names.mk x more).yield := Names.yield_cons first comma ⟨x, more⟩
    rw [hyield, List.cons_append, List.cons_append] at hs
    rw [hlex] at hfresh hnodup
    obtain ⟨hnew, hnodup'⟩ := List.nodup_cons.mp hnodup
    obtain ⟨u, hu, hub, htyped, hsame⟩ :=
      declNames_cons ty hs first.2 (hfresh _ List.mem_cons_self) comma.2
    -- the names after the comma are still without a type
    have hfresh' : ∀ y ∈ (Names.mk x more).lexemes, ¬u.tables.Typed y := fun y hy ht =>
      hfresh y (List.mem_cons_of_mem _ hy) (htyped y (fun h => hnew (h ▸ hy)) ht)
    obtain ⟨hends, htables⟩ := ih x hu hfresh' hnodup'
    rw [hub] at hends
    refine ⟨hsame.ends hends, fun m hm ht => ?_⟩
    rw [hlex] at hm
    rw [hsame.2] at ht
    exact htyped m (fun h => hm (h ▸ List.mem_cons_self))
      (htables m (fun h => hm (List.mem_cons_of_mem _ h)) ht)

/-- A record that is no keyword declares no type. -/
theorem declaredType?_of_head {s : ParseState} (h : ∀ r ∈ s.rest.head?, r.kind ≠ .keyword) :
    s.declaredType? = none := by
  unfold declaredType?
  split
  · rename_i r rs hs
    rw [if_neg (h r (by simp [hs]))]
  · rfl

/-- Declarations of names none of which has a type, and none twice, are read to their end,
before a record that is no keyword. The induction is on the declarations; the names still to
come keep having no type. -/
theorem declarations_ends (ds : List Decl) {s : ParseState} {rest : List Record}
    (hs : s.rest = ds.flatMap Decl.yield ++ rest)
    (hstop : ∀ r ∈ rest.head?, r.kind ≠ .keyword)
    (hfresh : ∀ x ∈ Decl.lexemes ds, ¬s.tables.Typed x) (hnodup : (Decl.lexemes ds).Nodup) :
    (declarations s).Ends rest s.brackets.stack := by
  induction ds generalizing s with
  | nil =>
    rw [List.flatMap_nil, List.nil_append] at hs
    rw [declarations, declaredType?_of_head (hs ▸ hstop)]
    exact ⟨rfl, hs, rfl⟩
  | cons d ds ih =>
    simp only [List.flatMap_cons, Decl.yield, List.cons_append, List.append_assoc] at hs
    have hlex : Decl.lexemes (d :: ds) = d.names.lexemes ++ Decl.lexemes ds := by
      simp [Decl.lexemes]
    rw [hlex] at hfresh hnodup
    obtain ⟨hnd, hnds, hdisj⟩ := List.nodup_append.mp hnodup
    obtain ⟨ty, hty⟩ := Option.isSome_iff_exists.mp d.ty.2.2
    have hdt : s.declaredType? = some ty := by simp [declaredType?, hs, d.ty.2.1, hty]
    obtain ⟨t, h', ha, hrest, hb⟩ := advance_cons hs
    have htab : t.tables = s.tables := (advance_ok ha).2.2
    have hsemi : d.semi.1.Is "," .punct = false := Record.is_of_ne d.semi.2 (by decide)
    obtain ⟨hnames, htyped⟩ := declNames_ends ty d.names (s := t) hrest (by simp [hsemi])
      (fun x hx => htab ▸ hfresh x (List.mem_append_left _ hx)) hnd
    rw [declarations, hdt]
    dsimp only
    rw [ha]
    dsimp only
    refine Ends.widen ((andThen_same ⟨hnames.1, rfl⟩).ends ?_) _
    obtain ⟨v, hv, he, hvrest, hvb⟩ := expect_cons hnames.2.1 d.semi.2
    have hvtab : v.tables = (declNames t ty).state.tables := (advance_ok (expect_ok he).2).2.2
    rw [he]
    -- the names of the later declarations were not declared by this one
    have hfresh' : ∀ x ∈ Decl.lexemes ds, ¬v.tables.Typed x := fun x hx hxt =>
      hfresh x (List.mem_append_right _ hx)
        (htab ▸ htyped x (fun h => hdisj x h x hx rfl) (hvtab ▸ hxt))
    have hends := ih (s := v) hvrest hfresh' hnds
    rw [hvb, hnames.2.2, hb] at hends
    exact Ends.widen hends _

/-! ### Statements -/

mutual

/-- Some right side or condition of the statement begins with a truth literal and goes on. -/
def Stmt.cutShort : Stmt → Bool
  | .assign _ _ rhs _ => truthLed rhs.yield
  | .io .. => false
  | .ifThen _ _ cond _ body => truthLed cond.yield || body.cutShort
  | .doWhile _ body _ _ cond _ => body.cutShort || truthLed cond.yield

/-- Some right side or condition in the block begins with a truth literal and goes on. -/
def Block.cutShort : Block → Bool
  | .mk _ stmts _ => Stmt.cutShortAll stmts

/-- Some right side or condition of the statements begins with a truth literal and goes on. -/
def Stmt.cutShortAll : List Stmt → Bool
  | [] => false
  | st :: ss => st.cutShort || Stmt.cutShortAll ss

end

/-- The identifiers of an `input` or `print` list are read to the end of the list. The induction
is on the names after the first. -/
theorem ioNames_ends (kw : Record) (ns : Names) {s : ParseState} {rest : List Record}
    (hs : s.rest = ns.yield ++ rest) (hrest : ∀ r ∈ rest.head?, r.Is "," .punct = false) :
    (ioNames s kw).Ends rest s.brackets.stack := by
  obtain ⟨first, more⟩ := ns
  induction more generalizing first s with
  | nil =>
    simp only [Names.yield, List.flatMap_nil, List.cons_append, List.nil_append] at hs
    obtain ⟨t, h', hek, hrest', hb⟩ := expectKind_cons hs first.2
    have hc : ((t.emit (.ofRecord first.1)).emit (.ofRecord kw)).check "," .punct = false :=
      check_of_head (by simpa [hrest'] using hrest)
    rw [ioNames, hek]
    dsimp only
    rw [if_neg (by simp [hc])]
    exact ⟨rfl, hrest', congrArg Brackets.stack hb⟩
  | cons p more ih =>
    obtain ⟨comma, x⟩ := p
    rw [show (Names.mk first ((comma, x) :: more)).yield =
      first.1 :: comma.1 :: (Names.mk x more).yield from Names.yield_cons first comma ⟨x, more⟩,
      List.cons_append, List.cons_append] at hs
    obtain ⟨t, h', hek, hrest', hb⟩ := expectKind_cons hs first.2
    obtain ⟨u, hu, ha, hurest, hub⟩ :=
      advance_cons (s := (t.emit (.ofRecord first.1)).emit (.ofRecord kw)) hrest'
    rw [ioNames, hek]
    dsimp only
    rw [if_pos (by simp [check, hrest', comma.2]), ha]
    have hst : u.brackets.stack = s.brackets.stack := by
      rw [hub]
      exact congrArg Brackets.stack hb
    have hends := ih x hurest
    rw [hst] at hends
    exact Ends.widen hends _

/-- An `input` or `print` statement after its keyword. -/
theorem ioRest_ends (kw : Record) (lp : Bracket '(') (ns : Names) (rp : Bracket ')')
    (semi : Word ";" .punct) {s : ParseState} {rest : List Record}
    (hs : s.rest = lp.1 :: (ns.yield ++ rp.1 :: semi.1 :: rest)) (hrp : rp.1.kind = .parOp) :
    (ioRest s kw).Ends rest s.brackets.stack := by
  obtain ⟨t, h', hb, hrest, hst⟩ := bracket_open hs lp.2 (.inr rfl)
  have hnames := ioNames_ends kw ns hrest (by simp [Record.Is, hrp])
  unfold ioRest
  rw [hb]
  refine Ends.widen (Ends.andThen hnames fun u _ hu hub => ?_) _
  obtain ⟨v, hv, hbc, hvrest, hvst⟩ := bracket_close hu rp.2 (by decide) rfl (hub.trans hst)
  obtain ⟨w, hw, he, hwrest, hwb⟩ := expect_cons hvrest semi.2
  rw [hbc]
  dsimp only
  rw [he]
  exact ⟨rfl, hwrest, (congrArg Brackets.stack hwb).trans hvst⟩

/-- An assignment after its target. -/
theorem assignRest_ends (target : Record) (eq : Word "=" .assignOp) (rhs : Rhs)
    (semi : Word ";" .punct) {s : ParseState} {rest : List Record}
    (hs : s.rest = eq.1 :: (rhs.yield ++ semi.1 :: rest)) (htag : BracketsTagged rhs.yield)
    (hc : truthLed rhs.yield = false) : (assignRest s target).Ends rest s.brackets.stack := by
  have hsemi : semi.1.kind = .punct := Record.kind_of_is semi.2
  obtain ⟨t, h', ha, hrest, hb⟩ := advance_cons (s := s.emit (.ofRecord target)) hs
  have hexp := expression_ends rhs hrest htag hc (endsArith_cons rest (.inr (.inr hsemi)))
    (by simp [hsemi])
  unfold assignRest
  dsimp only
  split
  · rename_i hnil
    rw [show s.rest = [] from hnil] at hs
    cases hs
  · rename_i r tail hs'
    rw [show s.rest = r :: tail from hs'] at hs
    obtain ⟨rfl, -⟩ := List.cons.inj hs
    rw [if_pos eq.2, ha]
    refine Ends.widen (Ends.andThen hexp fun u _ hu hub => ?_) _
    obtain ⟨v, hv, he, hvrest, hvb⟩ := expect_cons hu semi.2
    rw [he]
    exact ⟨rfl, hvrest,
      (congrArg Brackets.stack hvb).trans (hub.trans (congrArg Brackets.stack hb))⟩

/-- An `if` statement after its keyword, when its body is read to its end. -/
theorem ifRest_ends (lp : Bracket '(') (cond : Cond) (rp : Bracket ')') (body : Block)
    {s : ParseState} {rest : List Record}
    (hs : s.rest = lp.1 :: (cond.yield ++ rp.1 :: (body.yield ++ rest)))
    (htag : BracketsTagged cond.yield) (hrp : rp.1.kind = .parOp) (hc : truthLed cond.yield = false)
    (hbody : ∀ v : ParseState, v.rest = body.yield ++ rest →
      (block v).Ends rest v.brackets.stack) :
    (ifRest s).Ends rest s.brackets.stack := by
  obtain ⟨t, h', hb, hrest, hst⟩ := bracket_open hs lp.2 (.inr rfl)
  have hcond := condition_ends cond hrest htag hc (endsArith_cons _ (.inr (.inl hrp)))
  unfold ifRest
  rw [hb]
  refine Ends.widen (Ends.andThen hcond fun u _ hu hub => ?_) _
  obtain ⟨v, hv, hbc, hvrest, hvst⟩ := bracket_close hu rp.2 (by decide) rfl (hub.trans hst)
  rw [hbc]
  refine Ends.widen (Ends.andThen (hbody v hvrest) fun w _ hw hwb => ?_) _
  exact ⟨rfl, hw, hwb.trans hvst⟩

/-- A `do` loop after its keyword, when its body is read to its end. -/
theorem doRest_ends (body : Block) (wkw : Word "while" .keyword) (lp : Bracket '(') (cond : Cond)
    (rp : Bracket ')') {s : ParseState} {rest : List Record}
    (hs : s.rest = body.yield ++ wkw.1 :: lp.1 :: (cond.yield ++ rp.1 :: rest))
    (htag : BracketsTagged cond.yield) (hrp : rp.1.kind = .parOp) (hc : truthLed cond.yield = false)
    (hbody : ∀ v : ParseState,
      v.rest = body.yield ++ wkw.1 :: lp.1 :: (cond.yield ++ rp.1 :: rest) →
      (block v).Ends (wkw.1 :: lp.1 :: (cond.yield ++ rp.1 :: rest)) v.brackets.stack) :
    (doRest s).Ends rest s.brackets.stack := by
  unfold doRest
  dsimp only
  refine Ends.widen (Ends.andThen (hbody (s.emit (.marker .loopStart)) hs) fun t _ ht htb => ?_) _
  obtain ⟨u, hu, he, hurest, hub⟩ := expect_cons ht wkw.2
  obtain ⟨v, hv, hb, hvrest, hvst⟩ := bracket_open hurest lp.2 (.inr rfl)
  have hcond := condition_ends cond hvrest htag hc (endsArith_cons _ (.inr (.inl hrp)))
  rw [he]
  dsimp only
  rw [hb]
  refine Ends.widen (Ends.andThen hcond fun w _ hw hwb => ?_) _
  have hopen : w.brackets.stack = '(' :: s.brackets.stack := by
    rw [hwb, hvst, hub, htb]
    rfl
  obtain ⟨x, hx, hbc, hxrest, hxst⟩ := bracket_close hw rp.2 (by decide) rfl hopen
  rw [hbc]
  exact ⟨rfl, hxrest, hxst⟩

/-- Statements stop at a closing brace. -/
theorem statements_stop {s : ParseState} {rb : Record} {rest : List Record}
    (h : s.rest = rb :: rest) (hrb : rb.Is "\x7d" .parOp = true) :
    (statements s).result = .ok () ∧ (statements s).state = s := by
  rw [statements]
  split
  · rename_i hnil
    rw [hnil] at h
    cases h
  · rename_i r tail hs
    rw [hs] at h
    obtain ⟨rfl, -⟩ := List.cons.inj h
    rw [if_pos hrb]
    exact ⟨rfl, rfl⟩

/-- A statement is chosen by its first record, which is consumed before the rest of the
statement is read; then the statements go on. -/
theorem statements_first {s : ParseState} {first : Record} {tail : List Record}
    (h : s.rest = first :: tail) (hnot : first.kind ≠ .parOp)
    (hstart : first.kind = .ident ∨ first.kind = .keyword ∧ (first.lexeme = "input" ∨
      first.lexeme = "print" ∨ first.lexeme = "if" ∨ first.lexeme = "do")) :
    ∃ t : ParseState, t.rest = tail ∧ t.brackets = s.brackets ∧
      (statements s).Same ((if first.kind = .ident then assignRest t first
        else if first.lexeme = "if" then ifRest t
        else if first.lexeme = "do" then doRest t
        else ioRest t first).andThen fun u _ => (statements u).widen (Nat.le_refl _)) := by
  obtain ⟨t, h', ha, hrest, hb⟩ := advance_cons h
  refine ⟨t, hrest, hb, ?_⟩
  have hclose : first.Is "\x7d" .parOp = false := by simp [Record.Is, hnot]
  have hdispatch : (first.kind = .ident || (first.kind = .keyword && (first.lexeme = "input" ||
      first.lexeme = "print" || first.lexeme = "if" || first.lexeme = "do"))) = true := by
    rcases hstart with hk | ⟨hk, hl⟩
    · simp [hk]
    · rcases hl with hl | hl | hl | hl <;> simp [hk, hl]
  rw [statements]
  split
  · rename_i hnil
    rw [hnil] at h
    cases h
  · rename_i r rs hs
    rw [hs] at h
    obtain ⟨rfl, rfl⟩ := List.cons.inj h
    rw [if_neg (by simp [hclose]), if_pos hdispatch, ha]
    exact same_widen _ _

/-- An assignment is read after its target. -/
theorem statements_assign {s : ParseState} {target : Record} {tail : List Record}
    (h : s.rest = target :: tail) (hk : target.kind = .ident) :
    ∃ t : ParseState, t.rest = tail ∧ t.brackets = s.brackets ∧
      (statements s).Same ((assignRest t target).andThen fun u _ =>
        (statements u).widen (Nat.le_refl _)) := by
  obtain ⟨t, ht, htb, hsame⟩ := statements_first h (by rw [hk]; decide) (.inl hk)
  rw [if_pos hk] at hsame
  exact ⟨t, ht, htb, hsame⟩

/-- An `input` or `print` statement is read after its keyword. -/
theorem statements_io {s : ParseState} (kw : IoWord) {tail : List Record}
    (h : s.rest = kw.1 :: tail) :
    ∃ t : ParseState, t.rest = tail ∧ t.brackets = s.brackets ∧
      (statements s).Same ((ioRest t kw.1).andThen fun u _ =>
        (statements u).widen (Nat.le_refl _)) := by
  have hl : kw.1.lexeme ≠ "if" ∧ kw.1.lexeme ≠ "do" := by
    rcases kw.2.2 with h | h <;> rw [h] <;> decide
  obtain ⟨t, ht, htb, hsame⟩ := statements_first h (by rw [kw.2.1]; decide)
    (.inr ⟨kw.2.1, by rcases kw.2.2 with h | h <;> simp [h]⟩)
  rw [if_neg (by rw [kw.2.1]; decide), if_neg hl.1, if_neg hl.2] at hsame
  exact ⟨t, ht, htb, hsame⟩

/-- An `if` statement is read after its keyword. -/
theorem statements_if {s : ParseState} (kw : Word "if" .keyword) {tail : List Record}
    (h : s.rest = kw.1 :: tail) :
    ∃ t : ParseState, t.rest = tail ∧ t.brackets = s.brackets ∧
      (statements s).Same ((ifRest t).andThen fun u _ =>
        (statements u).widen (Nat.le_refl _)) := by
  obtain ⟨hkw, hlex⟩ : kw.1.kind = .keyword ∧ kw.1.lexeme = "if" := by
    simpa [Record.Is] using kw.2
  obtain ⟨t, ht, htb, hsame⟩ := statements_first h (by rw [hkw]; decide)
    (.inr ⟨hkw, by simp [hlex]⟩)
  rw [if_neg (by rw [hkw]; decide), if_pos hlex] at hsame
  exact ⟨t, ht, htb, hsame⟩

/-- A `do` loop is read after its keyword. -/
theorem statements_do {s : ParseState} (kw : Word "do" .keyword) {tail : List Record}
    (h : s.rest = kw.1 :: tail) :
    ∃ t : ParseState, t.rest = tail ∧ t.brackets = s.brackets ∧
      (statements s).Same ((doRest t).andThen fun u _ =>
        (statements u).widen (Nat.le_refl _)) := by
  obtain ⟨hkw, hlex⟩ : kw.1.kind = .keyword ∧ kw.1.lexeme = "do" := by
    simpa [Record.Is] using kw.2
  obtain ⟨t, ht, htb, hsame⟩ := statements_first h (by rw [hkw]; decide)
    (.inr ⟨hkw, by simp [hlex]⟩)
  rw [if_neg (by rw [hkw]; decide), if_neg (by rw [hlex]; decide), if_pos hlex] at hsame
  exact ⟨t, ht, htb, hsame⟩

/-- A statement read to its end lets the statements go on after it, with the stack they found. -/
theorem statements_step {s t : ParseState} {r : Reply t} {rest : List Record}
    (hsame : (statements s).Same (r.andThen fun u _ => (statements u).widen (Nat.le_refl _)))
    (htb : t.brackets = s.brackets) (hr : r.Ends rest t.brackets.stack) :
    ∃ u : ParseState, u.rest = rest ∧ u.brackets.stack = s.brackets.stack ∧
      (statements s).Same (statements u) := by
  refine ⟨r.state, hr.2.1, hr.2.2.trans (congrArg Brackets.stack htb), ?_⟩
  exact hsame.trans ((andThen_same ⟨hr.1, rfl⟩).trans (same_widen _ _))

mutual

/-- A statement none of whose right sides and conditions is cut short is read, and the
statements go on after it. The recursion follows the statement, its blocks and their
statements. -/
theorem stmt_step : (st : Stmt) → ∀ (s : ParseState) (rest : List Record),
    s.rest = st.yield ++ rest → BracketsTagged st.yield → st.cutShort = false →
    ∃ u : ParseState, u.rest = rest ∧ u.brackets.stack = s.brackets.stack ∧
      (statements s).Same (statements u)
  | .assign target eq rhs semi => fun s rest hs htag hc => by
    simp only [Stmt.yield, List.cons_append, List.append_assoc] at hs
    have htag' : BracketsTagged rhs.yield := fun r hr => htag r (by simp [Stmt.yield, hr])
    have hc' : truthLed rhs.yield = false := by simpa [Stmt.cutShort] using hc
    obtain ⟨t, ht, htb, hsame⟩ := statements_assign hs target.2
    exact statements_step hsame htb (assignRest_ends target.1 eq rhs semi ht htag' hc')
  | .io kw lp names rp semi => fun s rest hs htag _ => by
    simp only [Stmt.yield, List.cons_append, List.append_assoc] at hs
    have hrp : rp.1.kind = .parOp :=
      rp.kind_eq (by simp) (htag rp.1 (by simp [Stmt.yield]))
    obtain ⟨t, ht, htb, hsame⟩ := statements_io kw hs
    exact statements_step hsame htb (ioRest_ends kw.1 lp names rp semi ht hrp)
  | .ifThen kw lp cond rp body => fun s rest hs htag hc => by
    simp only [Stmt.yield, List.cons_append, List.append_assoc] at hs
    have hrp : rp.1.kind = .parOp :=
      rp.kind_eq (by simp) (htag rp.1 (by simp [Stmt.yield]))
    have htagc : BracketsTagged cond.yield := fun r hr => htag r (by simp [Stmt.yield, hr])
    have htagb : BracketsTagged body.yield := fun r hr => htag r (by simp [Stmt.yield, hr])
    simp only [Stmt.cutShort, Bool.or_eq_false_iff] at hc
    obtain ⟨t, ht, htb, hsame⟩ := statements_if kw hs
    exact statements_step hsame htb (ifRest_ends lp cond rp body ht htagc hrp hc.1
      fun v hv => block_ends body v rest hv htagb hc.2)
  | .doWhile kw body wkw lp cond rp => fun s rest hs htag hc => by
    simp only [Stmt.yield, List.cons_append, List.append_assoc] at hs
    have hrp : rp.1.kind = .parOp :=
      rp.kind_eq (by simp) (htag rp.1 (by simp [Stmt.yield]))
    have htagc : BracketsTagged cond.yield := fun r hr => htag r (by simp [Stmt.yield, hr])
    have htagb : BracketsTagged body.yield := fun r hr => htag r (by simp [Stmt.yield, hr])
    simp only [Stmt.cutShort, Bool.or_eq_false_iff] at hc
    obtain ⟨t, ht, htb, hsame⟩ := statements_do kw hs
    exact statements_step hsame htb (doRest_ends body wkw lp cond rp ht htagc hrp hc.2
      fun v hv => block_ends body v _ hv htagb hc.1)

/-- A block none of whose right sides and conditions is cut short is read to its closing
brace. -/
theorem block_ends : (b : Block) → ∀ (s : ParseState) (rest : List Record),
    s.rest = b.yield ++ rest → BracketsTagged b.yield → b.cutShort = false →
    (block s).Ends rest s.brackets.stack
  | .mk lb stmts rb => fun s rest hs htag hc => by
    simp only [Block.yield, List.cons_append, List.append_assoc] at hs
    have hrb : rb.1.kind = .parOp := rb.kind_eq (by simp) (htag rb.1 (by simp [Block.yield]))
    have htags : BracketsTagged (Stmt.yieldAll stmts) :=
      fun r hr => htag r (by simp [Block.yield, hr])
    obtain ⟨t, h', hb, hrest, hst⟩ := bracket_open hs lb.2 (.inl rfl)
    obtain ⟨u, hu, hub, hsame⟩ := stmts_step stmts t (rb.1 :: rest) hrest htags hc
    have hok := hsame.ok_of (statements_stop hu (rb.is "\x7d" (by decide) hrb))
    obtain ⟨v, hv, hbc, hvrest, hvst⟩ := bracket_close hu rb.2 (by decide) rfl (hub.trans hst)
    unfold block
    rw [hb]
    refine Ends.widen ((andThen_same hok).ends ?_) _
    rw [hbc]
    exact ⟨rfl, hvrest, hvst⟩

/-- Statements none of whose right sides and conditions is cut short are read one after the
other. -/
theorem stmts_step : (ss : List Stmt) → ∀ (s : ParseState) (rest : List Record),
    s.rest = Stmt.yieldAll ss ++ rest → BracketsTagged (Stmt.yieldAll ss) →
    Stmt.cutShortAll ss = false →
    ∃ u : ParseState, u.rest = rest ∧ u.brackets.stack = s.brackets.stack ∧
      (statements s).Same (statements u)
  | [] => fun s rest hs _ _ => ⟨s, by simpa [Stmt.yieldAll] using hs, rfl, rfl, rfl⟩
  | st :: ss => fun s rest hs htag hc => by
    simp only [Stmt.yieldAll, List.append_assoc, bracketsTagged_append_iff] at hs htag
    simp only [Stmt.cutShortAll, Bool.or_eq_false_iff] at hc
    obtain ⟨u, hu, hub, hsame⟩ := stmt_step st s _ hs htag.1 hc.1
    obtain ⟨v, hv, hvb, hsame'⟩ := stmts_step ss u rest hu htag.2 hc.2
    exact ⟨v, hv, hvb.trans hub, hsame.trans hsame'⟩

end

/-! ### Statements cut short -/

/-- A record of a kind that joins two operands. -/
def Record.IsOperator (r : Record) : Prop :=
  r.kind = .addOp ∨ r.kind = .multOp ∨ r.kind = .powOp ∨ r.kind = .relOp

/-- An operator is neither a separator nor a bracket. -/
theorem Record.IsOperator.kind_ne {r : Record} (h : r.IsOperator) {k : TokenKind}
    (hk : k = .punct ∨ k = .parOp) : r.kind ≠ k := by
  rcases hk with rfl | rfl <;> rcases h with h | h | h | h <;> rw [h] <;> decide

/-- The record after the first of `ys ++ op :: rest` is the second record of `ys`, or `op` when
`ys` has one record. -/
theorem second_of_append {ys rest more : List Record} {b x op : Record} {P : Record → Prop}
    (hop : P op) (hne : ys ≠ []) (h : ys ++ op :: rest = b :: x :: more)
    (hys : ∀ {more : List Record}, ys = b :: x :: more → P x) : P x := by
  obtain ⟨y, ys', rfl⟩ := List.exists_cons_of_ne_nil hne
  cases ys' with
  | nil =>
    simp only [List.cons_append, List.nil_append, List.cons.injEq] at h
    rw [← h.2.1]
    exact hop
  | cons y' ys'' =>
    simp only [List.cons_append, List.cons.injEq] at h
    obtain ⟨rfl, rfl, -⟩ := h
    exact hys rfl

/-- In a derivation that begins with an operand, the record after the operand is an operator.
The induction is on the derivation, following its first operand. -/
theorem Arith.second_op {l : Level} (e : Arith l) {b x : Record} {more : List Record}
    (h : e.yield = b :: x :: more) (hb : b.kind.isOperand = true)
    (htag : BracketsTagged e.yield) : x.IsOperator := by
  induction e generalizing more with
  | signed sign first ih =>
    cases sign with
    | none => exact ih h htag
    | some sign =>
      simp only [yield, List.cons.injEq] at h
      rw [← h.1, sign.2] at hb
      exact absurd hb (by decide)
  | add left op right ihl =>
    exact second_of_append (.inl op.2) left.yield_ne_nil h
      fun hy => ihl hy (bracketsTagged_append_iff.mp htag).1
  | term first ih => exact ih h htag
  | mul left op right ihl =>
    exact second_of_append (.inr (.inl op.2)) left.yield_ne_nil h
      fun hy => ihl hy (bracketsTagged_append_iff.mp htag).1
  | chunk first ih => exact ih h htag
  | pow left op right ihl =>
    exact second_of_append (.inr (.inr (.inl op.2))) left.yield_ne_nil h
      fun hy => ihl hy (bracketsTagged_append_iff.mp htag).1
  | operand r =>
    simp only [yield, List.cons.injEq] at h
    exact absurd h.2 (by simp)
  | paren lp inner rp =>
    have hlp : lp.1.kind = .parOp := lp.kind_eq (by simp) (htag lp.1 (by simp [yield]))
    simp only [yield, List.cons_append, List.cons.injEq] at h
    rw [← h.1, hlp] at hb
    exact absurd hb (by decide)

/-- A condition cut short after a truth literal is that literal, an operator and more. -/
theorem Cond.truthLed_split (c : Cond) (htag : BracketsTagged c.yield)
    (h : truthLed c.yield = true) :
    ∃ b x more, c.yield = b :: x :: more ∧ b.kind = .boolval ∧ x.IsOperator := by
  cases c with
  | lit r => simp [Cond.yield, truthLed] at h
  | compare cmp =>
    obtain ⟨b, ys, hb⟩ := List.exists_cons_of_ne_nil cmp.left.yield_ne_nil
    have hyield : (Cond.compare cmp).yield = b :: (ys ++ cmp.op.1 :: cmp.right.yield) := by
      simp [Cond.yield, Comparison.yield, hb]
    have hbk : b.kind = .boolval := by simpa [hyield, truthLed_cons] using h
    cases ys with
    | nil => exact ⟨b, cmp.op.1, cmp.right.yield, hyield, hbk, .inr (.inr (.inr cmp.op.2))⟩
    | cons x more =>
      have htagl : BracketsTagged cmp.left.yield :=
        fun r hr => htag r (by simp [Cond.yield, Comparison.yield, hr])
      exact ⟨b, x, more ++ cmp.op.1 :: cmp.right.yield, hyield, hbk,
        cmp.left.second_op hb (by rw [hbk]; rfl) htagl⟩
  | paren lp cmp rp =>
    have hlp : lp.1.kind = .parOp := lp.kind_eq (by simp) (htag lp.1 (by simp [Cond.yield]))
    simp [Cond.yield, truthLed_cons, hlp] at h

/-- A right side cut short after a truth literal is that literal, an operator and more. -/
theorem Rhs.truthLed_split (rhs : Rhs) (htag : BracketsTagged rhs.yield)
    (h : truthLed rhs.yield = true) :
    ∃ b x more, rhs.yield = b :: x :: more ∧ b.kind = .boolval ∧ x.IsOperator := by
  cases rhs with
  | cond c => exact c.truthLed_split htag h
  | arith e =>
    obtain ⟨b, ys, hb⟩ := List.exists_cons_of_ne_nil e.yield_ne_nil
    simp only [Rhs.yield] at h htag
    cases ys with
    | nil => simp [hb, truthLed] at h
    | cons x more =>
      have hbk : b.kind = .boolval := by simpa [hb, truthLed] using h
      exact ⟨b, x, more, hb, hbk, e.second_op hb (by rw [hbk]; rfl) htag⟩

/-- Expecting a word that the first record is not fails. -/
theorem expect_mismatch {s : ParseState} {r : Record} {rest : List Record} {lexeme : String}
    {kind : TokenKind} (h : s.rest = r :: rest) (hr : r.Is lexeme kind = false) :
    ∃ e, s.expect lexeme kind = .error e := by
  unfold expect
  split
  · exact ⟨_, rfl⟩
  · rename_i r' tail hs
    rw [hs] at h
    obtain ⟨rfl, rfl⟩ := List.cons.inj h
    rw [if_neg (by simp [hr])]
    exact ⟨_, rfl⟩

/-- A record that does not spell the bracket is refused by the bracket step. -/
theorem bracket_mismatch {s : ParseState} {r : Record} {rest : List Record} {c : Char}
    (h : s.rest = r :: rest) (hr : r.lexeme.toList ≠ [c]) : ∃ e, s.bracket c = .error e := by
  have hctl : ∃ e, (s.brackets.control r.lexeme c).1 = some e := by
    unfold Brackets.control
    split
    · rename_i c' hl
      rw [if_pos fun h' => hr (by rw [hl, h'])]
      exact ⟨_, rfl⟩
    · exact ⟨_, rfl⟩
  obtain ⟨e, he⟩ := hctl
  unfold bracket
  split
  · rename_i hs
    rw [hs] at h
    cases h
  · rename_i r' tail hs
    rw [hs] at h
    obtain ⟨rfl, rfl⟩ := List.cons.inj h
    split
    · exact ⟨_, rfl⟩
    · rename_i b hctl'
      rw [hctl'] at he
      cases he

/-- An operator among tagged records is no closing parenthesis. -/
theorem Record.IsOperator.not_paren {x : Record} (hx : x.IsOperator)
    (htag : x.IsBracket → x.kind = .parOp) : x.lexeme.toList ≠ [')'] :=
  fun hl => hx.kind_ne (.inr rfl) (htag ⟨')', by simp, hl⟩)

/-- An assignment whose right side is cut short after a truth literal fails at the operator
after it, where it expects `;`. -/
theorem assignRest_fails (target : Record) (eq : Word "=" .assignOp) (rhs : Rhs)
    (semi : Word ";" .punct) {s : ParseState} {rest : List Record}
    (hs : s.rest = eq.1 :: (rhs.yield ++ semi.1 :: rest)) (htag : BracketsTagged rhs.yield)
    (hc : truthLed rhs.yield = true) : (assignRest s target).Fails := by
  obtain ⟨b, x, more, hy, hb, hx⟩ := rhs.truthLed_split htag hc
  obtain ⟨t, h', ha, hrest, hbr⟩ := advance_cons (s := s.emit (.ofRecord target)) hs
  rw [hy, List.cons_append, List.cons_append] at hrest
  have hexp := expression_of_condition (condition_truth (s := t.enter) hrest hb)
  unfold assignRest
  dsimp only
  split
  · rename_i hnil
    rw [show s.rest = [] from hnil] at hs
    cases hs
  · rename_i r tail hs'
    rw [show s.rest = r :: tail from hs'] at hs
    obtain ⟨rfl, -⟩ := List.cons.inj hs
    rw [if_pos eq.2, ha]
    refine Fails.widen (Ends.andThen_fails hexp fun u _ hu _ => ?_) _
    have hk : x.kind ≠ .punct := hx.kind_ne (.inl rfl)
    obtain ⟨e, he⟩ := expect_mismatch hu (show x.Is ";" .punct = false by simp [Record.Is, hk])
    rw [he]
    exact fails_fail _

/-- An `if` whose condition is cut short after a truth literal fails at the operator after it,
where it expects `)`. -/
theorem ifRest_fails_cond (lp : Bracket '(') (cond : Cond) {s : ParseState} {rest : List Record}
    (hs : s.rest = lp.1 :: (cond.yield ++ rest)) (htag : BracketsTagged cond.yield)
    (hc : truthLed cond.yield = true) : (ifRest s).Fails := by
  obtain ⟨b, x, more, hy, hb, hx⟩ := cond.truthLed_split htag hc
  have hxtag : x.IsBracket → x.kind = .parOp := htag x (by simp [hy])
  obtain ⟨t, h', hbo, hrest, -⟩ := bracket_open hs lp.2 (.inr rfl)
  rw [hy, List.cons_append, List.cons_append] at hrest
  unfold ifRest
  rw [hbo]
  refine Fails.widen (Ends.andThen_fails (condition_truth hrest hb) fun u _ hu _ => ?_) _
  obtain ⟨e, he⟩ := bracket_mismatch hu (hx.not_paren hxtag)
  rw [he]
  exact fails_fail _

/-- An `if` whose body fails fails. -/
theorem ifRest_fails_body (lp : Bracket '(') (cond : Cond) (rp : Bracket ')') (body : Block)
    {s : ParseState} {rest : List Record}
    (hs : s.rest = lp.1 :: (cond.yield ++ rp.1 :: (body.yield ++ rest)))
    (htag : BracketsTagged cond.yield) (hrp : rp.1.kind = .parOp) (hc : truthLed cond.yield = false)
    (hbody : ∀ v : ParseState, v.rest = body.yield ++ rest → (block v).Fails) :
    (ifRest s).Fails := by
  obtain ⟨t, h', hb, hrest, hst⟩ := bracket_open hs lp.2 (.inr rfl)
  have hcond := condition_ends cond hrest htag hc (endsArith_cons _ (.inr (.inl hrp)))
  unfold ifRest
  rw [hb]
  refine Fails.widen (Ends.andThen_fails hcond fun u _ hu hub => ?_) _
  obtain ⟨v, hv, hbc, hvrest, hvst⟩ := bracket_close hu rp.2 (by decide) rfl (hub.trans hst)
  rw [hbc]
  exact Fails.widen (Fails.andThen (hbody v hvrest)) _

/-- A `do` loop whose body fails fails. -/
theorem doRest_fails_body {s : ParseState} (hbody : (block (s.emit (.marker .loopStart))).Fails) :
    (doRest s).Fails := by
  unfold doRest
  exact Fails.widen (Fails.andThen hbody) _

/-- A `do` loop whose condition is cut short after a truth literal fails at the operator after
it, where it expects `)`. -/
theorem doRest_fails_cond (wkw : Word "while" .keyword) (lp : Bracket '(')
    (cond : Cond) {s : ParseState} {rest : List Record}
    (htag : BracketsTagged cond.yield) (hc : truthLed cond.yield = true)
    (hbody : (block (s.emit (.marker .loopStart))).Ends (wkw.1 :: lp.1 :: (cond.yield ++ rest))
      s.brackets.stack) :
    (doRest s).Fails := by
  obtain ⟨b, x, more, hy, hb, hx⟩ := cond.truthLed_split htag hc
  have hxtag : x.IsBracket → x.kind = .parOp := htag x (by simp [hy])
  unfold doRest
  dsimp only
  refine Fails.widen (Ends.andThen_fails hbody fun t _ ht _ => ?_) _
  obtain ⟨u, hu, he, hurest, -⟩ := expect_cons ht wkw.2
  obtain ⟨v, hv, hbo, hvrest, -⟩ := bracket_open hurest lp.2 (.inr rfl)
  rw [hy, List.cons_append, List.cons_append] at hvrest
  rw [he]
  dsimp only
  rw [hbo]
  refine Fails.widen (Ends.andThen_fails (condition_truth hvrest hb) fun w _ hw _ => ?_) _
  obtain ⟨e, hbe⟩ := bracket_mismatch hw (hx.not_paren hxtag)
  rw [hbe]
  exact fails_fail _

mutual

/-- A statement with a right side or condition cut short after a truth literal stops the
statements with an error. The recursion follows the statement and its blocks. -/
theorem stmt_fails : (st : Stmt) → ∀ (s : ParseState) (rest : List Record),
    s.rest = st.yield ++ rest → BracketsTagged st.yield → st.cutShort = true →
    (statements s).Fails
  | .assign target eq rhs semi => fun s rest hs htag hc => by
    simp only [Stmt.yield, List.cons_append, List.append_assoc] at hs
    have htag' : BracketsTagged rhs.yield := fun r hr => htag r (by simp [Stmt.yield, hr])
    have hc' : truthLed rhs.yield = true := by simpa [Stmt.cutShort] using hc
    obtain ⟨t, ht, -, hsame⟩ := statements_assign hs target.2
    exact hsame.fails (assignRest_fails target.1 eq rhs semi ht htag' hc').andThen
  | .io .. => fun _ _ _ _ hc => by simp [Stmt.cutShort] at hc
  | .ifThen kw lp cond rp body => fun s rest hs htag hc => by
    simp only [Stmt.yield, List.cons_append, List.append_assoc] at hs
    have hrp : rp.1.kind = .parOp :=
      rp.kind_eq (by simp) (htag rp.1 (by simp [Stmt.yield]))
    have htagc : BracketsTagged cond.yield := fun r hr => htag r (by simp [Stmt.yield, hr])
    have htagb : BracketsTagged body.yield := fun r hr => htag r (by simp [Stmt.yield, hr])
    obtain ⟨t, ht, -, hsame⟩ := statements_if kw hs
    refine hsame.fails (Fails.andThen ?_)
    by_cases hcond : truthLed cond.yield = true
    · exact ifRest_fails_cond lp cond ht htagc hcond
    · have hbody : body.cutShort = true := by simpa [Stmt.cutShort, hcond] using hc
      exact ifRest_fails_body lp cond rp body ht htagc hrp (by simpa using hcond)
        fun v hv => block_fails body v rest hv htagb hbody
  | .doWhile kw body wkw lp cond rp => fun s rest hs htag hc => by
    simp only [Stmt.yield, List.cons_append, List.append_assoc] at hs
    have htagc : BracketsTagged cond.yield := fun r hr => htag r (by simp [Stmt.yield, hr])
    have htagb : BracketsTagged body.yield := fun r hr => htag r (by simp [Stmt.yield, hr])
    obtain ⟨t, ht, -, hsame⟩ := statements_do kw hs
    refine hsame.fails (Fails.andThen ?_)
    by_cases hbody : body.cutShort = true
    · exact doRest_fails_body (block_fails body _ _ ht htagb hbody)
    · have hcond : truthLed cond.yield = true := by simpa [Stmt.cutShort, hbody] using hc
      exact doRest_fails_cond wkw lp cond htagc hcond
        (block_ends body _ _ ht htagb (by simpa using hbody))

/-- A block with a right side or condition cut short after a truth literal fails. -/
theorem block_fails : (b : Block) → ∀ (s : ParseState) (rest : List Record),
    s.rest = b.yield ++ rest → BracketsTagged b.yield → b.cutShort = true → (block s).Fails
  | .mk lb stmts rb => fun s rest hs htag hc => by
    simp only [Block.yield, List.cons_append, List.append_assoc] at hs
    have htags : BracketsTagged (Stmt.yieldAll stmts) :=
      fun r hr => htag r (by simp [Block.yield, hr])
    obtain ⟨t, h', hb, hrest, -⟩ := bracket_open hs lb.2 (.inl rfl)
    unfold block
    rw [hb]
    exact Fails.widen (Fails.andThen (stmts_fails stmts t _ hrest htags hc)) _

/-- Statements one of which has a right side or condition cut short after a truth literal fail
there, after the statements before it are read. -/
theorem stmts_fails : (ss : List Stmt) → ∀ (s : ParseState) (rest : List Record),
    s.rest = Stmt.yieldAll ss ++ rest → BracketsTagged (Stmt.yieldAll ss) →
    Stmt.cutShortAll ss = true → (statements s).Fails
  | [] => fun _ _ _ _ hc => by simp [Stmt.cutShortAll] at hc
  | st :: ss => fun s rest hs htag hc => by
    simp only [Stmt.yieldAll, List.append_assoc, bracketsTagged_append_iff] at hs htag
    by_cases hst : st.cutShort = true
    · exact stmt_fails st s _ hs htag.1 hst
    · obtain ⟨u, hu, -, hsame⟩ := stmt_step st s _ hs htag.1 (by simpa using hst)
      have hrest : Stmt.cutShortAll ss = true := by simpa [Stmt.cutShortAll, hst] using hc
      exact hsame.fails (stmts_fails ss u rest hu htag.2 hrest)

end

/-! ### Programs -/

/-- Consuming a bracket keeps the tables. -/
theorem bracket_tables {s : ParseState} {c : Char} {r : Record} {t : Shorter s}
    (e : s.bracket c = .ok (r, t)) : t.1.tables = s.tables := by
  unfold bracket at e
  split at e
  · split at e <;> cases e
  · split at e
    · cases e
    · split at e
      · cases e
      · rename_i r' t' ht' he
        cases e
        exact (advance_ok he).2.2

/-- A parse runs the program production from a state that holds the records and the tables, with
no bracket open, and succeeds exactly when that production does. -/
theorem parse_result (records : List Record) (tables : Tables) :
    ∃ s : ParseState, s.rest = records ∧ s.tables = tables ∧ s.brackets.stack = [] ∧
      (parse records tables).1.toList = (program s).state.traced.reverse ∧
      ((program s).result = .ok () ↔ ∃ tr, (parse records tables).2 = .ok tr) := by
  -- the state is the one `parse` builds, read off its traced records
  refine ⟨_, ?_, ?_, ?_, rfl, fun h => ?_, fun htr => ?_⟩
  · rfl
  · rfl
  · rfl
  · simp only [parse, Except.map]
    rw [h]
    exact ⟨_, rfl⟩
  · obtain ⟨tr, h⟩ := htr
    simp only [parse, Except.map] at h
    split at h
    · cases h
    · rename_i u hres
      cases u
      exact hres

/-- The program production reads the header and the declarations of a derivable program and
then runs its block: the program fails when the block does, and when the block ends before the
last brace, the program is read to its end with every bracket closed. -/
theorem program_block (p : Program) {s : ParseState} (hs : s.rest = p.yield)
    (hstack : s.brackets.stack = []) (htag : BracketsTagged p.yield) (hdecl : p.DeclaredOnce)
    (hfresh : ∀ x ∈ p.declared, ¬s.tables.Typed x.lexeme) :
    ((∀ u : ParseState, u.rest = p.body.yield ++ [p.rb.1] → (block u).Fails) →
        (program s).Fails) ∧
      ((∀ u : ParseState, u.rest = p.body.yield ++ [p.rb.1] →
        (block u).Ends [p.rb.1] u.brackets.stack) → (program s).Ends [] []) := by
  have hnodup : (Decl.lexemes p.decls).Nodup := by
    rw [← Program.declared_lexemes]
    exact hdecl
  have hfresh' : ∀ x ∈ Decl.lexemes p.decls, ¬s.tables.Typed x := by
    rw [← Program.declared_lexemes]
    intro x hx
    obtain ⟨r, hr, rfl⟩ := List.mem_map.mp hx
    exact hfresh r hr
  simp only [Program.yield, List.append_assoc] at hs
  have htagb : BracketsTagged p.body.yield := fun r hr => htag r (by simp [Program.yield, hr])
  -- the block after the declarations begins with its brace, which declares no type
  have hstop : ∀ r ∈ (p.body.yield ++ [p.rb.1]).head?, r.kind ≠ .keyword := by
    rcases hbody : p.body with ⟨lb, stmts, rb⟩
    rw [hbody] at htagb
    have hlb : lb.1.kind = .parOp := lb.kind_eq (by simp) (htagb lb.1 (by simp [Block.yield]))
    simp [Block.yield, hlb]
  obtain ⟨s1, h1, he1, hrest1, hb1⟩ := expect_cons hs p.kw.2
  obtain ⟨s2, h2, he2, hrest2, hb2⟩ := expectKind_cons hrest1 p.name.2
  obtain ⟨s3, h3, hb3, hrest3, hst3⟩ := bracket_open hrest2 p.lb.2 (.inl rfl)
  have htab : s3.tables = s.tables := by
    rw [bracket_tables hb3, (advance_ok (expectKind_ok he2).2).2.2,
      (advance_ok (expect_ok he1).2).2.2]
  have hdecls := declarations_ends p.decls (s := s3) hrest3 hstop (htab ▸ hfresh') hnodup
  unfold program
  rw [he1]
  dsimp only
  rw [he2]
  dsimp only
  rw [hb3]
  dsimp only
  refine ⟨fun hfails => ?_, fun hends => ?_⟩
  · exact Fails.widen (Ends.andThen_fails hdecls fun s4 _ h4 _ => (hfails s4 h4).andThen) _
  refine Ends.widen (Ends.andThen hdecls fun s4 _ h4 hst4 => ?_) _
  refine Ends.andThen (hends s4 h4) fun s5 _ h5 hst5 => ?_
  have hrb : p.rb.1.kind = .parOp :=
    p.rb.kind_eq (by simp) (htag p.rb.1 (by simp [Program.yield]))
  have hopen : s5.brackets.stack = ['\x7b'] := by
    rw [hst5, hst4, hst3, hb2, hb1, hstack]
  obtain ⟨s6, h6, hb6, hrest6, hst6⟩ := bracket_close h5 p.rb.2 (by decide) rfl hopen
  rw [hb6]
  dsimp only
  have hclosed : s6.brackets.unclosed? = none := by
    simp [Brackets.unclosed?, hst6]
  rw [hclosed]
  dsimp only
  rw [if_pos (by simp [hrest6])]
  exact ⟨rfl, hrest6, hst6⟩

/-- A derivable program whose declarations name no identifier twice and none that has a type,
and whose brackets are of the bracket kind, is accepted exactly when none of its right sides and
conditions begins with a truth literal and goes on. The ordered choice of a condition commits to
a lone truth literal, so a comparison or an arithmetic expression that begins with one is cut
short, and the statement then fails at the operator after the literal. -/
theorem parse_derivable_accepted_iff (p : Program) (tables : Tables) (hdecl : p.DeclaredOnce)
    (htag : BracketsTagged p.yield) (hfresh : ∀ x ∈ p.declared, ¬tables.Typed x.lexeme) :
    (∃ tr, (parse p.yield tables).2 = .ok tr) ↔ p.body.cutShort = false := by
  obtain ⟨s, hrest, htables, hstack, -, hparse⟩ := parse_result p.yield tables
  obtain ⟨hfails, hends⟩ := program_block p hrest hstack htag hdecl (htables ▸ hfresh)
  have htagb : BracketsTagged p.body.yield := fun r hr => htag r (by simp [Program.yield, hr])
  rw [← hparse]
  cases hcut : p.body.cutShort with
  | false =>
    -- every statement is read, and the block ends at the program's last brace
    simp only [iff_true]
    exact (hends fun u hu => block_ends p.body u _ hu htagb hcut).1
  | true =>
    -- the first statement cut short stops the block with an error
    obtain ⟨e, he⟩ := hfails fun u hu => block_fails p.body u _ hu htagb hcut
    simp [he]

/-- The source `program p { boolean ok; { ok = true == ok; } }`. -/
def truthComparisonLines : List String :=
  ["program p \x7b boolean ok; \x7b ok = true == ok; \x7d \x7d"]

/-- Its derivation: the right side `true == ok` is a comparison whose left side is the truth
literal `true`. -/
def truthComparisonProgram : Program where
  kw := ⟨⟨1, "program", .keyword, none⟩, by decide⟩
  name := ⟨⟨1, "p", .ident, some 1⟩, rfl⟩
  lb := ⟨⟨1, "\x7b", .parOp, none⟩, by decide⟩
  decls := [⟨⟨⟨1, "boolean", .keyword, none⟩, by decide⟩,
    ⟨⟨⟨1, "ok", .ident, some 2⟩, rfl⟩, []⟩,
    ⟨⟨1, ";", .punct, none⟩, by decide⟩⟩]
  body := .mk ⟨⟨1, "\x7b", .parOp, none⟩, by decide⟩
    [.assign ⟨⟨1, "ok", .ident, some 2⟩, rfl⟩ ⟨⟨1, "=", .assignOp, none⟩, by decide⟩
      (.cond (.compare
        ⟨.signed none (.term (.chunk (.operand ⟨⟨1, "true", .boolval, some 1⟩, rfl⟩))),
        ⟨⟨1, "==", .relOp, none⟩, rfl⟩,
        .signed none (.term (.chunk (.operand ⟨⟨1, "ok", .ident, some 2⟩, rfl⟩)))⟩))
      ⟨⟨1, ";", .punct, none⟩, by decide⟩]
    ⟨⟨1, "\x7d", .parOp, none⟩, by decide⟩
  rb := ⟨⟨1, "\x7d", .parOp, none⟩, by decide⟩

/-- A derivable program that is rejected: the records the lexer makes of
`program p { boolean ok; { ok = true == ok; } }` are the yield of a derivation that declares
`ok` once, but the condition commits to the literal `true` and the assignment then finds `==`
where it expects `;`. -/
theorem truth_literal_cuts_comparison_short :
    (lex truthComparisonLines).map (·.records.toList) = .ok truthComparisonProgram.yield ∧
      truthComparisonProgram.DeclaredOnce ∧ truthComparisonProgram.body.cutShort = true ∧
      (translate truthComparisonLines).2 =
        .error (.parse ⟨1, .unexpectedElements "==" .relOp ";" .punct⟩) := by
  refine ⟨?_, by unfold Program.DeclaredOnce; decide, rfl, ?_⟩
  · with_unfolding_all rfl
  · with_unfolding_all rfl


/-- The derivation of `program p { boolean ok; { ok = true == ok; } }` declares `ok` once and
tags its brackets, and on empty tables its records are rejected, its right side being cut short. -/
theorem truth_comparison_program_rejected :
    truthComparisonProgram.DeclaredOnce ∧ BracketsTagged truthComparisonProgram.yield ∧
      ¬∃ tr, (parse truthComparisonProgram.yield {}).2 = .ok tr := by
  have hdecl : truthComparisonProgram.DeclaredOnce := by
    unfold Program.DeclaredOnce
    decide
  have htag : BracketsTagged truthComparisonProgram.yield := by
    simp [BracketsTagged, Record.IsBracket, truthComparisonProgram, Program.yield, Decl.yield,
      Names.yield, Block.yield, Stmt.yieldAll, Stmt.yield, Rhs.yield, Cond.yield,
      Comparison.yield, Arith.yield]
  -- empty tables type no identifier
  have hfresh : ∀ x ∈ truthComparisonProgram.declared, ¬({} : Tables).Typed x.lexeme :=
    fun x _ htyped => by
      obtain ⟨e, he, -⟩ := htyped
      simp [Tables.ident?] at he
  refine ⟨hdecl, htag, fun h => ?_⟩
  have hcut := (parse_derivable_accepted_iff truthComparisonProgram {} hdecl htag hfresh).mp h
  have hshort : truthComparisonProgram.body.cutShort = true := rfl
  rw [hshort] at hcut
  cases hcut

end RpnLang
