import RpnLang.Proofs.Lexical

/-!
# Paths of the lexing automaton

What each state of the automaton knows about the pending lexeme. From the start state, a path of
transitions that keep the character reads a prefix of a token, and the state it reaches fixes
the shape of that prefix (`Pending`): an identifier so far, digits, digits and a point, and so
on. A transition that retracts leaves a complete token behind it, and one that finishes
completes a token with its character. Conversely every token is read along such a path
(`TokenPath`). Since the automaton is deterministic, these two facts are what makes the lexer
take the longest token.

Every fact about single transitions is derived from one table per state, stated on characters
(`next_zero` to `next_seventeen`).
-/

namespace RpnLang

open Lexical

/-- A digit is no lowercase letter. -/
theorem not_isLower_of_isDigit {c : Char} (h : c.isDigit = true) : c.isLower = false := by
  cases hl : c.isLower
  · rfl
  · exact absurd h (by rw [not_isDigit_of_isLower hl]; decide)

namespace SymbolClass

/-- The class of a character, with what it says about the character. -/
theorem ofChar_cases (c : Char) :
    (ofChar c = .letter ∧ c.isLower = true) ∨
    (ofChar c = .digit ∧ c.isDigit = true) ∨
    (ofChar c = .blank ∧ (c = ' ' ∨ c = '\t')) ∨
    (ofChar c = .newline ∧ c = '\n') ∨
    (ofChar c = .single c ∧ c ∈ singles ∧ c.isLower = false ∧ c.isDigit = false) ∨
    (ofChar c = .unknown ∧ c.isLower = false ∧ c.isDigit = false ∧ c ∉ singles ∧
      c ≠ ' ' ∧ c ≠ '\t' ∧ c ≠ '\n') := by
  have hl : ('a' ≤ c ∧ c ≤ 'z') ↔ c.isLower = true := by
    show _ ↔ (decide (c.val ≥ 'a'.val) && decide (c.val ≤ 'z'.val)) = true
    simp [Char.le_def]
  have hd : ('0' ≤ c ∧ c ≤ '9') ↔ c.isDigit = true := by simp [Char.isDigit, Char.le_def]
  unfold ofChar
  by_cases h1 : 'a' ≤ c ∧ c ≤ 'z'
  · exact .inl ⟨if_pos h1, hl.mp h1⟩
  rw [if_neg h1]
  have hl' : c.isLower = false := by simpa [hl] using h1
  by_cases h2 : '0' ≤ c ∧ c ≤ '9'
  · exact .inr (.inl ⟨if_pos h2, hd.mp h2⟩)
  rw [if_neg h2]
  have hd' : c.isDigit = false := by simpa [hd] using h2
  by_cases h3 : c = ' ' ∨ c = '\t'
  · exact .inr (.inr (.inl ⟨if_pos h3, h3⟩))
  rw [if_neg h3]
  by_cases h4 : c = '\n'
  · exact .inr (.inr (.inr (.inl ⟨if_pos h4, h4⟩)))
  rw [if_neg h4]
  by_cases h5 : c ∈ singles
  · exact .inr (.inr (.inr (.inr (.inl ⟨if_pos h5, h5, hl', hd'⟩))))
  rw [if_neg h5]
  exact .inr (.inr (.inr (.inr (.inr ⟨rfl, hl', hd', h5, fun h => h3 (.inl h),
    fun h => h3 (.inr h), h4⟩))))

end SymbolClass

namespace Automaton

open SymbolClass

/-! ### One table per state -/

/-- The start state: a letter or a digit starts a word or a numeral, blanks are skipped, a line
feed counts a line, a one-character operator is finished at once, `=`, `<`, `>` and `!` wait
for a possible `=`, and anything else is refused. -/
theorem next_zero (c : Char) :
    next? 0 (ofChar c) =
      if c.isLower then some 1 else if c.isDigit then some 10
      else if c = ' ' ∨ c = '\t' then some 0 else if c = '\n' then some 5
      else if c ∈ ['+', '-', '*', '/', '^', '(', ')', '{', '}', ';', ',', ':'] then some 4
      else if c ∈ ['=', '<', '>'] then some 6 else if c = '!' then some 9 else some 101 := by
  rcases ofChar_cases c with ⟨h, hc⟩ | ⟨h, hc⟩ | ⟨h, hc⟩ | ⟨h, hc⟩ | ⟨h, hc, hl, hd⟩ |
    ⟨h, hl, hd, hs, hsp, htab, hnl⟩ <;> rw [h]
  · rw [if_pos hc]
    rfl
  · rw [if_neg (by simp [not_isLower_of_isDigit hc]), if_pos hc]
    rfl
  · rcases hc with rfl | rfl <;> rfl
  · subst hc
    rfl
  · -- the nineteen characters of their own class, one by one
    simp only [singles, List.mem_cons, List.not_mem_nil, or_false] at hc
    rcases hc with rfl | rfl | rfl | rfl | rfl | rfl | rfl | rfl | rfl | rfl | rfl | rfl | rfl |
      rfl | rfl | rfl | rfl | rfl | rfl <;> decide
  · -- a character outside the classes is no operator
    have hops : c ∉ ['+', '-', '*', '/', '^', '(', ')', '{', '}', ';', ',', ':'] :=
      fun hm => hs ((by decide : ['+', '-', '*', '/', '^', '(', ')', '{', '}', ';', ',', ':'] ⊆
        singles) hm)
    have hrel : c ∉ ['=', '<', '>'] :=
      fun hm => hs ((by decide : ['=', '<', '>'] ⊆ singles) hm)
    have hbang : c ≠ '!' := by
      rintro rfl
      exact hs (by decide)
    simp only [List.mem_cons, List.not_mem_nil, or_false] at hops hrel
    rw [show next? 0 .unknown = some 101 from rfl]
    simp [hl, hd, hsp, htab, hnl, hops, hrel, hbang]

/-! The other states have exact transitions only on letters, digits and a few single
characters; on everything else they take their fallback. -/

/-- Every state moves on a lowercase letter as on the letter class. -/
theorem next_letter {q : Nat} {c : Char} (h : c.isLower = true) :
    next? q (ofChar c) = next? q .letter := by
  rcases ofChar_cases c with ⟨hc, -⟩ | ⟨-, hd⟩ | ⟨-, hb⟩ | ⟨-, hn⟩ | ⟨-, -, hl, -⟩ | ⟨-, hl, -⟩
  · rw [hc]
  · rw [not_isDigit_of_isLower h] at hd
    cases hd
  · rcases hb with rfl | rfl <;> cases h
  · subst hn
    cases h
  all_goals rw [h] at hl; cases hl

/-- Every state moves on a digit as on the digit class. -/
theorem next_digit {q : Nat} {c : Char} (h : c.isDigit = true) :
    next? q (ofChar c) = next? q .digit := by
  rcases ofChar_cases c with ⟨-, hl⟩ | ⟨hc, -⟩ | ⟨-, hb⟩ | ⟨-, hn⟩ | ⟨-, -, -, hd⟩ | ⟨-, -, hd, -⟩
  · rw [not_isLower_of_isDigit h] at hl
    cases hl
  · rw [hc]
  · rcases hb with rfl | rfl <;> cases h
  · subst hn
    cases h
  all_goals rw [h] at hd; cases hd

/-- A character that is no letter, digit or single character of its own leads any state but the
start state to its fallback. -/
theorem next_other {q : Nat} {c : Char} (hq : q ∈ [1, 6, 9, 10, 11, 13, 14, 15, 17])
    (hl : c.isLower = false) (hd : c.isDigit = false) (hs : ofChar c ≠ .single c) :
    next? q (ofChar c) = fallback q := by
  have hnone : ∀ q ∈ [1, 6, 9, 10, 11, 13, 14, 15, 17],
      exact q .blank = none ∧ exact q .newline = none ∧ exact q .unknown = none := by
    decide
  obtain ⟨hblank, hnewline, hunknown⟩ := hnone q hq
  rcases ofChar_cases c with ⟨-, h⟩ | ⟨-, h⟩ | ⟨h, -⟩ | ⟨h, -⟩ | ⟨h, -⟩ | ⟨h, -⟩
  · rw [hl] at h
    cases h
  · rw [hd] at h
    cases h
  · rw [h, next?, hblank, Option.none_or]
  · rw [h, next?, hnewline, Option.none_or]
  · exact absurd h hs
  · rw [h, next?, hunknown, Option.none_or]

/-- A single character of its own class that has no exact transition out of a state leads it to
its fallback. -/
theorem next_single {q : Nat} {c : Char} (hs : ofChar c = .single c)
    (h : exact q (.single c) = none) : next? q (ofChar c) = fallback q := by
  rw [hs, next?, h, Option.none_or]

/-- The same, for a state whose one exact transition on single characters is on `d`. -/
theorem next_single_ne {q t : Nat} {c d : Char} (hs : ofChar c = .single c) (he : c ≠ d)
    (hq : exact q (.single c) = if c = d then some t else none) : next? q (ofChar c) = fallback q :=
  next_single hs (by rw [hq, if_neg he])

/-- Inside an identifier, letters and digits continue it and every other character ends it in state
3. -/
theorem next_one (c : Char) :
    next? 1 (ofChar c) = if c.isLower || c.isDigit then some 1 else some 3 := by
  by_cases hl : c.isLower
  · rw [next_letter hl, if_pos (by simp [hl])]
    rfl
  by_cases hd : c.isDigit
  · rw [next_digit hd, if_pos (by simp [hd])]
    rfl
  simp only [Bool.not_eq_true] at hl hd
  rw [if_neg (by simp [hl, hd])]
  by_cases hs : ofChar c = .single c
  · rw [next_single hs rfl]
    rfl
  · rw [next_other (by decide) hl hd hs]
    rfl

/-- `=`, `<` or `>`: a following `=` finishes a two-character operator, anything else ends the
one-character operator. -/
theorem next_six (c : Char) : next? 6 (ofChar c) = if c = '=' then some 8 else some 7 := by
  by_cases he : c = '='
  · subst he
    decide
  rw [if_neg he]
  by_cases hl : c.isLower
  · rw [next_letter hl]
    rfl
  by_cases hd : c.isDigit
  · rw [next_digit hd]
    rfl
  simp only [Bool.not_eq_true] at hl hd
  by_cases hs : ofChar c = .single c
  · rw [next_single_ne hs he rfl]
    rfl
  · rw [next_other (by decide) hl hd hs]
    rfl

/-- `!`: only `=` may follow. -/
theorem next_nine (c : Char) : next? 9 (ofChar c) = if c = '=' then some 8 else some 102 := by
  by_cases he : c = '='
  · subst he
    decide
  rw [if_neg he]
  by_cases hl : c.isLower
  · rw [next_letter hl]
    rfl
  by_cases hd : c.isDigit
  · rw [next_digit hd]
    rfl
  simp only [Bool.not_eq_true] at hl hd
  by_cases hs : ofChar c = .single c
  · rw [next_single_ne hs he rfl]
    rfl
  · rw [next_other (by decide) hl hd hs]
    rfl

/-- Digits: more digits, a decimal point, or the end of an integer. -/
theorem next_ten (c : Char) :
    next? 10 (ofChar c) = if c.isDigit then some 10 else if c = '.' then some 11 else some 12 := by
  by_cases hd : c.isDigit
  · rw [next_digit hd, if_pos hd]
    rfl
  by_cases hp : c = '.'
  · subst hp
    decide
  rw [if_neg hd, if_neg hp]
  by_cases hl : c.isLower
  · rw [next_letter hl]
    rfl
  simp only [Bool.not_eq_true] at hl hd
  by_cases hs : ofChar c = .single c
  · rw [next_single_ne hs hp rfl]
    rfl
  · rw [next_other (by decide) hl hd hs]
    rfl

/-- Digits and a point: a digit must follow. -/
theorem next_eleven (c : Char) :
    next? 11 (ofChar c) = if c.isDigit then some 14 else some 103 := by
  by_cases hd : c.isDigit
  · rw [next_digit hd, if_pos hd]
    rfl
  rw [if_neg hd]
  by_cases hl : c.isLower
  · rw [next_letter hl]
    rfl
  simp only [Bool.not_eq_true] at hl hd
  by_cases hs : ofChar c = .single c
  · rw [next_single hs rfl]
    rfl
  · rw [next_other (by decide) hl hd hs]
    rfl

/-- A real with an exponent: more digits or its end. -/
theorem next_thirteen (c : Char) :
    next? 13 (ofChar c) = if c.isDigit then some 13 else some 18 := by
  by_cases hd : c.isDigit
  · rw [next_digit hd, if_pos hd]
    rfl
  rw [if_neg hd]
  by_cases hl : c.isLower
  · rw [next_letter hl]
    rfl
  simp only [Bool.not_eq_true] at hl hd
  by_cases hs : ofChar c = .single c
  · rw [next_single hs rfl]
    rfl
  · rw [next_other (by decide) hl hd hs]
    rfl

/-- A real: more digits, the exponent mark, or its end. -/
theorem next_fourteen (c : Char) :
    next? 14 (ofChar c) = if c.isDigit then some 14 else if c = 'E' then some 15 else some 16 := by
  by_cases hd : c.isDigit
  · rw [next_digit hd, if_pos hd]
    rfl
  by_cases hE : c = 'E'
  · subst hE
    decide
  rw [if_neg hd, if_neg hE]
  by_cases hl : c.isLower
  · rw [next_letter hl]
    rfl
  simp only [Bool.not_eq_true] at hl hd
  by_cases hs : ofChar c = .single c
  · rw [next_single_ne hs hE rfl]
    rfl
  · rw [next_other (by decide) hl hd hs]
    rfl

/-- After the exponent mark: a minus or a digit must follow. -/
theorem next_fifteen (c : Char) :
    next? 15 (ofChar c) = if c = '-' then some 17 else if c.isDigit then some 13 else some 104 := by
  by_cases hm : c = '-'
  · subst hm
    decide
  rw [if_neg hm]
  by_cases hd : c.isDigit
  · rw [next_digit hd, if_pos hd]
    rfl
  rw [if_neg hd]
  by_cases hl : c.isLower
  · rw [next_letter hl]
    rfl
  simp only [Bool.not_eq_true] at hl hd
  by_cases hs : ofChar c = .single c
  · rw [next_single_ne hs hm rfl]
    rfl
  · rw [next_other (by decide) hl hd hs]
    rfl

/-- After the exponent's minus: a digit must follow. -/
theorem next_seventeen (c : Char) :
    next? 17 (ofChar c) = if c.isDigit then some 13 else some 104 := by
  by_cases hd : c.isDigit
  · rw [next_digit hd, if_pos hd]
    rfl
  rw [if_neg hd]
  by_cases hl : c.isLower
  · rw [next_letter hl]
    rfl
  simp only [Bool.not_eq_true] at hl hd
  by_cases hs : ofChar c = .single c
  · rw [next_single hs rfl]
    rfl
  · rw [next_other (by decide) hl hd hs]
    rfl

/-! ### Paths that keep every character -/

/-- The state that a transition on `c` lands on, if it keeps the character. -/
def keepStep? (q : Nat) (c : Char) : Option Nat :=
  (next? q (ofChar c)).filter fun t => disposition t == .keep

/-- The state reached from `q` along characters that are all kept. -/
def walk (q : Nat) (cs : List Char) : Option Nat :=
  cs.foldlM keepStep? q

@[simp] theorem walk_nil (q : Nat) : walk q [] = some q := rfl

/-- A walk takes its first character, then the rest from where it lands. -/
theorem walk_cons (q : Nat) (c : Char) (cs : List Char) :
    walk q (c :: cs) = (keepStep? q c).bind (walk · cs) := rfl

/-- Walking concatenated characters walks the second part from where the first lands. -/
theorem walk_append (q : Nat) (cs ds : List Char) :
    walk q (cs ++ ds) = (walk q cs).bind (walk · ds) := by
  simp only [walk, List.foldlM_append]
  rfl

/-- A kept step is a transition whose target keeps the character. -/
theorem keepStep?_eq_some {q t : Nat} {c : Char} :
    keepStep? q c = some t ↔ next? q (ofChar c) = some t ∧ disposition t = .keep := by
  simp [keepStep?, Option.filter_eq_some_iff]

/-- What the pending characters are in each state the start state reaches by keeping them. -/
def Pending : Nat → List Char → Prop
  | 0, p => p = []
  | 1, p => IdentShaped p
  | 6, p => p = ['='] ∨ p = ['<'] ∨ p = ['>']
  | 9, p => p = ['!']
  | 10, p => Digits p
  | 11, p => ∃ a, Digits a ∧ p = a ++ ['.']
  | 13, p => ExpShaped p
  | 14, p => FloatShaped p
  | 15, p => ∃ f, FloatShaped f ∧ p = f ++ ['E']
  | 17, p => ∃ f, FloatShaped f ∧ p = f ++ ['E', '-']
  | _, _ => False

/-- Only the ten states of `Pending` hold a pending prefix. -/
theorem Pending.state {q : Nat} {p : List Char} (h : Pending q p) :
    q = 0 ∨ q = 1 ∨ q = 6 ∨ q = 9 ∨ q = 10 ∨ q = 11 ∨ q = 13 ∨ q = 14 ∨ q = 15 ∨ q = 17 := by
  unfold Pending at h
  split at h <;> simp_all

/-- An identifier prefix extended by a letter or a digit is still an identifier prefix. -/
theorem IdentShaped.snoc {p : List Char} {c : Char} (hp : IdentShaped p)
    (hc : c.isLower = true ∨ c.isDigit = true) : IdentShaped (p ++ [c]) := by
  obtain _ | ⟨x, r⟩ := p
  · exact hp.elim
  · refine ⟨hp.1, fun y hy => ?_⟩
    rcases List.mem_append.mp hy with hy | hy
    · exact hp.2 y hy
    · rw [List.mem_singleton.mp hy]
      exact hc

/-- Digits extended by a digit are digits. -/
theorem Digits.snoc {p : List Char} {c : Char} (hp : Digits p) (hc : c.isDigit = true) :
    Digits (p ++ [c]) := by
  refine ⟨by simp, fun y hy => ?_⟩
  rcases List.mem_append.mp hy with hy | hy
  · exact hp.2 y hy
  · rw [List.mem_singleton.mp hy]
    exact hc

/-- A single digit is a digit string. -/
theorem Digits.singleton {c : Char} (hc : c.isDigit = true) : Digits [c] :=
  ⟨by simp, fun y hy => (List.mem_singleton.mp hy) ▸ hc⟩

/-- A decimal extended by a digit is a decimal. -/
theorem FloatShaped.snoc {p : List Char} {c : Char} (hp : FloatShaped p) (hc : c.isDigit = true) :
    FloatShaped (p ++ [c]) := by
  obtain ⟨a, b, ha, hb, rfl⟩ := hp
  exact ⟨a, b ++ [c], ha, Digits.snoc hb hc, by simp⟩

/-- A number with an exponent extended by a digit still has an exponent. -/
theorem ExpShaped.snoc {p : List Char} {c : Char} (hp : ExpShaped p) (hc : c.isDigit = true) :
    ExpShaped (p ++ [c]) := by
  obtain ⟨f, sign, d, hf, hsign, hd, rfl⟩ := hp
  exact ⟨f, sign, d ++ [c], hf, hsign, Digits.snoc hd hc, by simp⟩

/-- The transitions that keep their character, from the states the start state reaches. -/
inductive Keeps : Nat → Char → Nat → Prop
  | letter {c : Char} : c.isLower = true → Keeps 0 c 1
  | digit {c : Char} : c.isDigit = true → Keeps 0 c 10
  | relation {c : Char} : c ∈ ['=', '<', '>'] → Keeps 0 c 6
  | bang : Keeps 0 '!' 9
  | word {c : Char} : c.isLower = true ∨ c.isDigit = true → Keeps 1 c 1
  | whole {c : Char} : c.isDigit = true → Keeps 10 c 10
  | point : Keeps 10 '.' 11
  | firstFraction {c : Char} : c.isDigit = true → Keeps 11 c 14
  | fraction {c : Char} : c.isDigit = true → Keeps 14 c 14
  | mark : Keeps 14 'E' 15
  | minus : Keeps 15 '-' 17
  | firstExponent {c : Char} : c.isDigit = true → Keeps 15 c 13
  | signedExponent {c : Char} : c.isDigit = true → Keeps 17 c 13
  | exponent {c : Char} : c.isDigit = true → Keeps 13 c 13

/-- The states that the start state reaches by keeping characters. -/
def Reachable (q : Nat) : Prop :=
  q = 0 ∨ q = 1 ∨ q = 6 ∨ q = 9 ∨ q = 10 ∨ q = 11 ∨ q = 13 ∨ q = 14 ∨ q = 15 ∨ q = 17

/-- Every listed keeping transition is a kept step of the automaton. -/
theorem Keeps.keepStep?_eq {q t : Nat} {c : Char} (h : Keeps q c t) : keepStep? q c = some t := by
  apply keepStep?_eq_some.mpr
  cases h with
  | letter hc => simp [next_zero, hc, disposition]
  | digit hc => simp [next_zero, hc, not_isLower_of_isDigit hc, disposition]
  | relation hc =>
    simp only [List.mem_cons, List.not_mem_nil, or_false] at hc
    rcases hc with rfl | rfl | rfl <;> decide
  | bang => decide
  | word hc =>
    rw [next_one]
    rcases hc with hc | hc <;> simp [hc, disposition]
  | whole hc => simp [next_ten, hc, disposition]
  | point => decide
  | firstFraction hc => simp [next_eleven, hc, disposition]
  | fraction hc => simp [next_fourteen, hc, disposition]
  | mark => decide
  | minus => decide
  | firstExponent hc =>
    have hm : c ≠ '-' := by
      rintro rfl
      cases hc
    simp [next_fifteen, hc, hm, disposition]
  | signedExponent hc => simp [next_seventeen, hc, disposition]
  | exponent hc => simp [next_thirteen, hc, disposition]

/-- Every transition that keeps its character from a reachable state is one of `Keeps`. -/
theorem Keeps.of_keepStep? {q t : Nat} {c : Char} (hq : Reachable q)
    (h : keepStep? q c = some t) : Keeps q c t := by
  obtain ⟨hn, hkeep⟩ := keepStep?_eq_some.mp h
  rcases hq with rfl | rfl | rfl | rfl | rfl | rfl | rfl | rfl | rfl | rfl
  · rw [next_zero] at hn
    split at hn
    · cases hn
      exact .letter ‹_›
    split at hn
    · cases hn
      exact .digit ‹_›
    split at hn
    · cases hn
      cases hkeep
    split at hn
    · cases hn
      cases hkeep
    split at hn
    · cases hn
      cases hkeep
    split at hn
    · cases hn
      exact .relation ‹_›
    split at hn
    · cases hn
      subst c
      exact .bang
    · cases hn
      cases hkeep
  · rw [next_one] at hn
    split at hn
    · cases hn
      exact .word (by simpa using ‹(c.isLower || c.isDigit) = true›)
    · cases hn
      cases hkeep
  · rw [next_six] at hn
    split at hn <;> (cases hn; cases hkeep)
  · rw [next_nine] at hn
    split at hn <;> (cases hn; cases hkeep)
  · rw [next_ten] at hn
    split at hn
    · cases hn
      exact .whole ‹_›
    split at hn
    · cases hn
      subst c
      exact .point
    · cases hn
      cases hkeep
  · rw [next_eleven] at hn
    split at hn
    · cases hn
      exact .firstFraction ‹_›
    · cases hn
      cases hkeep
  · rw [next_thirteen] at hn
    split at hn
    · cases hn
      exact .exponent ‹_›
    · cases hn
      cases hkeep
  · rw [next_fourteen] at hn
    split at hn
    · cases hn
      exact .fraction ‹_›
    split at hn
    · cases hn
      subst c
      exact .mark
    · cases hn
      cases hkeep
  · rw [next_fifteen] at hn
    split at hn
    · cases hn
      subst c
      exact .minus
    split at hn
    · cases hn
      exact .firstExponent ‹_›
    · cases hn
      cases hkeep
  · rw [next_seventeen] at hn
    split at hn
    · cases hn
      exact .signedExponent ‹_›
    · cases hn
      cases hkeep

/-- A state that holds a pending prefix is reachable. -/
theorem Pending.reachable {q : Nat} {p : List Char} (h : Pending q p) : Reachable q := by
  unfold Pending at h
  unfold Reachable
  split at h <;> simp_all

/-- A kept character extends the pending characters as the landing state says. -/
theorem Pending.keep {q t : Nat} {p : List Char} {c : Char} (hp : Pending q p)
    (hk : Keeps q c t) : Pending t (p ++ [c]) := by
  cases hk with
  | letter hc =>
    simp only [Pending] at hp ⊢
    subst hp
    exact ⟨hc, by simp⟩
  | digit hc =>
    simp only [Pending] at hp ⊢
    subst hp
    exact Digits.singleton hc
  | relation hc =>
    simp only [Pending] at hp ⊢
    subst hp
    simpa using hc
  | bang =>
    simp only [Pending] at hp ⊢
    subst hp
    rfl
  | word hc => exact IdentShaped.snoc hp hc
  | whole hc => exact Digits.snoc hp hc
  | point => exact ⟨p, hp, rfl⟩
  | firstFraction hc =>
    obtain ⟨a, ha, rfl⟩ := hp
    exact ⟨a, [c], ha, Digits.singleton hc, by simp⟩
  | fraction hc => exact FloatShaped.snoc hp hc
  | mark => exact ⟨p, hp, rfl⟩
  | minus =>
    obtain ⟨f, hf, rfl⟩ := hp
    exact ⟨f, hf, by simp⟩
  | firstExponent hc =>
    obtain ⟨f, hf, rfl⟩ := hp
    exact ⟨f, [], [c], hf, .inl rfl, Digits.singleton hc, by simp⟩
  | signedExponent hc =>
    obtain ⟨f, hf, rfl⟩ := hp
    exact ⟨f, ['-'], [c], hf, .inr rfl, Digits.singleton hc, by simp⟩
  | exponent hc => exact ExpShaped.snoc hp hc

/-- Along a path that keeps every character, the pending characters grow as the states say. -/
theorem Pending.walk {q t : Nat} {p w : List Char} (hp : Pending q p) (hw : walk q w = some t) :
    Pending t (p ++ w) := by
  induction w generalizing q p with
  | nil =>
    cases hw
    simpa using hp
  | cons c w ih =>
    rw [walk_cons] at hw
    obtain ⟨q', hq', hw⟩ := Option.bind_eq_some_iff.mp hw
    have hp' := hp.keep (Keeps.of_keepStep? hp.reachable hq')
    simpa using ih hp' hw

/-! ### Transitions that end the pending lexeme -/

/-- Every reachable state has a transition on every character. -/
theorem Reachable.next {q : Nat} (hq : Reachable q) (c : Char) :
    ∃ t, next? q (ofChar c) = some t := by
  rcases hq with rfl | rfl | rfl | rfl | rfl | rfl | rfl | rfl | rfl | rfl
  · rw [next_zero]
    split <;> (try split) <;> (try split) <;> (try split) <;> (try split) <;> (try split) <;>
      (try split) <;> exact ⟨_, rfl⟩
  · rw [next_one]
    split <;> exact ⟨_, rfl⟩
  · rw [next_six]
    split <;> exact ⟨_, rfl⟩
  · rw [next_nine]
    split <;> exact ⟨_, rfl⟩
  · rw [next_ten]
    split <;> (try split) <;> exact ⟨_, rfl⟩
  · rw [next_eleven]
    split <;> exact ⟨_, rfl⟩
  · rw [next_thirteen]
    split <;> exact ⟨_, rfl⟩
  · rw [next_fourteen]
    split <;> (try split) <;> exact ⟨_, rfl⟩
  · rw [next_fifteen]
    split <;> (try split) <;> exact ⟨_, rfl⟩
  · rw [next_seventeen]
    split <;> exact ⟨_, rfl⟩

/-- The transitions that retract: each leaves a state in which a token is complete. -/
theorem retract_cases {q t : Nat} {c : Char} (hq : Reachable q)
    (hn : next? q (ofChar c) = some t) (hr : disposition t = .retract) :
    (q = 1 ∧ t = 3) ∨ (q = 6 ∧ t = 7) ∨ (q = 10 ∧ t = 12) ∨ (q = 13 ∧ t = 18) ∨
      (q = 14 ∧ t = 16) := by
  rcases hq with rfl | rfl | rfl | rfl | rfl | rfl | rfl | rfl | rfl | rfl
  · rw [next_zero] at hn
    split at hn <;> (try split at hn) <;> (try split at hn) <;> (try split at hn) <;>
      (try split at hn) <;> (try split at hn) <;> (try split at hn) <;> (cases hn; cases hr)
  · rw [next_one] at hn
    split at hn <;> cases hn
    · cases hr
    · simp
  · rw [next_six] at hn
    split at hn <;> cases hn
    · cases hr
    · simp
  · rw [next_nine] at hn
    split at hn <;> (cases hn; cases hr)
  · rw [next_ten] at hn
    split at hn <;> (try split at hn) <;> cases hn
    · cases hr
    · cases hr
    · simp
  · rw [next_eleven] at hn
    split at hn <;> (cases hn; cases hr)
  · rw [next_thirteen] at hn
    split at hn <;> cases hn
    · cases hr
    · simp
  · rw [next_fourteen] at hn
    split at hn <;> (try split at hn) <;> cases hn
    · cases hr
    · cases hr
    · simp
  · rw [next_fifteen] at hn
    split at hn <;> (try split at hn) <;> (cases hn; cases hr)
  · rw [next_seventeen] at hn
    split at hn <;> (cases hn; cases hr)

/-- The transitions that finish: a one-character operator from the start state, or the `=` of
a two-character operator. -/
theorem finish_cases {q t : Nat} {c : Char} (hq : Reachable q)
    (hn : next? q (ofChar c) = some t) (hf : disposition t = .finish) :
    (q = 0 ∧ c ∈ ['+', '-', '*', '/', '^', '(', ')', '{', '}', ';', ',', ':']) ∨
      ((q = 6 ∨ q = 9) ∧ c = '=') := by
  rcases hq with rfl | rfl | rfl | rfl | rfl | rfl | rfl | rfl | rfl | rfl
  · rw [next_zero] at hn
    split at hn
    · cases hn
      cases hf
    split at hn
    · cases hn
      cases hf
    split at hn
    · cases hn
      cases hf
    split at hn
    · cases hn
      cases hf
    split at hn
    · exact .inl ⟨rfl, ‹_›⟩
    split at hn
    · cases hn
      cases hf
    split at hn <;> (cases hn; cases hf)
  · rw [next_one] at hn
    split at hn <;> (cases hn; cases hf)
  · rw [next_six] at hn
    split at hn
    · exact .inr ⟨.inl rfl, ‹_›⟩
    · cases hn
      cases hf
  · rw [next_nine] at hn
    split at hn
    · exact .inr ⟨.inr rfl, ‹_›⟩
    · cases hn
      cases hf
  · rw [next_ten] at hn
    split at hn <;> (try split at hn) <;> (cases hn; cases hf)
  · rw [next_eleven] at hn
    split at hn <;> (cases hn; cases hf)
  · rw [next_thirteen] at hn
    split at hn <;> (cases hn; cases hf)
  · rw [next_fourteen] at hn
    split at hn <;> (try split at hn) <;> (cases hn; cases hf)
  · rw [next_fifteen] at hn
    split at hn <;> (try split at hn) <;> (cases hn; cases hf)
  · rw [next_seventeen] at hn
    split at hn <;> (cases hn; cases hf)

/-- Only the start state skips a character or counts a line, and only on layout. -/
theorem layout_cases {q t : Nat} {c : Char} (hq : Reachable q)
    (hn : next? q (ofChar c) = some t)
    (hs : disposition t = .skip ∨ disposition t = .newline) : q = 0 ∧ isLayout c = true := by
  rcases hq with rfl | rfl | rfl | rfl | rfl | rfl | rfl | rfl | rfl | rfl
  · rw [next_zero] at hn
    split at hn
    · cases hn
      rcases hs with hs | hs <;> cases hs
    split at hn
    · cases hn
      rcases hs with hs | hs <;> cases hs
    split at hn
    · refine ⟨rfl, ?_⟩
      rcases ‹c = ' ' ∨ c = '\t'› with rfl | rfl <;> rfl
    split at hn
    · subst c
      exact ⟨rfl, rfl⟩
    split at hn <;> (try split at hn) <;> (try split at hn) <;>
      (cases hn; rcases hs with hs | hs <;> cases hs)
  -- no other state lands on the start state or the line state
  · rw [next_one] at hn
    split at hn <;> (cases hn; rcases hs with hs | hs <;> cases hs)
  · rw [next_six] at hn
    split at hn <;> (cases hn; rcases hs with hs | hs <;> cases hs)
  · rw [next_nine] at hn
    split at hn <;> (cases hn; rcases hs with hs | hs <;> cases hs)
  · rw [next_ten] at hn
    split at hn <;> (try split at hn) <;> (cases hn; rcases hs with hs | hs <;> cases hs)
  · rw [next_eleven] at hn
    split at hn <;> (cases hn; rcases hs with hs | hs <;> cases hs)
  · rw [next_thirteen] at hn
    split at hn <;> (cases hn; rcases hs with hs | hs <;> cases hs)
  · rw [next_fourteen] at hn
    split at hn <;> (try split at hn) <;> (cases hn; rcases hs with hs | hs <;> cases hs)
  · rw [next_fifteen] at hn
    split at hn <;> (try split at hn) <;> (cases hn; rcases hs with hs | hs <;> cases hs)
  · rw [next_seventeen] at hn
    split at hn <;> (cases hn; rcases hs with hs | hs <;> cases hs)

/-! ### States in which a token is complete -/

/-- The states whose fallback retracts: the pending characters form a token. -/
def Accepting (q : Nat) : Prop :=
  q = 1 ∨ q = 6 ∨ q = 10 ∨ q = 13 ∨ q = 14

/-- Every accepting state is reachable. -/
theorem Accepting.reachable {q : Nat} (h : Accepting q) : Reachable q := by
  rcases h with rfl | rfl | rfl | rfl | rfl <;> simp [Reachable]

/-- A complete token is never refused: the next character extends it or ends it. -/
theorem Accepting.not_reject {q t : Nat} {c : Char} (hq : Accepting q)
    (hn : next? q (ofChar c) = some t) : disposition t ≠ .reject := by
  rcases hq with rfl | rfl | rfl | rfl | rfl
  · rw [next_one] at hn
    split at hn <;> (cases hn; decide)
  · rw [next_six] at hn
    split at hn <;> (cases hn; decide)
  · rw [next_ten] at hn
    split at hn <;> (try split at hn) <;> (cases hn; decide)
  · rw [next_thirteen] at hn
    split at hn <;> (cases hn; decide)
  · rw [next_fourteen] at hn
    split at hn <;> (try split at hn) <;> (cases hn; decide)

/-- From a complete token, a kept character leads to an incomplete one only if it is the
decimal point or the exponent mark. -/
theorem Keeps.incomplete {q t : Nat} {c : Char} (hk : Keeps q c t) (hq : Accepting q)
    (ht : ¬ Accepting t) : c = '.' ∨ c = 'E' := by
  cases hk with
  | point => exact .inl rfl
  | mark => exact .inr rfl
  | letter | digit | relation | bang | minus | firstExponent | signedExponent | firstFraction =>
    simp [Accepting] at hq
  | word | whole | fraction | exponent => exact absurd (by simp [Accepting]) ht

/-- Layout is never kept: a line feed never stays pending. -/
theorem Keeps.ne_newline {q t : Nat} {c : Char} (hk : Keeps q c t) : c ≠ '\n' := by
  rintro rfl
  cases hk <;> rename_i h <;> revert h <;> decide

/-! ### What a retract or a finish leaves behind -/

/-- The reserved spellings. -/
theorem reserved?_mem {s : String} {k : TokenKind} (h : TokenKind.reserved? s = some k) :
    s ∈ ["program", "int", "float", "boolean", "while", "do", "if", "then", "input", "print",
      "true", "false", "=", "<=", ">=", "<", ">", "==", "!=", ".", ",", ":", ";", "E", "+", "-",
      "*", "/", "^", "(", ")", "\x7b", "\x7d"] := by
  unfold TokenKind.reserved? at h
  split at h <;> simp_all

/-- No reserved spelling starts with a digit. -/
theorem reserved?_of_isDigit {c : Char} {r : List Char} (hc : c.isDigit = true) :
    TokenKind.reserved? (String.ofList (c :: r)) = none := by
  cases h : TokenKind.reserved? (String.ofList (c :: r)) with
  | none => rfl
  | some k =>
    have hheads : ∀ s ∈ ["program", "int", "float", "boolean", "while", "do", "if", "then",
        "input", "print", "true", "false", "=", "<=", ">=", "<", ">", "==", "!=", ".", ",", ":",
        ";", "E", "+", "-", "*", "/", "^", "(", ")", "\x7b", "\x7d"],
        ∀ x ∈ s.toList.head?, x.isDigit = false := by simp
    have := hheads _ (reserved?_mem h) c (by simp)
    rw [hc] at this
    cases this

/-- The finishing states. -/
theorem finishing {t : Nat} (h : disposition t = .finish) : t = 4 ∨ t = 8 := by
  unfold disposition at h
  split at h <;> simp_all

/-- Retracting leaves a token, of the kind the lexer gives it. -/
theorem Pending.retract {q t : Nat} {p : List Char} {c : Char} (hp : Pending q p)
    (hn : next? q (ofChar c) = some t) (hr : disposition t = .retract) :
    ∃ k, (TokenKind.reserved? (String.ofList p)).or (stateKind? t) = some k ∧ Lexeme p k := by
  rcases retract_cases hp.reachable hn hr with ⟨rfl, rfl⟩ | ⟨rfl, rfl⟩ | ⟨rfl, rfl⟩ |
    ⟨rfl, rfl⟩ | ⟨rfl, rfl⟩ <;> simp only [Pending] at hp
  · -- a word: its reserved kind, or an identifier
    refine ⟨_, ?_, .word hp⟩
    cases TokenKind.reserved? (String.ofList p) <;> rfl
  · rcases hp with rfl | rfl | rfl <;> exact ⟨_, rfl, .op (by decide) rfl⟩
  · -- numerals are never reserved
    obtain _ | ⟨x, r⟩ := p
    · exact absurd rfl hp.1
    · exact ⟨.int, by rw [reserved?_of_isDigit hp.head]; rfl, .int hp⟩
  · obtain _ | ⟨x, r⟩ := p
    · exact absurd rfl (Lexeme.exp hp).ne_nil
    · exact ⟨.exp, by rw [reserved?_of_isDigit hp.head]; rfl, .exp hp⟩
  · obtain _ | ⟨x, r⟩ := p
    · exact absurd rfl (Lexeme.float hp).ne_nil
    · exact ⟨.float, by rw [reserved?_of_isDigit hp.head]; rfl, .float hp⟩

/-- Finishing completes an operator with its character. -/
theorem Pending.finish {q t : Nat} {p : List Char} {c : Char} (hp : Pending q p)
    (hn : next? q (ofChar c) = some t) (hf : disposition t = .finish) :
    ∃ k, (TokenKind.reserved? (String.ofList (p ++ [c]))).or (stateKind? t) = some k ∧
      Lexeme (p ++ [c]) k := by
  -- the finishing states give no kind: an operator's kind is its reserved one
  have hkind : stateKind? t = none := by
    rcases finishing hf with rfl | rfl <;> rfl
  rw [hkind, Option.or_none]
  rcases finish_cases hp.reachable hn hf with ⟨rfl, hc⟩ | ⟨rfl | rfl, rfl⟩ <;>
    simp only [Pending] at hp
  · subst hp
    simp only [List.mem_cons, List.not_mem_nil, or_false] at hc
    rcases hc with rfl | rfl | rfl | rfl | rfl | rfl | rfl | rfl | rfl | rfl | rfl | rfl <;>
      exact ⟨_, rfl, .op (by decide) rfl⟩
  · rcases hp with rfl | rfl | rfl <;> exact ⟨_, rfl, .op (by decide) rfl⟩
  · subst hp
    exact ⟨_, rfl, .op (by decide) rfl⟩

/-- The pending characters of an accepting state form a token. -/
theorem Pending.token {q : Nat} {p : List Char} (hp : Pending q p) (hq : Accepting q) :
    IsToken p := by
  -- a character of no class makes every accepting state retract
  have hr : ∃ t, next? q (ofChar '#') = some t ∧ disposition t = .retract := by
    rcases hq with rfl | rfl | rfl | rfl | rfl <;> exact ⟨_, rfl, rfl⟩
  obtain ⟨t, hn, hret⟩ := hr
  obtain ⟨k, -, hk⟩ := hp.retract hn hret
  exact ⟨k, hk⟩

/-! ### Every token is read along a path -/

/-- A token is read from the start state either along kept characters up to an accepting state,
or along kept characters and then a character that finishes it. -/
def TokenPath (u : List Char) : Prop :=
  (∃ q, walk 0 u = some q ∧ Accepting q) ∨
    ∃ v e q t, u = v ++ [e] ∧ walk 0 v = some q ∧ next? q (ofChar e) = some t ∧
      disposition t = .finish

/-- A walk along characters that all loop on a state stays there. -/
theorem walk_loop {q : Nat} {w : List Char} (h : ∀ c ∈ w, Keeps q c q) : walk q w = some q := by
  induction w with
  | nil => rfl
  | cons c w ih =>
    rw [walk_cons, (h c List.mem_cons_self).keepStep?_eq, Option.bind_some]
    exact ih fun x hx => h x (List.mem_cons_of_mem c hx)

/-- Digits lead from the start state to the integer state. -/
theorem walk_digits {a : List Char} (ha : Digits a) : walk 0 a = some 10 := by
  obtain _ | ⟨c, r⟩ := a
  · exact absurd rfl ha.1
  · rw [walk_cons, (Keeps.digit ha.head).keepStep?_eq, Option.bind_some]
    exact walk_loop fun x hx => .whole (ha.2 x (List.mem_cons_of_mem c hx))

/-- A decimal leads from the start state to the fraction state. -/
theorem walk_float {f : List Char} (hf : FloatShaped f) : walk 0 f = some 14 := by
  obtain ⟨a, b, ha, hb, rfl⟩ := hf
  obtain _ | ⟨d, r⟩ := b
  · exact absurd rfl hb.1
  rw [walk_append, walk_digits ha, Option.bind_some, walk_cons, Keeps.point.keepStep?_eq,
    Option.bind_some, walk_cons, (Keeps.firstFraction hb.head).keepStep?_eq, Option.bind_some]
  exact walk_loop fun x hx => .fraction (hb.2 x (List.mem_cons_of_mem d hx))

/-- A number with an exponent leads from the start state to the exponent state. -/
theorem walk_exp {s : List Char} (hs : ExpShaped s) : walk 0 s = some 13 := by
  obtain ⟨f, sign, d, hf, hsign, hd, rfl⟩ := hs
  obtain _ | ⟨x, r⟩ := d
  · exact absurd rfl hd.1
  have hloop : walk 13 r = some 13 :=
    walk_loop fun y hy => .exponent (hd.2 y (List.mem_cons_of_mem x hy))
  rw [walk_append, walk_float hf, Option.bind_some, walk_cons, Keeps.mark.keepStep?_eq,
    Option.bind_some]
  rcases hsign with rfl | rfl
  · rw [List.nil_append, walk_cons, (Keeps.firstExponent hd.head).keepStep?_eq,
      Option.bind_some, hloop]
  · rw [List.singleton_append, walk_cons, Keeps.minus.keepStep?_eq, Option.bind_some,
      walk_cons, (Keeps.signedExponent hd.head).keepStep?_eq, Option.bind_some, hloop]

/-- Every token is read along a path of the automaton. -/
theorem Lexeme.path {u : List Char} {k : TokenKind} (h : Lexeme u k) : TokenPath u := by
  cases h with
  | word hu =>
    obtain _ | ⟨c, w⟩ := u
    · exact hu.elim
    · refine .inl ⟨1, ?_, .inl rfl⟩
      rw [walk_cons, (Keeps.letter hu.1).keepStep?_eq, Option.bind_some]
      exact walk_loop fun x hx => .word (hu.2 x hx)
  | int hu => exact .inl ⟨10, walk_digits hu, by simp [Accepting]⟩
  | float hu => exact .inl ⟨14, walk_float hu, by simp [Accepting]⟩
  | exp hu => exact .inl ⟨13, walk_exp hu, by simp [Accepting]⟩
  | op hu _ =>
    -- one-character operators finish at once, `=`, `<`, `>` wait, the others finish on `=`
    simp only [operators, List.mem_cons, List.not_mem_nil, or_false] at hu
    rcases hu with rfl | rfl | rfl | rfl | rfl | rfl | rfl | rfl | rfl | rfl | rfl | rfl | rfl |
      rfl | rfl | rfl | rfl | rfl | rfl
    iterate 12 exact .inr ⟨[], _, 0, 4, rfl, rfl, by decide, rfl⟩
    iterate 3 exact .inl ⟨6, by decide, .inr (.inl rfl)⟩
    · exact .inr ⟨['='], '=', 6, 8, rfl, by decide, by decide, rfl⟩
    · exact .inr ⟨['<'], '=', 6, 8, rfl, by decide, by decide, rfl⟩
    · exact .inr ⟨['>'], '=', 6, 8, rfl, by decide, by decide, rfl⟩
    · exact .inr ⟨['!'], '=', 9, 8, rfl, by decide, by decide, rfl⟩

end Automaton

end RpnLang
