import RpnLang.Proofs.ParseComplete

/-!
# Bracket words and the law of the bracket stack

A bracket step reads a lexeme where a bracket is expected. Run step after step, whatever each
one reports, the stack follows a simple law (`stack_controlAll`): a step that reads the opener it
expects pushes it, a step that reads the closer it expects drops the innermost bracket if there
is one (also when that bracket is not its partner), and every other step leaves the stack alone.
The brackets reported as unclosed are then exactly the stack, outermost first.

Feeding the characters of a word one by one, each expected where it stands, succeeds at every
step and leaves nothing open exactly when the word is balanced over the two pairs `(` `)` and
`{` `}` (`controlAll_clean_iff_balanced`). One direction is an induction on the grammar of
balanced words; the other an induction on the word, with the brackets still open written in
front of it, and rests on the fact that a pair inserted anywhere into a balanced word keeps it
balanced (`Balanced.insert_pair`).

Main statement: `controlAll_balanced_and_stack`.
-/

namespace RpnLang

/-! ### Balanced words -/

/-- The two bracket pairs. -/
def IsPair (o c : Char) : Prop :=
  (o = '(' ∧ c = ')') ∨ (o = '{' ∧ c = '}')

/-- The balanced words over the two bracket pairs: the empty word, a balanced word inside a
pair, and two balanced words one after the other. -/
inductive Balanced : List Char → Prop
  /-- The empty word. -/
  | nil : Balanced []
  /-- A balanced word between an opener and its closer. -/
  | wrap {o c : Char} {w : List Char} : IsPair o c → Balanced w → Balanced (o :: w ++ [c])
  /-- Two balanced words in a row. -/
  | append {u v : List Char} : Balanced u → Balanced v → Balanced (u ++ v)

namespace Balanced

/-- An opener right before its closer is balanced. -/
theorem pair {o c : Char} (h : IsPair o c) : Balanced [o, c] :=
  wrap (w := []) h nil

/-- A pair inserted anywhere into a balanced word leaves it balanced. The induction is on the
derivation, with the place of the insertion found in each case. -/
theorem insert_pair {o c : Char} (hp : IsPair o c) {w : List Char} (hw : Balanced w) :
    ∀ u v, w = u ++ v → Balanced (u ++ o :: c :: v) := by
  induction hw with
  | nil =>
    intro u v h
    obtain ⟨rfl, rfl⟩ := List.append_eq_nil_iff.mp h.symm
    exact pair hp
  | @wrap o' c' w hp' hw ih =>
    intro u v h
    cases u with
    | nil =>
      -- in front of the whole pair
      subst h
      simpa using append (pair hp) (wrap hp' hw)
    | cons x u =>
      simp only [List.cons_append, List.cons.injEq] at h
      obtain ⟨rfl, h⟩ := h
      rcases List.append_eq_append_iff.mp h with ⟨m, rfl, hm⟩ | ⟨m, rfl, rfl⟩
      · obtain ⟨rfl, rfl⟩ | ⟨rfl, rfl⟩ := List.append_eq_singleton_iff.mp hm.symm
        · -- just before the closer
          simpa using wrap hp' (append hw (pair hp))
        · -- behind the closer
          simpa using append (wrap hp' hw) (pair hp)
      · -- inside the pair
        simpa using wrap hp' (ih u m rfl)
  | @append x y _ _ ihx ihy =>
    intro u v h
    rcases List.append_eq_append_iff.mp h with ⟨m, rfl, rfl⟩ | ⟨m, rfl, rfl⟩
    · simpa using append ‹Balanced x› (ihy m v rfl)
    · simpa using append (ihx u m rfl) ‹Balanced y›

end Balanced

/-! ### Runs of bracket steps -/

namespace Brackets

/-- Bracket steps one after another from `b`, each a lexeme and the bracket expected there,
whatever each one reports: the reports in order, and the stack afterwards. -/
def controlAll (b : Brackets) : List (String × Char) → List (Option BracketError) × Brackets
  | [] => ([], b)
  | (lexeme, expected) :: calls =>
    let step := b.control lexeme expected
    let rest := step.2.controlAll calls
    (step.1 :: rest.1, rest.2)

@[simp] theorem controlAll_nil (b : Brackets) : b.controlAll [] = ([], b) := rfl

/-- A run of steps takes the first and runs the others from the brackets it leaves. -/
@[simp] theorem controlAll_cons (b : Brackets) (lexeme : String) (expected : Char)
    (calls : List (String × Char)) :
    b.controlAll ((lexeme, expected) :: calls) =
      ((b.control lexeme expected).1 :: ((b.control lexeme expected).2.controlAll calls).1,
        ((b.control lexeme expected).2.controlAll calls).2) := rfl

/-- A run of concatenated steps runs the second part from the brackets the first leaves. -/
theorem controlAll_append (b : Brackets) (xs ys : List (String × Char)) :
    b.controlAll (xs ++ ys) =
      ((b.controlAll xs).1 ++ ((b.controlAll xs).2.controlAll ys).1,
        ((b.controlAll xs).2.controlAll ys).2) := by
  induction xs generalizing b with
  | nil => rfl
  | cons call xs ih =>
    obtain ⟨lexeme, expected⟩ := call
    simp [ih]

end Brackets

/-! ### The law of the stack -/

/-- The open brackets, outermost first, after one step by the law: reading the opener it expects
appends it, reading the closer it expects drops the last one if there is one, and any other step
leaves them as they are. -/
def afterCall (os : List Char) (call : String × Char) : List Char :=
  if call.1.toList = [call.2] then
    if call.2 = '{' ∨ call.2 = '(' then os ++ [call.2]
    else if call.2 = '}' ∨ call.2 = ')' then os.dropLast
    else os
  else os

namespace Brackets

/-- A character that is no closer has no opener. -/
theorem openerOf?_eq_none {c : Char} (h : ¬(c = '}' ∨ c = ')')) : openerOf? c = none := by
  unfold openerOf?
  split
  · exact absurd (.inl rfl) h
  · exact absurd (.inr rfl) h
  · rfl

/-- One step, successful or not, moves the stack by the law. -/
theorem stack_control (b : Brackets) (lexeme : String) (expected : Char) :
    (b.control lexeme expected).2.stack.reverse = afterCall b.stack.reverse (lexeme, expected) := by
  unfold control afterCall
  dsimp only
  split
  · rename_i c hc
    by_cases hce : c = expected
    · subst hce
      rw [if_neg (fun h : c ≠ c => h rfl), if_pos hc]
      by_cases ho : c = '{' ∨ c = '('
      · simp [ho]
      · rw [if_neg ho, if_neg ho]
        by_cases hcl : c = '}' ∨ c = ')'
        · -- a closer pops whatever is innermost, its partner or not
          obtain ⟨want, hw⟩ : ∃ want, openerOf? c = some want := by
            rcases hcl with rfl | rfl <;> exact ⟨_, rfl⟩
          rw [if_pos hcl, hw]
          dsimp only
          split
          · rename_i hs
            simp [hs]
          · rename_i o rest hs
            split <;> simp [hs]
        · rw [if_neg hcl, openerOf?_eq_none hcl]
    · have hne : ¬lexeme.toList = [expected] := by
        rw [hc]
        simpa using hce
      rw [if_pos hce, if_neg hne]
  · rename_i hc
    have hne : ¬lexeme.toList = [expected] := hc expected
    rw [if_neg hne]

/-- A run of steps, successful or not, moves the stack by the law, step after step. -/
theorem stack_controlAll (b : Brackets) (calls : List (String × Char)) :
    (b.controlAll calls).2.stack.reverse = calls.foldl afterCall b.stack.reverse := by
  induction calls generalizing b with
  | nil => rfl
  | cons call calls ih =>
    obtain ⟨lexeme, expected⟩ := call
    rw [controlAll_cons, ih, stack_control, List.foldl_cons]

/-- The brackets reported as unclosed are the stack, outermost first. -/
theorem unclosed?_eq (b : Brackets) :
    b.unclosed? = if b.stack.reverse = [] then none else some (.unclosed b.stack.reverse) := by
  simp [unclosed?, List.isEmpty_iff]

end Brackets

/-! ### Words fed character by character -/

/-- The steps of a word: each character read where it is expected. -/
def charCalls (w : List Char) : List (String × Char) :=
  w.map fun c => (String.singleton c, c)

@[simp] theorem charCalls_nil : charCalls [] = [] := rfl

/-- A word's first character is its first step. -/
@[simp] theorem charCalls_cons (c : Char) (w : List Char) :
    charCalls (c :: w) = (String.singleton c, c) :: charCalls w := rfl

/-- The steps of concatenated words are concatenated. -/
@[simp] theorem charCalls_append (u v : List Char) :
    charCalls (u ++ v) = charCalls u ++ charCalls v :=
  List.map_append

/-- Every step of a run reported nothing. -/
def Clean (reports : List (Option BracketError)) : Prop :=
  ∀ e ∈ reports, e = none

@[simp] theorem clean_nil : Clean [] := fun _ h => nomatch h

/-- Reports are clean when the first is empty and the others are clean. -/
@[simp] theorem clean_cons {e : Option BracketError} {es : List (Option BracketError)} :
    Clean (e :: es) ↔ e = none ∧ Clean es := by
  simp [Clean]

/-- Concatenated reports are clean when both parts are. -/
@[simp] theorem clean_append {es es' : List (Option BracketError)} :
    Clean (es ++ es') ↔ Clean es ∧ Clean es' := by
  simp only [Clean, List.mem_append]
  exact ⟨fun h => ⟨fun e he => h e (.inl he), fun e he => h e (.inr he)⟩,
    fun h e he => he.elim (h.1 e) (h.2 e)⟩

/-- The first of a pair is an opener. -/
theorem IsPair.opener {o c : Char} (h : IsPair o c) : o = '{' ∨ o = '(' := by
  rcases h with ⟨rfl, -⟩ | ⟨rfl, -⟩
  · exact .inr rfl
  · exact .inl rfl

/-- The opener of a pair's closer is the pair's first. -/
theorem IsPair.openerOf? {o c : Char} (h : IsPair o c) : openerOf? c = some o := by
  rcases h with ⟨rfl, rfl⟩ | ⟨rfl, rfl⟩ <;> rfl

/-- The second of a pair is no opener. -/
theorem IsPair.not_opener {o c : Char} (h : IsPair o c) : ¬(c = '{' ∨ c = '(') := by
  rcases h with ⟨-, rfl⟩ | ⟨-, rfl⟩ <;> decide

namespace Brackets

/-- A character read where it is expected reports nothing only as an opener, which is pushed,
or as a closer whose partner is innermost, which is popped. -/
theorem control_char_none (b : Brackets) (c : Char)
    (h : (b.control (String.singleton c) c).1 = none) :
    ((c = '{' ∨ c = '(') ∧ (b.control (String.singleton c) c).2.stack = c :: b.stack) ∨
      ∃ o rest, IsPair o c ∧ b.stack = o :: rest ∧
        (b.control (String.singleton c) c).2.stack = rest := by
  by_cases ho : c = '{' ∨ c = '('
  · exact .inl ⟨ho, by rw [control_opener (String.toList_singleton c) ho]⟩
  · simp only [control, String.toList_singleton, ne_eq, not_true_eq_false, if_false,
      if_neg ho] at h ⊢
    split at h
    · cases h
    · rename_i want hw
      split at h
      · cases h
      · rename_i o rest hs
        split at h
        · rename_i hwant
          subst hwant
          -- the partner of a closer is the opener `openerOf?` names
          have hp : IsPair o c := by
            unfold openerOf? at hw
            split at hw <;> cases hw
            · exact .inr ⟨rfl, rfl⟩
            · exact .inl ⟨rfl, rfl⟩
          exact .inr ⟨o, rest, hp, hs, by rw [if_pos rfl]⟩
        · cases h

end Brackets

/-- Feeding a balanced word from any stack succeeds at every step and leaves the stack as it
was. The induction is on the derivation of the word. -/
theorem Balanced.clean {w : List Char} (hw : Balanced w) (b : Brackets) :
    Clean (b.controlAll (charCalls w)).1 ∧ (b.controlAll (charCalls w)).2.stack = b.stack := by
  induction hw generalizing b with
  | nil => simp
  | @wrap o c w hp _ ih =>
    -- the opener is pushed, the inside leaves it there, and the closer pops it
    obtain ⟨hclean, hstack⟩ := ih ⟨o :: b.stack⟩
    simp only [List.cons_append, charCalls_cons, charCalls_append, Brackets.controlAll_cons,
      Brackets.control_opener (String.toList_singleton o) hp.opener, Brackets.controlAll_append,
      clean_cons, clean_append, true_and]
    rw [Brackets.control_closer (String.toList_singleton c) hp.not_opener hp.openerOf? hstack]
    exact ⟨⟨hclean, rfl, clean_nil⟩, rfl⟩
  | @append u v _ _ ihu ihv =>
    obtain ⟨hcu, hsu⟩ := ihu b
    obtain ⟨hcv, hsv⟩ := ihv (b.controlAll (charCalls u)).2
    rw [charCalls_append, Brackets.controlAll_append]
    exact ⟨clean_append.mpr ⟨hcu, hcv⟩, hsv.trans hsu⟩

/-- A word fed cleanly from a stack until nothing is open is balanced once the brackets still
open are written in front of it. The induction is on the word; a closer's partner is popped, so
the pair they make is inserted back. -/
theorem balanced_of_clean (w : List Char) (b : Brackets)
    (hclean : Clean (b.controlAll (charCalls w)).1)
    (hnil : (b.controlAll (charCalls w)).2.stack = []) : Balanced (b.stack.reverse ++ w) := by
  induction w generalizing b with
  | nil =>
    simp only [charCalls_nil, Brackets.controlAll_nil] at hnil
    simpa [hnil] using Balanced.nil
  | cons c w ih =>
    rw [charCalls_cons, Brackets.controlAll_cons] at hclean hnil
    obtain ⟨hnone, hrest⟩ := clean_cons.mp hclean
    have hw := ih _ hrest hnil
    rcases Brackets.control_char_none b c hnone with ⟨-, hs⟩ | ⟨o, rest, hp, hs, hs'⟩
    · simpa [hs] using hw
    · rw [hs'] at hw
      simpa [hs] using Balanced.insert_pair hp hw _ _ rfl

/-- Feeding a word's characters to fresh brackets, each expected where it stands, succeeds at
every step and leaves nothing open exactly when the word is balanced. -/
theorem controlAll_clean_iff_balanced (w : List Char) :
    (Clean (({} : Brackets).controlAll (charCalls w)).1 ∧
      (({} : Brackets).controlAll (charCalls w)).2.unclosed? = none) ↔ Balanced w := by
  rw [Brackets.unclosed?_eq_none_iff]
  refine ⟨fun ⟨hclean, hnil⟩ => ?_, fun hw => ?_⟩
  · simpa using balanced_of_clean w {} hclean hnil
  · obtain ⟨hclean, hstack⟩ := hw.clean {}
    exact ⟨hclean, hstack⟩

/-- Feeding a word's characters to fresh brackets, each expected where it stands, succeeds at
every step and leaves nothing open exactly when the word is balanced; and any run of steps,
successful or not, moves the stack by the law: a step that reads the opener it expects pushes it,
one that reads the closer it expects drops the innermost bracket if there is one, and any other
step leaves it alone, and the brackets reported as unclosed are exactly the stack left. -/
theorem controlAll_balanced_and_stack (w : List Char) (b : Brackets)
    (calls : List (String × Char)) :
    ((Clean (({} : Brackets).controlAll (charCalls w)).1 ∧
        (({} : Brackets).controlAll (charCalls w)).2.unclosed? = none) ↔ Balanced w) ∧
      (b.controlAll calls).2.stack.reverse = calls.foldl afterCall b.stack.reverse ∧
      (b.controlAll calls).2.unclosed? =
        if calls.foldl afterCall b.stack.reverse = [] then none
        else some (.unclosed (calls.foldl afterCall b.stack.reverse)) := by
  have hlaw := Brackets.stack_controlAll b calls
  refine ⟨controlAll_clean_iff_balanced w, hlaw, ?_⟩
  rw [Brackets.unclosed?_eq, hlaw]

/-- A closer that is not the partner of the innermost bracket still pops it. -/
example : (({ stack := ['('] } : Brackets).control "\x7d" '\x7d').2.stack = [] := by
  simp [Brackets.control, openerOf?]

end RpnLang
