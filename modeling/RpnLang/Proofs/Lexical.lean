import RpnLang.Lexer

/-!
# Longest-match tokenisation

The lexical grammar of the language, stated without the automaton. A source is the text of its
lines, each followed by a line feed. Scanning it from the left, blanks and line feeds are layout
and are dropped; anywhere else the next token is the longest prefix of the rest that is a token:

* identifier-shaped `[a-z][a-z0-9]*`, a reserved word or else an identifier;
* an integer `[0-9]+`, a real `[0-9]+.[0-9]+`, or a real with an exponent
  `[0-9]+.[0-9]+E-?[0-9]+`;
* one of the operators and brackets `+ - * / ^ ( ) { } ; , : = < > == <= >= !=`, whose kind is
  that of its reserved spelling.

`Scans line s ts` says that `s`, whose first character is on line `line`, is scanned so into the
tokens `ts`, each with the line it stands on. The lexer's result is determined by the tokens:
records in order, the distinct identifiers in order of first occurrence, untyped and without a
value, and the distinct literals in order of first occurrence with their values.
-/

namespace RpnLang

namespace Lexical

/-- Blanks and the line feed. -/
def isLayout (c : Char) : Bool :=
  c == ' ' || c == '\t' || c == '\n'

/-- One or more decimal digits. -/
def Digits (s : List Char) : Prop :=
  s ≠ [] ∧ ∀ c ∈ s, c.isDigit = true

/-- `[a-z][a-z0-9]*`. -/
def IdentShaped : List Char → Prop
  | [] => False
  | c :: r => c.isLower = true ∧ ∀ x ∈ r, x.isLower = true ∨ x.isDigit = true

/-- `[0-9]+.[0-9]+`. -/
def FloatShaped (s : List Char) : Prop :=
  ∃ a b, Digits a ∧ Digits b ∧ s = a ++ '.' :: b

/-- `[0-9]+.[0-9]+E-?[0-9]+`. -/
def ExpShaped (s : List Char) : Prop :=
  ∃ f sign d, FloatShaped f ∧ (sign = [] ∨ sign = ['-']) ∧ Digits d ∧ s = f ++ 'E' :: (sign ++ d)

/-- The operators, brackets and separators. -/
def operators : List (List Char) :=
  [['+'], ['-'], ['*'], ['/'], ['^'], ['('], [')'], ['{'], ['}'], [';'], [','], [':'],
    ['='], ['<'], ['>'], ['=', '='], ['<', '='], ['>', '='], ['!', '=']]

/-- A token of the language with its kind. -/
inductive Lexeme : List Char → TokenKind → Prop
  /-- A reserved word has its reserved kind, any other identifier-shaped lexeme is an
  identifier. -/
  | word {t : List Char} : IdentShaped t →
      Lexeme t ((TokenKind.reserved? (String.ofList t)).getD .ident)
  | int {t : List Char} : Digits t → Lexeme t .int
  | float {t : List Char} : FloatShaped t → Lexeme t .float
  | exp {t : List Char} : ExpShaped t → Lexeme t .exp
  /-- An operator has the kind of its reserved spelling. -/
  | op {t : List Char} {k : TokenKind} : t ∈ operators →
      TokenKind.reserved? (String.ofList t) = some k → Lexeme t k

/-- The characters form a token of some kind. -/
def IsToken (t : List Char) : Prop :=
  ∃ k, Lexeme t k

/-- No prefix of `t ++ rest` longer than `t` is a token. -/
def Longest (t rest : List Char) : Prop :=
  ∀ u, IsToken u → u <+: t ++ rest → u.length ≤ t.length

/-- A token as the scan finds it: the line it stands on, its characters and its kind. -/
structure Scanned where
  /-- The line, from 1. -/
  line : Nat
  /-- The characters. -/
  text : List Char
  /-- The kind. -/
  kind : TokenKind
  deriving DecidableEq, Repr

/-- Scanning by longest match from a line: layout is dropped, a line feed starts the next line,
and a token is the longest prefix of the rest that is a token. -/
inductive Scans : Nat → List Char → List Scanned → Prop
  | nil {line : Nat} : Scans line [] []
  | blank {line : Nat} {c : Char} {s : List Char} {ts : List Scanned} :
      (c = ' ' ∨ c = '\t') → Scans line s ts → Scans line (c :: s) ts
  | newline {line : Nat} {s : List Char} {ts : List Scanned} :
      Scans (line + 1) s ts → Scans line ('\n' :: s) ts
  | token {line : Nat} {t s : List Char} {k : TokenKind} {ts : List Scanned} :
      Lexeme t k → Longest t s → Scans line s ts → Scans line (t ++ s) (⟨line, t, k⟩ :: ts)

/-- A literal within range: an integer below `2 ^ 63`, a real whose double is finite. -/
def InRange (t : List Char) : TokenKind → Prop
  | .int => Decimal.digitsValue t < Nat.pow 2 63
  | .float | .exp => (Value.finiteFloat? (String.ofList t)).isSome = true
  | _ => True

/-- The text the lexer reads: every line followed by a line feed. -/
def source (lines : List String) : List Char :=
  lines.flatMap fun l => l.toList ++ ['\n']

/-! ### What the tokens determine -/

/-- The distinct identifier lexemes, in order of first occurrence. -/
def identNames (ts : List Scanned) : List String :=
  (ts.filterMap fun x => if x.kind = .ident then some (String.ofList x.text) else none).eraseDups

/-- The distinct literals with their kinds, in order of first occurrence. -/
def literals (ts : List Scanned) : List (String × TokenKind) :=
  (ts.filterMap fun x =>
    if x.kind.isConstant then some (String.ofList x.text, x.kind) else none).eraseDups

/-- The record of a token: an identifier or a literal carries its 1-based place in the distinct
identifiers or literals. -/
def Scanned.record (ts : List Scanned) (x : Scanned) : Record :=
  ⟨x.line, String.ofList x.text, x.kind,
    if x.kind = .ident then some ((identNames ts).idxOf (String.ofList x.text) + 1)
    else if x.kind.isConstant then
      some ((literals ts).idxOf (String.ofList x.text, x.kind) + 1)
    else none⟩

/-- The tables of the tokens: the distinct identifiers, untyped and without a value, and the
distinct literals with their values, each entry with its 1-based place. -/
def tablesOf (ts : List Scanned) : Tables :=
  ⟨((identNames ts).mapIdx fun i n => ⟨n, i + 1, none, none⟩).toArray,
    (((literals ts).filterMap fun p => (literalValue? p.1 p.2).map fun v => (p.1, v)).mapIdx
      fun i p => ⟨p.1, i + 1, p.2⟩).toArray⟩

/-! ### Characters of tokens -/

/-- A lowercase letter is a code between 97 and 122. -/
theorem isLower_iff {c : Char} : c.isLower = true ↔ 97 ≤ c.toNat ∧ c.toNat ≤ 122 := by
  show (decide (c.val ≥ 'a'.val) && decide (c.val ≤ 'z'.val)) = true ↔ _
  simp [UInt32.le_iff_toNat_le, ← Char.toNat_val]

/-- A digit is a code between 48 and 57. -/
theorem isDigit_iff {c : Char} : c.isDigit = true ↔ 48 ≤ c.toNat ∧ c.toNat ≤ 57 := by
  simp [Char.isDigit, UInt32.le_iff_toNat_le, ← Char.toNat_val]

/-- The characters that stand in operators and literals besides letters and digits. -/
def signs : List Char :=
  ['+', '-', '*', '/', '^', '(', ')', '{', '}', ';', ',', ':', '=', '<', '>', '!', '.', 'E']

/-- The characters that an operator starts with. -/
def operatorStarts : List Char :=
  ['+', '-', '*', '/', '^', '(', ')', '{', '}', ';', ',', ':', '=', '<', '>', '!']

/-- Digits start with a digit. -/
theorem Digits.head {c : Char} {r : List Char} (h : Digits (c :: r)) : c.isDigit = true :=
  h.2 c List.mem_cons_self

/-- A decimal starts with a digit. -/
theorem FloatShaped.head {c : Char} {r : List Char} (h : FloatShaped (c :: r)) :
    c.isDigit = true := by
  obtain ⟨a, b, ha, -, heq⟩ := h
  cases a with
  | nil => exact absurd rfl ha.1
  | cons x a =>
    cases heq
    exact ha.head

/-- A number with an exponent starts with a digit. -/
theorem ExpShaped.head {c : Char} {r : List Char} (h : ExpShaped (c :: r)) :
    c.isDigit = true := by
  obtain ⟨f, sign, d, hf, -, -, heq⟩ := h
  obtain ⟨a, b, ha, -, rfl⟩ := hf
  cases a with
  | nil => exact absurd rfl ha.1
  | cons x a =>
    cases heq
    exact ha.head

/-- A real carries its decimal point and, besides it, only digits. -/
theorem FloatShaped.mem {s : List Char} (h : FloatShaped s) :
    '.' ∈ s ∧ ∀ c ∈ s, c.isDigit = true ∨ c = '.' := by
  obtain ⟨a, b, ha, hb, rfl⟩ := h
  refine ⟨by simp, fun c hc => ?_⟩
  simp only [List.mem_append, List.mem_cons] at hc
  rcases hc with hc | rfl | hc
  · exact .inl (ha.2 c hc)
  · exact .inr rfl
  · exact .inl (hb.2 c hc)

/-- A real with an exponent carries its exponent mark. -/
theorem ExpShaped.mem_E {s : List Char} (h : ExpShaped s) : 'E' ∈ s := by
  obtain ⟨f, sign, d, -, -, -, rfl⟩ := h
  simp

/-- Every character of a token is a letter, a digit or one of the signs. -/
theorem Lexeme.mem {t : List Char} {k : TokenKind} (h : Lexeme t k) :
    ∀ c ∈ t, c.isLower = true ∨ c.isDigit = true ∨ c ∈ signs := by
  intro c hc
  cases h with
  | word ht =>
    obtain _ | ⟨x, r⟩ := t
    · cases hc
    · obtain ⟨hx, hr⟩ := ht
      rcases List.mem_cons.mp hc with rfl | hc
      · exact .inl hx
      · exact (hr c hc).elim .inl (.inr ∘ .inl)
  | int ht => exact .inr (.inl (ht.2 c hc))
  | float ht =>
    rcases ht.mem.2 c hc with hd | rfl
    · exact .inr (.inl hd)
    · exact .inr (.inr (by decide))
  | exp ht =>
    obtain ⟨f, sign, d, hf, hsign, hd, rfl⟩ := ht
    simp only [List.mem_append, List.mem_cons] at hc
    rcases hc with hc | rfl | hc | hc
    · rcases hf.mem.2 c hc with hd | rfl
      · exact .inr (.inl hd)
      · exact .inr (.inr (by decide))
    · exact .inr (.inr (by decide))
    · rcases hsign with rfl | rfl
      · cases hc
      · rw [List.mem_singleton.mp hc]
        exact .inr (.inr (by decide))
    · exact .inr (.inl (hd.2 c hc))
  | op ht _ =>
    simp only [operators, List.mem_cons, List.not_mem_nil, or_false] at ht
    rcases ht with rfl | rfl | rfl | rfl | rfl | rfl | rfl | rfl | rfl | rfl | rfl | rfl | rfl |
      rfl | rfl | rfl | rfl | rfl | rfl <;>
    · simp only [List.mem_cons, List.not_mem_nil, or_false] at hc
      rcases hc with rfl | rfl <;> exact .inr (.inr (by decide))

/-- No token holds layout. -/
theorem Lexeme.not_layout {t : List Char} {k : TokenKind} (h : Lexeme t k) :
    ∀ c ∈ t, isLayout c = false := by
  intro c hc
  have hl : isLayout c = true → c.toNat = 32 ∨ c.toNat = 9 ∨ c.toNat = 10 := by
    intro hl
    simp only [isLayout, Bool.or_eq_true, beq_iff_eq] at hl
    rcases hl with (rfl | rfl) | rfl <;> simp
  rcases h.mem c hc with hc | hc | hc
  · have := isLower_iff.mp hc
    cases hlay : isLayout c
    · rfl
    · have := hl hlay
      omega
  · have := isDigit_iff.mp hc
    cases hlay : isLayout c
    · rfl
    · have := hl hlay
      omega
  · simp only [signs, List.mem_cons, List.not_mem_nil, or_false] at hc
    rcases hc with rfl | rfl | rfl | rfl | rfl | rfl | rfl | rfl | rfl | rfl | rfl | rfl | rfl |
      rfl | rfl | rfl | rfl | rfl <;> rfl

/-- No token is empty. -/
theorem Lexeme.ne_nil {t : List Char} {k : TokenKind} (h : Lexeme t k) : t ≠ [] := by
  rintro rfl
  cases h with
  | word ht => exact ht
  | int ht => exact ht.1 rfl
  | float ht => simpa using ht.mem.1
  | exp ht => simpa using ht.mem_E
  | op ht _ => simp [operators] at ht

/-- A token starts with a letter, a digit or the first character of an operator. -/
theorem Lexeme.head {c : Char} {r : List Char} {k : TokenKind} (h : Lexeme (c :: r) k) :
    c.isLower = true ∨ c.isDigit = true ∨ c ∈ operatorStarts := by
  cases h with
  | word ht => exact .inl ht.1
  | int ht => exact .inr (.inl ht.head)
  | float ht => exact .inr (.inl ht.head)
  | exp ht => exact .inr (.inl ht.head)
  | op ht _ =>
    simp only [operators, List.mem_cons, List.not_mem_nil, or_false] at ht
    rcases ht with h | h | h | h | h | h | h | h | h | h | h | h | h | h | h | h | h | h | h <;>
      (cases h; decide)

/-! ### Kinds -/

/-- The kind a token gets: a numeral by its exponent mark or decimal point, anything else by
its reserved spelling, or else it is an identifier. -/
def kindOf : List Char → TokenKind
  | [] => .ident
  | c :: r =>
    if c.isDigit then
      if 'E' ∈ c :: r then .exp else if '.' ∈ c :: r then .float else .int
    else (TokenKind.reserved? (String.ofList (c :: r))).getD .ident

/-- A lowercase letter is no digit. -/
theorem not_isDigit_of_isLower {c : Char} (h : c.isLower = true) : c.isDigit = false := by
  have := isLower_iff.mp h
  cases hd : c.isDigit
  · rfl
  · have := isDigit_iff.mp hd
    omega

/-- A token's kind is determined by its characters. -/
theorem Lexeme.kind_eq {t : List Char} {k : TokenKind} (h : Lexeme t k) : k = kindOf t := by
  obtain _ | ⟨c, r⟩ := t
  · exact absurd rfl h.ne_nil
  cases h with
  | word ht => simp [kindOf, not_isDigit_of_isLower ht.1]
  | int ht =>
    -- only digits: neither an exponent mark nor a point
    have hE : 'E' ∉ c :: r := fun hm => absurd (ht.2 _ hm) (by decide)
    have hp : '.' ∉ c :: r := fun hm => absurd (ht.2 _ hm) (by decide)
    simp [kindOf, ht.head, hE, hp]
  | float ht =>
    have hE : 'E' ∉ c :: r := fun hm => by
      rcases ht.mem.2 _ hm with h | h
      · exact absurd h (by decide)
      · cases h
    simp [kindOf, ht.head, hE, ht.mem.1]
  | exp ht => simp [kindOf, ht.head, ht.mem_E]
  | op ht hk =>
    have hd : c.isDigit = false := by
      simp only [operators, List.mem_cons, List.not_mem_nil, or_false] at ht
      rcases ht with h | h | h | h | h | h | h | h | h | h | h | h | h | h | h | h | h | h | h <;>
        (cases h; rfl)
    simp only [kindOf, hd, Bool.false_eq_true, if_false, hk, Option.getD_some]

/-- A token text has one kind: the shapes of the kinds do not overlap. -/
theorem Lexeme.kind_unique {t : List Char} {k k' : TokenKind} (h : Lexeme t k)
    (h' : Lexeme t k') : k = k' :=
  h.kind_eq.trans h'.kind_eq.symm

/-! ### Longest match and scans -/

/-- Two longest tokens at the start of one text are the same. -/
theorem Longest.unique {t t' s s' : List Char} (ht : IsToken t) (ht' : IsToken t')
    (h : Longest t s) (h' : Longest t' s') (heq : t ++ s = t' ++ s') : t = t' ∧ s = s' := by
  have hle : t'.length ≤ t.length := h t' ht' (heq ▸ List.prefix_append t' s')
  have hge : t.length ≤ t'.length := h' t ht (heq ▸ List.prefix_append t s)
  exact List.append_inj heq (by omega)

/-- A scanned text starts with layout or with the first character of a token. -/
theorem Scans.head {line : Nat} {c : Char} {s : List Char} {ts : List Scanned}
    (h : Scans line (c :: s) ts) :
    isLayout c = true ∨ c.isLower = true ∨ c.isDigit = true ∨ c ∈ operatorStarts := by
  generalize hcs : c :: s = cs at h
  cases h with
  | nil => cases hcs
  | blank hc _ =>
    obtain ⟨rfl, -⟩ := List.cons.inj hcs
    rcases hc with rfl | rfl <;> exact .inl rfl
  | newline _ =>
    obtain ⟨rfl, -⟩ := List.cons.inj hcs
    exact .inl rfl
  | @token _ t s' k _ ht _ _ =>
    obtain _ | ⟨x, t⟩ := t
    · exact absurd rfl ht.ne_nil
    · obtain ⟨rfl, -⟩ := List.cons.inj hcs
      exact .inr ht.head

/-- The tokens of a scan, put together, are the text without its layout. -/
theorem Scans.texts {line : Nat} {s : List Char} {ts : List Scanned} (h : Scans line s ts) :
    (ts.map (·.text)).flatten = s.filter fun c => !isLayout c := by
  induction h with
  | nil => rfl
  | blank hc _ ih =>
    rcases hc with rfl | rfl <;> simpa [isLayout] using ih
  | newline _ ih => simpa [isLayout] using ih
  | @token _ t _ _ _ ht _ _ ih =>
    have hkeep : t.filter (fun c => !isLayout c) = t :=
      List.filter_eq_self.mpr fun c hc => by simp [ht.not_layout c hc]
    simp [List.filter_append, hkeep, ih]

end Lexical

end RpnLang
