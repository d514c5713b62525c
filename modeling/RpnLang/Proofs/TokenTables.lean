import RpnLang.Proofs.Lexical
import RpnLang.Proofs.Tables

/-!
# The tables of a scan

The lexer registers identifiers and interns literals as it closes their lexemes. What it has
built after any prefix of the tokens is determined by that prefix alone: the records of the
tokens, each carrying its place among the distinct identifiers or literals, and the tables
`tablesOf` of those tokens. Emitting one more token extends both, and it fails exactly on a
literal out of range.
-/

namespace RpnLang

namespace Lexical

/-! ### Literal values -/

/-- The only reserved spellings of constants are the truth values. -/
theorem reserved?_constant {s : String} {k : TokenKind} (h : TokenKind.reserved? s = some k)
    (hk : k.isConstant = true) : k = .boolval := by
  unfold TokenKind.reserved? at h
  split at h <;> cases h <;> simp_all [TokenKind.isConstant]

/-- A digit string reads as a 64-bit integer exactly when its value is below 2^63. -/
theorem readInt64?_isSome {t : List Char} (ht : Digits t) :
    (Decimal.readInt64? (String.ofList t)).isSome =
      decide (Decimal.digitsValue t < Nat.pow 2 63) := by
  obtain _ | ⟨c, r⟩ := t
  · exact absurd rfl ht.1
  have hsign : Decimal.splitSign (c :: r) = (false, c :: r) := by
    have hc := ht.head
    unfold Decimal.splitSign
    split
    · rename_i h
      cases h
      simp at hc
    · rename_i h
      cases h
      simp at hc
    · rfl
  have hall : (c :: r).all Char.isDigit = true := List.all_eq_true.mpr ht.2
  have hread : Decimal.readInt? (String.ofList (c :: r)) =
      some ((Decimal.digitsValue (c :: r) : Nat) : Int) := by
    simp [Decimal.readInt?, hsign, hall]
  -- the numeral is the digits' value, nonnegative, so only the upper bound can fail
  have hpow : Int.pow 2 63 = ((Nat.pow 2 63 : Nat) : Int) := rfl
  rw [Decimal.readInt64?, hread, hpow]
  dsimp only
  by_cases hv : Decimal.digitsValue (c :: r) < Nat.pow 2 63
  · rw [if_pos (by omega), decide_eq_true hv]
    rfl
  · rw [if_neg (by omega), decide_eq_false hv]
    rfl

/-- A token that is no constant is always in range. -/
theorem InRange.of_not_constant {t : List Char} {k : TokenKind} (hk : k.isConstant = false) :
    InRange t k := by
  cases k <;> simp_all [InRange, TokenKind.isConstant]

/-- A literal token has a value exactly when it is in range. -/
theorem Lexeme.value_isSome {t : List Char} {k : TokenKind} (h : Lexeme t k)
    (hk : k.isConstant = true) :
    (literalValue? (String.ofList t) k).isSome = true ↔ InRange t k := by
  cases h with
  | word _ =>
    -- an identifier is no constant, and a reserved constant is a truth value
    cases hr : TokenKind.reserved? (String.ofList t) with
    | none => simp [hr, TokenKind.isConstant] at hk
    | some k' =>
      rw [hr, Option.getD_some] at hk
      rw [Option.getD_some]
      obtain rfl := reserved?_constant hr hk
      simp [literalValue?, InRange]
  | int ht => simp [literalValue?, InRange, readInt64?_isSome ht]
  | float _ => simp [literalValue?, InRange]
  | exp _ => simp [literalValue?, InRange]
  | op _ hr =>
    obtain rfl := reserved?_constant hr hk
    simp [literalValue?, InRange]

/-! ### Distinct identifiers and literals -/

/-- The distinct identifiers of more tokens extend those of fewer. -/
theorem identNames_append (ts ts' : List Scanned) :
    ∃ e, identNames (ts ++ ts') = identNames ts ++ e := by
  simp only [identNames, List.filterMap_append, List.eraseDups_append]
  exact ⟨_, rfl⟩

/-- The distinct literals of more tokens extend those of fewer. -/
theorem literals_append (ts ts' : List Scanned) :
    ∃ e, literals (ts ++ ts') = literals ts ++ e := by
  simp only [literals, List.filterMap_append, List.eraseDups_append]
  exact ⟨_, rfl⟩

/-- Every identifier token's text is among the distinct identifiers. -/
theorem mem_identNames {ts : List Scanned} {x : Scanned} (hx : x ∈ ts) (hk : x.kind = .ident) :
    String.ofList x.text ∈ identNames ts := by
  simp only [identNames, List.mem_eraseDups, List.mem_filterMap]
  exact ⟨x, hx, by simp [hk]⟩

/-- Every literal token's text and kind are among the distinct literals. -/
theorem mem_literals {ts : List Scanned} {x : Scanned} (hx : x ∈ ts)
    (hk : x.kind.isConstant = true) : (String.ofList x.text, x.kind) ∈ literals ts := by
  simp only [literals, List.mem_eraseDups, List.mem_filterMap]
  exact ⟨x, hx, by simp [hk]⟩

/-- Removing duplicates after appending one element appends it unless it was already there. -/
theorem eraseDups_append_singleton {α : Type} [BEq α] [LawfulBEq α] (l : List α) (a : α) :
    (l ++ [a]).eraseDups = if a ∈ l then l.eraseDups else l.eraseDups ++ [a] := by
  rw [List.eraseDups_append]
  by_cases h : a ∈ l <;> simp [List.removeAll, List.eraseDups_cons, h]

/-- An identifier token adds its text to the distinct identifiers unless it is there already. -/
theorem identNames_append_ident {ts : List Scanned} {x : Scanned} (hk : x.kind = .ident) :
    identNames (ts ++ [x]) =
      if String.ofList x.text ∈ identNames ts then identNames ts
      else identNames ts ++ [String.ofList x.text] := by
  simp only [identNames, List.filterMap_append, List.filterMap_cons, List.filterMap_nil, hk,
    ↓reduceIte, eraseDups_append_singleton, List.mem_eraseDups]

/-- A token that is no identifier adds no identifier. -/
theorem identNames_append_other {ts : List Scanned} {x : Scanned} (hk : x.kind ≠ .ident) :
    identNames (ts ++ [x]) = identNames ts := by
  simp [identNames, hk]

/-- A literal token adds its text and kind to the distinct literals unless they are there
already. -/
theorem literals_append_const {ts : List Scanned} {x : Scanned} (hk : x.kind.isConstant = true) :
    literals (ts ++ [x]) =
      if (String.ofList x.text, x.kind) ∈ literals ts then literals ts
      else literals ts ++ [(String.ofList x.text, x.kind)] := by
  simp only [literals, List.filterMap_append, List.filterMap_cons, List.filterMap_nil, hk,
    ↓reduceIte, eraseDups_append_singleton, List.mem_eraseDups]

/-- A token that is no constant adds no literal. -/
theorem literals_append_other {ts : List Scanned} {x : Scanned} (hk : x.kind.isConstant = false) :
    literals (ts ++ [x]) = literals ts := by
  simp [literals, hk]

/-- Appending tokens does not move the places of the earlier ones. -/
theorem Scanned.record_append {ts ts' : List Scanned} {x : Scanned} (hx : x ∈ ts) :
    x.record (ts ++ ts') = x.record ts := by
  obtain ⟨e, he⟩ := identNames_append ts ts'
  obtain ⟨f, hf⟩ := literals_append ts ts'
  by_cases hk : x.kind = .ident
  · simp [Scanned.record, hk, he, List.idxOf_append, mem_identNames hx hk]
  · by_cases hc : x.kind.isConstant = true
    · simp [Scanned.record, hk, hc, hf, List.idxOf_append, mem_literals hx hc]
    · simp [Scanned.record, hk, hc]

/-! ### Lookups in the tables of a scan -/

/-- The first index of an element is its `idxOf` when it is present. -/
theorem findIdx?_beq {α : Type} [BEq α] [LawfulBEq α] (l : List α) (a : α) :
    l.findIdx? (· == a) = if a ∈ l then some (l.idxOf a) else none := by
  split
  · rename_i h
    exact List.findIdx?_eq_some_iff_findIdx_eq.mpr ⟨List.idxOf_lt_length_of_mem h, rfl⟩
  · rename_i h
    refine List.findIdx?_eq_none_iff.mpr fun x hx => ?_
    simp only [beq_eq_false_iff_ne]
    rintro rfl
    exact h hx

/-- The tables of a scan give every entry its place plus one. -/
theorem tablesOf_numbered (ts : List Scanned) : (tablesOf ts).Numbered := by
  constructor
  · intro i e he
    simp only [tablesOf, List.toList_toArray, List.getElem?_mapIdx] at he
    obtain ⟨n, -, rfl⟩ := Option.map_eq_some_iff.mp he
    rfl
  · intro i e he
    simp only [tablesOf, List.toList_toArray, List.getElem?_mapIdx] at he
    obtain ⟨p, -, rfl⟩ := Option.map_eq_some_iff.mp he
    rfl

/-- The identifier names of a scan's tables are its distinct identifiers, in order. -/
theorem names_tablesOf (ts : List Scanned) :
    (tablesOf ts).idents.toList.map (·.name) = identNames ts := by
  apply List.ext_getElem?
  intro i
  simp only [tablesOf, List.toList_toArray, List.getElem?_map, List.getElem?_mapIdx,
    Option.map_map]
  cases (identNames ts)[i]? <;> rfl

/-- The position of a name in a scan's tables is its place among the distinct identifiers. -/
theorem identPos?_tablesOf (ts : List Scanned) (n : String) :
    (tablesOf ts).identPos? n =
      if n ∈ identNames ts then some ((identNames ts).idxOf n) else none := by
  rw [Tables.identPos?_eq, ← findIdx?_beq, ← names_tablesOf, List.findIdx?_map]
  rfl

/-- The keys of the constants: every literal in range keeps its lexeme. -/
theorem keys_filterMap {l : List (String × TokenKind)}
    (h : ∀ p ∈ l, (literalValue? p.1 p.2).isSome = true) :
    (l.filterMap fun p => (literalValue? p.1 p.2).map fun v => (p.1, v)).map (·.1) =
      l.map (·.1) := by
  induction l with
  | nil => rfl
  | cons p l ih =>
    obtain ⟨v, hv⟩ := Option.isSome_iff_exists.mp (h p List.mem_cons_self)
    simp [hv, ih fun q hq => h q (List.mem_cons_of_mem p hq)]

/-- The literals of a scan all have the kind their lexeme determines. -/
theorem literals_kind {ts : List Scanned} (h : ∀ x ∈ ts, Lexeme x.text x.kind) :
    ∀ p ∈ literals ts, p.2 = kindOf p.1.toList := by
  intro p hp
  simp only [literals, List.mem_eraseDups, List.mem_filterMap] at hp
  obtain ⟨x, hx, hp⟩ := hp
  split at hp
  · cases hp
    simpa using (h x hx).kind_eq
  · cases hp

/-- The literals of a scan in range all have values. -/
theorem literals_isSome {ts : List Scanned} (hlex : ∀ x ∈ ts, Lexeme x.text x.kind)
    (hrange : ∀ x ∈ ts, InRange x.text x.kind) :
    ∀ p ∈ literals ts, (literalValue? p.1 p.2).isSome = true := by
  intro p hp
  simp only [literals, List.mem_eraseDups, List.mem_filterMap] at hp
  obtain ⟨x, hx, hp⟩ := hp
  split at hp
  · rename_i hc
    cases hp
    exact ((hlex x hx).value_isSome hc).mpr (hrange x hx)
  · cases hp

/-- Looking a lexeme up by key finds its literal, since no lexeme has two kinds. -/
theorem findIdx?_key {l : List (String × TokenKind)} {n : String} {k : TokenKind}
    (hl : ∀ p ∈ l, p.1 = n → p.2 = k) : l.findIdx? (·.1 == n) = l.findIdx? (· == (n, k)) := by
  induction l with
  | nil => rfl
  | cons p l ih =>
    have hp : (p.1 == n) = (p == (n, k)) := by
      rw [Bool.eq_iff_iff, beq_iff_eq, beq_iff_eq]
      constructor
      · intro h
        exact Prod.ext h (hl p List.mem_cons_self h)
      · rintro rfl
        rfl
    simp only [List.findIdx?_cons, hp, ih fun q hq => hl q (List.mem_cons_of_mem p hq)]

/-- When every literal of a scan has a value, the keys of its tables are the literals' lexemes,
in order. -/
theorem keys_tablesOf {ts : List Scanned} (hlex : ∀ x ∈ ts, Lexeme x.text x.kind)
    (hrange : ∀ x ∈ ts, InRange x.text x.kind) :
    (tablesOf ts).consts.toList.map (·.key) = (literals ts).map (·.1) := by
  rw [← keys_filterMap (literals_isSome hlex hrange)]
  apply List.ext_getElem?
  intro i
  simp only [tablesOf, List.toList_toArray, List.getElem?_map, List.getElem?_mapIdx,
    Option.map_map]
  rfl

/-- The position of a lexeme in the tables of a scan is the place of its literal among the
distinct literals: no lexeme has two kinds. -/
theorem constPos?_tablesOf {ts : List Scanned} (hlex : ∀ x ∈ ts, Lexeme x.text x.kind)
    (hrange : ∀ x ∈ ts, InRange x.text x.kind) {n : String} {k : TokenKind}
    (hk : k = kindOf n.toList) :
    (tablesOf ts).constPos? n = (literals ts).findIdx? (· == (n, k)) := by
  have hkind : ∀ p ∈ literals ts, p.1 = n → p.2 = k := by
    intro p hp hn
    rw [literals_kind hlex p hp, hn, hk]
  rw [← findIdx?_key hkind, Tables.constPos?_eq]
  have := congrArg (List.findIdx? (· == n)) (keys_tablesOf hlex hrange)
  simpa [List.findIdx?_map, Function.comp_def] using this

/-! ### Registering and interning -/

/-- Registering the lexeme of an identifier token gives its place among the distinct
identifiers and the tables of the longer scan. -/
theorem registerIdent_tablesOf {ts : List Scanned} {x : Scanned} (hk : x.kind = .ident) :
    (tablesOf ts).registerIdent (String.ofList x.text) =
      ((identNames (ts ++ [x])).idxOf (String.ofList x.text) + 1, tablesOf (ts ++ [x])) := by
  have hother : literals (ts ++ [x]) = literals ts := literals_append_other (by rw [hk]; rfl)
  rw [(tablesOf_numbered ts).registerIdent_eq, identPos?_tablesOf]
  by_cases hn : String.ofList x.text ∈ identNames ts
  · simp [hn, tablesOf, hother, identNames_append_ident hk]
  · simp [hn, tablesOf, hother, identNames_append_ident hk, List.idxOf_append, List.mapIdx_concat]

/-- Interning the lexeme of a literal token in range gives its place among the distinct literals
and the tables of the longer scan. -/
theorem internConst_tablesOf {ts : List Scanned} {x : Scanned} {v : Value}
    (hlex : ∀ y ∈ ts, Lexeme y.text y.kind) (hrange : ∀ y ∈ ts, InRange y.text y.kind)
    (hx : Lexeme x.text x.kind) (hk : x.kind.isConstant = true)
    (hv : literalValue? (String.ofList x.text) x.kind = some v) :
    (tablesOf ts).internConst (String.ofList x.text) v =
      ((literals (ts ++ [x])).idxOf (String.ofList x.text, x.kind) + 1,
        tablesOf (ts ++ [x])) := by
  have hother : identNames (ts ++ [x]) = identNames ts :=
    identNames_append_other fun h => by rw [h] at hk; cases hk
  have hlen := congrArg List.length (keys_filterMap (literals_isSome hlex hrange))
  simp only [List.length_map] at hlen
  have hsize : (tablesOf ts).consts.size = (literals ts).length := by
    simpa using congrArg List.length (keys_tablesOf hlex hrange)
  have hkind : x.kind = kindOf (String.ofList x.text).toList := by
    rw [String.toList_ofList]
    exact hx.kind_eq
  rw [(tablesOf_numbered ts).internConst_eq, constPos?_tablesOf hlex hrange hkind, findIdx?_beq]
  by_cases hn : (String.ofList x.text, x.kind) ∈ literals ts
  · simp [hn, tablesOf, hother, literals_append_const hk]
  · simp only [hn, if_false, hsize]
    simp [tablesOf, hother, literals_append_const hk, hn, List.idxOf_append, hv,
      List.mapIdx_concat, hlen]

/-! ### The lexer's state after a prefix of the tokens -/

/-- The lexer holds what the tokens `ts` determine: their records and tables, and every token
is one of its kind and in range. -/
structure Built (lx : Lexer) (ts : List Scanned) : Prop where
  /-- The tables are those of the tokens. -/
  tables : lx.tables = tablesOf ts
  /-- The records are the tokens' records, in order. -/
  records : lx.records.toList = ts.map (Scanned.record ts)
  /-- Every token has the shape of its kind. -/
  lexemes : ∀ x ∈ ts, Lexeme x.text x.kind
  /-- Every literal is in range. -/
  inRange : ∀ x ∈ ts, InRange x.text x.kind

/-- The empty lexer holds what no tokens determine. -/
theorem Built.empty : Built {} [] :=
  ⟨rfl, rfl, nofun, nofun⟩

/-- Only the tables and the records matter. -/
theorem Built.congr {lx lx' : Lexer} {ts : List Scanned} (h : Built lx ts)
    (ht : lx'.tables = lx.tables) (hr : lx'.records = lx.records) : Built lx' ts :=
  ⟨ht ▸ h.tables, hr ▸ h.records, h.lexemes, h.inRange⟩

/-- Emitting a token of its kind, on its line, records it and enters it in the tables; a
successful emission also shows that it is in range. -/
theorem emit_built {lx lx' : Lexer} {ts : List Scanned} {x : Scanned} {c : Char}
    (hb : Built lx ts) (hx : Lexeme x.text x.kind) (hline : x.line = lx.line)
    (h : lx.emit (String.ofList x.text) x.kind c = .ok lx') : Built lx' (ts ++ [x]) := by
  obtain ⟨htab, hrec, hlex, hrange⟩ := hb
  have hlex' : ∀ y ∈ ts ++ [x], Lexeme y.text y.kind := by
    simpa [List.mem_append, or_imp, forall_and] using ⟨hlex, hx⟩
  have hrange' : InRange x.text x.kind → ∀ y ∈ ts ++ [x], InRange y.text y.kind :=
    fun hx => by simpa [List.mem_append, or_imp, forall_and] using ⟨hrange, hx⟩
  have hstable : ts.map (Scanned.record (ts ++ [x])) = ts.map (Scanned.record ts) :=
    List.map_congr_left fun y hy => Scanned.record_append hy
  unfold Lexer.emit at h
  split at h
  · -- an identifier
    rename_i hk
    simp only [htab, registerIdent_tablesOf hk] at h
    cases h
    refine ⟨rfl, ?_, hlex', hrange' (InRange.of_not_constant (by rw [hk]; rfl))⟩
    simp [hrec, hstable, Scanned.record, hk, hline]
  · rename_i hk
    split at h
    · -- a literal: its value exists exactly when it is in range
      rename_i hc
      split at h
      · cases h
      · rename_i v hv
        simp only [htab, internConst_tablesOf hlex hrange hx hc hv] at h
        cases h
        refine ⟨rfl, ?_, hlex', hrange' ((hx.value_isSome hc).mp (by simp [hv]))⟩
        simp [hrec, hstable, Scanned.record, hk, hc, hline]
    · -- any other token enters no table
      rename_i hc
      have hc' : x.kind.isConstant = false := by simpa using hc
      cases h
      refine ⟨?_, ?_, hlex', hrange' (InRange.of_not_constant hc')⟩
      · simp [htab, tablesOf, identNames_append_other hk, literals_append_other hc']
      · simp [hrec, hstable, Scanned.record, hk, hc', hline]

/-- A token in range is always emitted. -/
theorem emit_ok {lx : Lexer} {x : Scanned} (c : Char) (hx : Lexeme x.text x.kind)
    (hr : InRange x.text x.kind) :
    ∃ lx', lx.emit (String.ofList x.text) x.kind c = .ok lx' := by
  unfold Lexer.emit
  split
  · exact ⟨_, rfl⟩
  · split
    · rename_i hc
      obtain ⟨v, hv⟩ := Option.isSome_iff_exists.mp ((hx.value_isSome hc).mpr hr)
      simp only [hv]
      exact ⟨_, rfl⟩
    · exact ⟨_, rfl⟩

end Lexical

end RpnLang
