import RpnLang.Proofs.ValueText
import RpnLang.Proofs.LongestMatch
import RpnLang.Proofs.ParseInvariant
import RpnLang.Proofs.ParseProgram

/-!
# Constants hold what their keys say

The constant table keeps the first value interned under a key, and keys come from two sources:
literals are interned under their lexemes (`007`, `1.5E3`), computed values under their texts
(`7`, `1500.0`). A table is faithful when every entry holds the value its key stands for
(`Tables.Faithful`, with `Value.ofKey?` reading a key by its spelling alone); then the first
entry under a key can never give a value other than the one the key denotes.

This module shows that the translation keeps the table faithful: the lexer interns each literal
under a lexeme that stands for its value (`Lexical.Lexeme.ofKey?_eq`), and the parser adds only
the zero of a unary minus. It also introduces the relation the machine keeps
(`Tables.Extends`: every new entry is a finite computed value under its own text), and shows
that it keeps a faithful table faithful as long as the texts of the computed doubles read back.
-/

namespace RpnLang

namespace Value

/-- A value that is no infinite double and no NaN. -/
def Finite : Value → Prop
  | .float x => x.isFinite = true
  | _ => True

/-- A real numeral whose double is finite reads as that double. -/
theorem readFloat?_of_finiteFloat? {s : String} {x : Float} (h : finiteFloat? s = some x) :
    Decimal.readFloat? s = some x := by
  unfold finiteFloat? at h
  split at h
  · split at h
    · cases h
      assumption
    · cases h
  · cases h

end Value

namespace Tables

/-! ### Faithful tables -/

/-- Every constant holds the value its key stands for. -/
def Faithful (t : Tables) : Prop :=
  ∀ c ∈ t.consts, Value.ofKey? c.key = some c.value

/-- Faithfulness depends only on the constants. -/
theorem Faithful.of_consts {t t' : Tables} (h : t'.consts = t.consts) (hf : t.Faithful) :
    t'.Faithful :=
  fun c hc => hf c (h ▸ hc)

/-- Interning under a key that stands for the value keeps the table faithful. -/
theorem Faithful.internConst {t : Tables} {key : String} {v : Value} (hf : t.Faithful)
    (hk : Value.ofKey? key = some v) : (t.internConst key v).2.Faithful := by
  unfold Tables.internConst
  split
  · exact hf
  · intro c hc
    rcases Array.mem_push.mp hc with hc | rfl
    · exact hf c hc
    · exact hk

/-- In a faithful table, the text of a value that reads back is looked up as that value. -/
theorem Faithful.const?_text {t : Tables} {v : Value} (hf : t.Faithful) (hv : v.TextReadsBack)
    (hk : t.HasConst v.text) : (t.const? v.text).map (·.value) = some v := by
  obtain ⟨c, hc⟩ := Option.isSome_iff_exists.mp hk
  have hkey : c.key = v.text := by
    simpa using Array.find?_some hc
  have hval : Value.ofKey? c.key = some c.value := hf c (Array.mem_of_find?_eq_some hc)
  rw [hkey, Value.ofKey?_text hv, Option.some.injEq] at hval
  rw [hc, Option.map_some, hval]

/-! ### Computed constants -/

/-- Every constant of `t'` is one of `t`, or a finite computed value under its own text. -/
def Extends (t t' : Tables) : Prop :=
  ∀ c ∈ t'.consts, c ∈ t.consts ∨ ∃ v : Value, v.Finite ∧ c.key = v.text ∧ c.value = v

theorem Extends.refl (t : Tables) : t.Extends t :=
  fun _ hc => .inl hc

theorem Extends.trans {t t' t'' : Tables} (h : t.Extends t') (h' : t'.Extends t'') :
    t.Extends t'' := by
  intro c hc
  rcases h' c hc with hc' | hv
  · exact h c hc'
  · exact .inr hv

/-- Tables with the same constants extend each other. -/
theorem Extends.of_consts {t t' : Tables} (h : t'.consts = t.consts) : t.Extends t' :=
  fun _ hc => .inl (h ▸ hc)

/-- Interning a finite value adds at most that value under its text. -/
theorem internValue_extends (t : Tables) {v : Value} (hv : v.Finite) :
    t.Extends (t.internValue v).2 := by
  unfold Tables.internValue Tables.internConst
  split
  · exact Extends.refl t
  · intro c hc
    rcases Array.mem_push.mp hc with hc | rfl
    · exact .inl hc
    · exact .inr ⟨v, hv, rfl, rfl⟩

/-- Every double whose text is a key reads back from it. -/
def FloatKeysReadBack (t : Tables) : Prop :=
  ∀ x : Float, x.isFinite = true → t.HasConst (Value.float x).text → (Value.float x).TextReadsBack

/-- Computed entries agree with their keys when the texts of their doubles read back, so a
faithful table stays faithful. -/
theorem Extends.faithful {t t' : Tables} (he : t.Extends t') (hf : t.Faithful)
    (hr : t'.FloatKeysReadBack) : t'.Faithful := by
  intro c hc
  rcases he c hc with hc' | ⟨v, hv, hkey, hval⟩
  · exact hf c hc'
  · rw [hkey, hval]
    refine Value.ofKey?_text ?_
    cases v with
    | int n => trivial
    | float x => exact hr x hv (hasConst_iff.mpr ⟨_, hc, hkey⟩)
    | bool b => trivial

end Tables

/-! ### The lexer -/

namespace Lexical

/-- The reserved spellings of truth values. -/
theorem reserved?_boolval {s : String} (h : TokenKind.reserved? s = some .boolval) :
    s = "true" ∨ s = "false" := by
  unfold TokenKind.reserved? at h
  split at h <;> cases h <;> simp_all

/-- A truth value's lexeme stands for its value. -/
theorem truth_ofKey? {s : String} {v : Value} (hs : s = "true" ∨ s = "false")
    (hv : literalValue? s .boolval = some v) : Value.ofKey? s = some v := by
  rcases hs with rfl | rfl <;> simp_all [literalValue?, Value.ofKey?]

/-- A real literal's lexeme, a digit first and a character that is no digit in it, stands for
its double. -/
theorem real_ofKey? {c : Char} {r : List Char} {x : Float} (hc : c.isDigit = true)
    (hd : ∃ d ∈ c :: r, d.isDigit = false)
    (hv : Value.finiteFloat? (String.ofList (c :: r)) = some x) :
    Value.ofKey? (String.ofList (c :: r)) = some (.float x) := by
  have htext : (String.ofList (c :: r)).toList = [] ++ c :: r := String.toList_ofList
  rw [Value.ofKey?_of_not_key (Value.not_key htext (.inl rfl) (Value.head_of_isDigit hc) hd),
    Value.readFloat?_of_finiteFloat? hv, Option.map_some]

/-- A literal's lexeme stands for the literal's value. -/
theorem Lexeme.ofKey?_eq {t : List Char} {k : TokenKind} {v : Value} (h : Lexeme t k)
    (hk : k.isConstant = true) (hv : literalValue? (String.ofList t) k = some v) :
    Value.ofKey? (String.ofList t) = some v := by
  obtain ⟨c, r, rfl⟩ := List.exists_cons_of_ne_nil h.ne_nil
  cases h with
  | word _ =>
    -- a reserved word of a constant kind is a truth value
    cases hr : TokenKind.reserved? (String.ofList (c :: r)) with
    | none =>
      rw [hr, Option.getD_none] at hk
      exact absurd hk (by decide)
    | some k' =>
      rw [hr, Option.getD_some] at hk hv
      obtain rfl := reserved?_constant hr hk
      exact truth_ofKey? (reserved?_boolval hr) hv
  | int ht =>
    have hint := Value.isIntKey_digits String.toList_ofList (List.all_eq_true.mpr ht.2)
    obtain ⟨htrue, hfalse⟩ := Value.ne_names_of_isIntKey hint
    rw [Value.ofKey?, if_neg htrue, if_neg hfalse, if_pos hint]
    exact hv
  | float ht =>
    simp only [literalValue?, Option.map_eq_some_iff] at hv
    obtain ⟨x, hx, rfl⟩ := hv
    exact real_ofKey? ht.head ⟨'.', ht.mem.1, by decide⟩ hx
  | exp ht =>
    simp only [literalValue?, Option.map_eq_some_iff] at hv
    obtain ⟨x, hx, rfl⟩ := hv
    exact real_ofKey? ht.head ⟨'E', ht.mem_E, by decide⟩ hx
  | op _ hr =>
    obtain rfl := reserved?_constant hr hk
    exact truth_ofKey? (reserved?_boolval hr) hv

/-- The tables of a scan are faithful: each constant is a literal under its lexeme. -/
theorem tablesOf_faithful {ts : List Scanned} (hlex : ∀ x ∈ ts, Lexeme x.text x.kind) :
    (tablesOf ts).Faithful := by
  intro c hc
  simp only [tablesOf, List.mem_toArray, List.mem_mapIdx] at hc
  obtain ⟨i, hi, rfl⟩ := hc
  have hmem := List.getElem_mem hi
  simp only [List.mem_filterMap, Option.map_eq_some_iff] at hmem
  obtain ⟨p, hp, v, hv, hpv⟩ := hmem
  dsimp only
  rw [← hpv]
  simp only [literals, List.mem_eraseDups, List.mem_filterMap] at hp
  obtain ⟨x, hx, hxp⟩ := hp
  split at hxp
  · rename_i hk
    cases hxp
    exact (hlex x hx).ofKey?_eq hk hv
  · cases hxp

end Lexical

/-- The tables of a successful lexing are faithful. -/
theorem lex_faithful {lines : List String} {lexed : Lexed} (h : lex lines = .ok lexed) :
    lexed.tables.Faithful := by
  unfold lex at h
  split at h
  · rename_i lx hlx
    cases h
    rw [Lexical.foldlM_feedLine] at hlx
    obtain ⟨ts, hb, -⟩ := Lexical.run_source_scans hlx
    show lx.tables.Faithful
    rw [hb.tables]
    exact Lexical.tablesOf_faithful hb.lexemes
  · cases h

/-! ### The parser -/

namespace ParseState

/-- Faithful tables stay faithful. -/
def KeepsFaithful (s t : ParseState) : Prop :=
  s.tables.Faithful → t.tables.Faithful

/-- The parser's only constant is the zero of a unary minus, interned under its text. -/
theorem keepsFaithful_invariant : Invariant KeepsFaithful where
  refl _ := id
  trans h h' hs := h' (h hs)
  advance e hs := by
    rw [(advance_ok e).2.2]
    exact hs
  brackets _ _ := id
  emit _ _ := id
  zero _ hs := hs.internConst (Value.ofKey?_text_int 0)
  declare he h hs :=
    hs.of_consts (by rw [(declare_ok h).2.2.2, (advance_ok (expectKind_ok he).2).2.2])
  attempt failed h hs := by
    rw [leave_tables]
    exact h hs

end ParseState

/-- A successful parse against faithful tables leaves them faithful. -/
theorem parse_faithful {records : List Record} {tables : Tables} {tr : Translation}
    (h : (parse records tables).2 = .ok tr) (hf : tables.Faithful) : tr.tables.Faithful := by
  obtain ⟨s, -, -, htables, -, -, htr⟩ := parse_ok h
  rw [htr]
  exact ParseState.keepsFaithful_invariant.program_state s (htables ▸ hf)

end RpnLang
