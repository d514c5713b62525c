import Mathlib.Data.List.Forall2
import RpnLang.Proofs.LexedRecords
import RpnLang.Proofs.Rollback

/-!
# The tables only grow

The identifier and the constant table are insertion-ordered maps: an entry's stored index is its
place plus one, and no stage ever removes or moves an entry. Keys are unique and indices are
places plus one (`Tables.Keyed`) because an entry is appended, with the number of entries plus
one, only under a key that is not there yet. What each stage may change is a
relation between the tables before and after it:

* the lexer only appends entries (`Tables.Grows`), and the record of every identifier or literal
  it closes carries the index of its lexeme's entry (`Tables.Indexes`);
* the parser only gives a declared type to an identifier that had none and at most appends the
  zero of a unary minus (`Tables.Declares`). It never adds an identifier: every identifier it
  declares is a record still to be read, and the lexer registered all of those.

The machine's relation, and the statement over all three stages, follow in `MachineTables`.
-/

namespace RpnLang

/-! ### Lists -/

section Lists

variable {α : Type}

/-- Changing one place of a list by a map related to the identity there, where every element is
related to itself. -/
theorem forall₂_modify {P : α → α → Prop} {f : α → α} :
    ∀ {l : List α} {i : Nat}, (∀ e ∈ l, P e e) → (∀ e, l[i]? = some e → P e (f e)) →
      List.Forall₂ P l (l.modify i f)
  | [], _, _, _ => by simp
  | e :: l, 0, hrefl, hi => by
    rw [List.modify_zero_cons]
    exact .cons (hi e rfl) (List.forall₂_same.mpr fun x hx => hrefl x (List.mem_cons_of_mem _ hx))
  | e :: l, i + 1, hrefl, hi => by
    rw [List.modify_succ_cons]
    exact .cons (hrefl e List.mem_cons_self)
      (forall₂_modify (fun x hx => hrefl x (List.mem_cons_of_mem _ hx)) hi)

/-- Entrywise relations compose when the relation does. -/
theorem forall₂_trans {P : α → α → Prop} (hP : ∀ {a b c}, P a b → P b c → P a c)
    {l₁ l₂ l₃ : List α} (h : List.Forall₂ P l₁ l₂) (h' : List.Forall₂ P l₂ l₃) :
    List.Forall₂ P l₁ l₃ := by
  induction h generalizing l₃ with
  | nil => exact h'
  | cons hab _ ih =>
    cases h' with
    | cons hbc hrest => exact .cons (hP hab hbc) (ih hrest)

/-- Elements related only to elements with the same image: the images agree. -/
theorem map_eq_of_forall₂ {β : Type} {P : α → α → Prop} {f : α → β}
    (hf : ∀ {a b}, P a b → f b = f a) {l₁ l₂ : List α} (h : List.Forall₂ P l₁ l₂) :
    l₂.map f = l₁.map f := by
  induction h with
  | nil => rfl
  | cons hab _ ih => rw [List.map_cons, List.map_cons, hf hab, ih]

/-- An element of a prefix is at the same position in the whole list. -/
theorem getElem?_of_prefix {l l' : List α} (h : l <+: l') {i : Nat} {a : α} (hi : l[i]? = some a) :
    l'[i]? = some a := by
  obtain ⟨rest, rfl⟩ := h
  rw [List.getElem?_append_left (List.getElem?_eq_some_iff.mp hi).1]
  exact hi

/-- The place a search by name finds holds that name. -/
theorem getElem?_of_findIdx? {l : List α} {f : α → String} {n : String} {i : Nat}
    (h : l.findIdx? (fun e => f e == n) = some i) : (l.map f)[i]? = some n := by
  obtain ⟨hi, hp, -⟩ := List.findIdx?_eq_some_iff_getElem.mp h
  simp [hi, beq_iff_eq.mp hp]

/-- A search by name that finds nothing: the name is not there. -/
theorem not_mem_of_findIdx? {l : List α} {f : α → String} {n : String}
    (h : l.findIdx? (fun e => f e == n) = none) : n ∉ l.map f := by
  intro hm
  obtain ⟨e, he, rfl⟩ := List.mem_map.mp hm
  simpa using List.findIdx?_eq_none_iff.mp h e he

/-- Appending an element that is not there keeps a list without repetitions. -/
theorem nodup_append_single {l : List α} {a : α} (h : l.Nodup) (ha : a ∉ l) :
    (l ++ [a]).Nodup := by
  refine List.nodup_append.mpr ⟨h, List.nodup_cons.mpr ⟨List.not_mem_nil, List.nodup_nil⟩, ?_⟩
  intro b hb c hc hbc
  rw [List.mem_singleton] at hc
  exact ha (hc ▸ hbc ▸ hb)

end Lists

/-! ### Identifier entries -/

namespace IdentEntry

/-- `e'` is `e`, or `e` given a declared type where it had none; the name, the index and the value
stay. -/
def Declared (e e' : IdentEntry) : Prop :=
  e'.name = e.name ∧ e'.index = e.index ∧ e'.value = e.value ∧
    (e'.ty = e.ty ∨ (e.ty = none ∧ e'.ty.isSome = true))

theorem Declared.refl (e : IdentEntry) : e.Declared e :=
  ⟨rfl, rfl, rfl, .inl rfl⟩

/-- A type is given at most once: after it, the entry keeps it. -/
theorem Declared.trans {e e' e'' : IdentEntry} (h : e.Declared e') (h' : e'.Declared e'') :
    e.Declared e'' := by
  obtain ⟨hn, hi, hv, ht⟩ := h
  obtain ⟨hn', hi', hv', ht'⟩ := h'
  refine ⟨hn'.trans hn, hi'.trans hi, hv'.trans hv, ?_⟩
  rcases ht with ht | ⟨hnone, hsome⟩ <;> rcases ht' with ht' | ⟨hnone', hsome'⟩
  · exact .inl (ht'.trans ht)
  · exact .inr ⟨ht ▸ hnone', hsome'⟩
  · exact .inr ⟨hnone, ht' ▸ hsome⟩
  · rw [hnone'] at hsome
    cases hsome

end IdentEntry

namespace Tables

/-! ### Names, keys and places -/

/-- The identifiers' names, in table order. -/
def names (t : Tables) : List String :=
  t.idents.toList.map (·.name)

/-- The constants' keys, in table order. -/
def keys (t : Tables) : List String :=
  t.consts.toList.map (·.key)

/-- A lookup finds a name exactly when it is among the names. -/
theorem ident?_isSome_iff {t : Tables} {n : String} : (t.ident? n).isSome ↔ n ∈ t.names := by
  rw [ident?_eq, List.isSome_find?, List.any_eq_true]
  simp [names]

/-- At the place a search by name finds, the table holds the entry a lookup finds. -/
theorem getElem?_identPos? {t : Tables} {n : String} {i : Nat} (h : t.identPos? n = some i) :
    t.idents.toList[i]? = t.ident? n := by
  rw [ident?_eq, List.find?_eq_bind_findIdx?_getElem?, ← identPos?_eq, h]
  rfl

/-- A key with no entry is not among the keys. -/
theorem not_mem_keys_of_hasConst {t : Tables} {key : String} (h : ¬ t.HasConst key) :
    key ∉ t.keys := by
  intro hk
  obtain ⟨c, hc, rfl⟩ := List.mem_map.mp hk
  exact h (hasConst_iff.mpr ⟨c, by simpa using hc, rfl⟩)

/-- No two identifiers share a name, no two constants share a key, and every entry's stored index
is its place plus one. -/
structure Keyed (t : Tables) : Prop where
  /-- Identifier names are unique. -/
  names : t.names.Nodup
  /-- Constant keys are unique. -/
  keys : t.keys.Nodup
  /-- Stored indices are places plus one. -/
  numbered : t.Numbered

/-- The empty tables are keyed. -/
theorem keyed_empty : ({} : Tables).Keyed :=
  ⟨List.nodup_nil, List.nodup_nil, numbered_empty⟩

/-- A change that keeps every entry's index keeps the indices equal to the positions plus one. -/
theorem numbered_of_forall₂ {α : Type} {index : α → Nat} {P : α → α → Prop}
    (hP : ∀ a b, P a b → index b = index a) {l l' : List α} (hl : List.Forall₂ P l l')
    (h : ∀ i x, l[i]? = some x → index x = i + 1) : ∀ i x, l'[i]? = some x → index x = i + 1 := by
  intro i x hx
  obtain ⟨hlen, hrel⟩ := List.forall₂_iff_get.mp hl
  obtain ⟨hi, rfl⟩ := List.getElem?_eq_some_iff.mp hx
  have hil : i < l.length := hlen ▸ hi
  have hx' := hrel i hil hi
  simp only [List.get_eq_getElem] at hx'
  rw [hP _ _ hx']
  exact h i _ (List.getElem?_eq_getElem hil)

/-- `t'` extends `t`: every identifier keeps its place and name, every constant its place, key
and value. -/
structure Grows (t t' : Tables) : Prop where
  /-- The names of `t` begin those of `t'`. -/
  names : t.names <+: t'.names
  /-- The constants of `t` begin those of `t'`. -/
  consts : t.consts.toList <+: t'.consts.toList

theorem Grows.refl (t : Tables) : t.Grows t :=
  ⟨List.prefix_refl _, List.prefix_refl _⟩

theorem Grows.trans {t t' t'' : Tables} (h : t.Grows t') (h' : t'.Grows t'') : t.Grows t'' :=
  ⟨h.names.trans h'.names, h.consts.trans h'.consts⟩

/-- Growing tables keep their keys as a prefix. -/
theorem Grows.keys {t t' : Tables} (h : t.Grows t') : t.keys <+: t'.keys :=
  h.consts.map _

/-- A record's index names the entry of its lexeme: an identifier's index is one more than the
place of its name, a literal's one more than the place of its key. -/
structure Indexes (t : Tables) (r : Record) : Prop where
  /-- An identifier indexes its name. -/
  ident : r.kind = .ident → ∃ i, r.index = some (i + 1) ∧ t.names[i]? = some r.lexeme
  /-- A literal indexes its key. -/
  const : r.kind.isConstant = true → ∃ i, r.index = some (i + 1) ∧ t.keys[i]? = some r.lexeme

/-- Entries that stay at their places keep every index valid. -/
theorem Indexes.mono {t t' : Tables} {r : Record} (h : t.Grows t') (hr : t.Indexes r) :
    t'.Indexes r := by
  constructor
  · intro hk
    obtain ⟨i, hi, hn⟩ := hr.ident hk
    exact ⟨i, hi, getElem?_of_prefix h.names hn⟩
  · intro hk
    obtain ⟨i, hi, hn⟩ := hr.const hk
    exact ⟨i, hi, getElem?_of_prefix h.keys hn⟩

/-- Keys are unique and each of the records indexes the entry of its lexeme. -/
structure Indexed (t : Tables) (records : Array Record) : Prop where
  /-- Keys are unique. -/
  keyed : t.Keyed
  /-- Every record indexes its entry. -/
  indexes : ∀ r ∈ records, t.Indexes r

/-- Indexing survives growth of the tables, as long as the keys stay unique. -/
theorem Indexed.mono {t t' : Tables} {records : Array Record} (h : t.Indexed records)
    (hg : t.Grows t') (hk : t'.Keyed) : t'.Indexed records :=
  ⟨hk, fun r hr => (h.indexes r hr).mono hg⟩

/-! ### Registering and interning -/

/-- Registering an identifier only appends to the identifier entries. -/
theorem registerIdent_idents_grow (t : Tables) (n : String) :
    t.idents.toList <+: (t.registerIdent n).2.idents.toList := by
  unfold registerIdent
  split
  · exact List.prefix_refl _
  · rw [Array.toList_push]
    exact List.prefix_append _ _

/-- Registering in numbered tables answers the index of the entry that holds the name. -/
theorem registerIdent_index {t : Tables} (h : t.Numbered) (n : String) :
    ∃ i, (t.registerIdent n).1 = i + 1 ∧ (t.registerIdent n).2.names[i]? = some n := by
  rw [h.registerIdent_eq]
  split
  · rename_i i hi
    rw [identPos?_eq] at hi
    exact ⟨i, rfl, getElem?_of_findIdx? hi⟩
  · exact ⟨t.idents.size, rfl, by simp [names]⟩

/-- Registering an identifier grows the tables. -/
theorem registerIdent_grows (t : Tables) (n : String) : t.Grows (t.registerIdent n).2 :=
  ⟨(registerIdent_idents_grow t n).map _, by simp only [registerIdent_consts, List.prefix_refl]⟩

/-- A new name is appended only when it is not there. -/
theorem Keyed.registerIdent {t : Tables} (h : t.Keyed) (n : String) :
    (t.registerIdent n).2.Keyed := by
  refine ⟨?_, by rw [Tables.keys, registerIdent_consts]; exact h.keys, h.numbered.registerIdent n⟩
  unfold Tables.registerIdent
  split
  · exact h.names
  · rename_i hi
    have hpos := ident?_eq_none hi
    rw [identPos?_eq] at hpos
    have hnew := not_mem_of_findIdx? hpos
    simp only [Tables.names, Array.toList_push, List.map_append, List.map_cons, List.map_nil]
    exact nodup_append_single h.names hnew

/-- Interning a constant only appends to the constant entries. -/
theorem internConst_consts_grow (t : Tables) (key : String) (v : Value) :
    t.consts.toList <+: (t.internConst key v).2.consts.toList := by
  unfold internConst
  split
  · exact List.prefix_refl _
  · rw [Array.toList_push]
    exact List.prefix_append _ _

/-- Interning in numbered tables answers the index of the entry that holds the key. -/
theorem internConst_index {t : Tables} (h : t.Numbered) (key : String) (v : Value) :
    ∃ i, (t.internConst key v).1 = i + 1 ∧ (t.internConst key v).2.keys[i]? = some key := by
  rw [h.internConst_eq]
  split
  · rename_i i hi
    rw [constPos?_eq] at hi
    exact ⟨i, rfl, getElem?_of_findIdx? hi⟩
  · exact ⟨t.consts.size, rfl, by simp [keys]⟩

/-- Interning a constant grows the tables. -/
theorem internConst_grows (t : Tables) (key : String) (v : Value) :
    t.Grows (t.internConst key v).2 :=
  ⟨by simp only [names, internConst_idents, List.prefix_refl], internConst_consts_grow t key v⟩

/-- A new key is appended only when it is not there. -/
theorem Keyed.internConst {t : Tables} (h : t.Keyed) (key : String) (v : Value) :
    (t.internConst key v).2.Keyed := by
  refine ⟨by rw [Tables.names, internConst_idents]; exact h.names, ?_, h.numbered.internConst key v⟩
  unfold Tables.internConst
  split
  · exact h.keys
  · rename_i hi
    have hpos := const?_eq_none hi
    rw [constPos?_eq] at hpos
    have hnew := not_mem_of_findIdx? hpos
    simp only [Tables.keys, Array.toList_push, List.map_append, List.map_cons, List.map_nil]
    exact nodup_append_single h.keys hnew

/-! ### Declarations -/

/-- `t'` is `t` with declared types given to identifiers that had none, and at most the zero
appended to the constants. -/
structure Declares (t t' : Tables) : Prop where
  /-- Entry by entry, the identifiers stay or gain a declared type. -/
  idents : List.Forall₂ IdentEntry.Declared t.idents.toList t'.idents.toList
  /-- The constants gain at most the zero. -/
  consts : t.ZeroAppended t'

theorem Declares.refl (t : Tables) : t.Declares t :=
  ⟨List.forall₂_same.mpr fun e _ => IdentEntry.Declared.refl e, .of_consts rfl⟩

/-- Declaring composes; the zero is appended at most once, since its key stays. -/
theorem Declares.trans {t t' t'' : Tables} (h : t.Declares t') (h' : t'.Declares t'') :
    t.Declares t'' :=
  ⟨forall₂_trans (P := IdentEntry.Declared) IdentEntry.Declared.trans h.idents h'.idents,
    h.consts.trans h'.consts⟩

/-- Declaring keeps the identifier names, in order. -/
theorem Declares.names_eq {t t' : Tables} (h : t.Declares t') : t'.names = t.names :=
  map_eq_of_forall₂ (fun hd => hd.1) h.idents

/-- Appending at most the zero grows the constants. -/
theorem ZeroAppended.consts_grow {t t' : Tables} (h : t.ZeroAppended t') :
    t.consts.toList <+: t'.consts.toList := by
  rcases h with h | ⟨-, h⟩
  · simp only [h, List.prefix_refl]
  · rw [h, Array.toList_push]
    exact List.prefix_append _ _

/-- Declaring grows the tables. -/
theorem Declares.grows {t t' : Tables} (h : t.Declares t') : t.Grows t' :=
  ⟨h.names_eq ▸ List.prefix_refl _, h.consts.consts_grow⟩

/-- Declaring keeps every name and index, and the zero is appended only under a new key, with the
number of constants plus one. -/
theorem Declares.keyed {t t' : Tables} (h : t.Declares t') (hk : t.Keyed) : t'.Keyed := by
  have hidents : ∀ i e, t'.idents.toList[i]? = some e → e.index = i + 1 :=
    numbered_of_forall₂ (fun _ _ hd => hd.2.1) h.idents hk.numbered.idents
  rcases h.consts with hc | ⟨hnew, hc⟩
  · refine ⟨h.names_eq ▸ hk.names, by rw [keys, hc]; exact hk.keys, hidents, ?_⟩
    rw [hc]
    exact hk.numbered.consts
  · refine ⟨h.names_eq ▸ hk.names, ?_, hidents, ?_⟩
    · rw [keys, hc, Array.toList_push, List.map_append]
      exact nodup_append_single hk.keys (not_mem_keys_of_hasConst hnew)
    · rw [hc, Array.toList_push]
      exact numbered_append_single hk.numbered.consts (by simp [zeroEntry])

/-- Declaring keeps every record indexing the entry of its lexeme. -/
theorem Declares.indexed {t t' : Tables} {records : Array Record} (h : t.Declares t')
    (hi : t.Indexed records) : t'.Indexed records :=
  hi.mono h.grows (h.keyed hi.keyed)

/-- Changing the entry of a name relates the identifiers entry by entry, when every entry is
related to itself and the change relates the entry that a lookup of the name finds. -/
theorem forall₂_modifyIdent {P : IdentEntry → IdentEntry → Prop} {t : Tables} {n : String}
    {f : IdentEntry → IdentEntry} (hrefl : ∀ e, P e e)
    (hf : ∀ e, t.ident? n = some e → P e (f e)) :
    List.Forall₂ P t.idents.toList (t.modifyIdent n f).idents.toList := by
  unfold modifyIdent
  split
  · rename_i i hi
    rw [Array.toList_modify]
    -- the entry changed is the one the lookup finds
    refine forall₂_modify (fun e _ => hrefl e) fun e he => hf e ?_
    rw [← getElem?_identPos? hi]
    exact he
  · exact List.forall₂_same.mpr fun e _ => hrefl e

/-- Giving an untyped identifier a type. -/
theorem declares_setType {t : Tables} {n : String} {e : IdentEntry} (ty : Ty)
    (he : t.ident? n = some e) (hty : e.ty = none) : t.Declares (t.setType n ty) := by
  refine ⟨forall₂_modifyIdent IdentEntry.Declared.refl fun e' he' => ?_,
    .of_consts (setType_consts t n ty)⟩
  rw [he] at he'
  cases he'
  exact ⟨rfl, rfl, rfl, .inr ⟨hty, rfl⟩⟩

/-- Declaring an identifier that has an entry types it, if it had no type. -/
theorem declares_declare {t t' : Tables} {name : Record} {ty : Ty} (hn : name.lexeme ∈ t.names)
    (h : t.declare name ty = .ok t') : t.Declares t' := by
  unfold Tables.declare at h
  split at h
  · rename_i e he
    split at h
    · cases h
    · rename_i hty
      cases h
      exact declares_setType ty he (Option.not_isSome_iff_eq_none.mp hty)
  · rename_i he
    have hsome := ident?_isSome_iff.mpr hn
    rw [he] at hsome
    cases hsome

end Tables

/-! ### The lexer -/

namespace Lexer

/-- The tables are keyed and every record indexes the entry of its lexeme. -/
def Indexed (lx : Lexer) : Prop :=
  lx.tables.Indexed lx.records

/-- From `lx` to `lx'` the tables and the records only grew, and an indexed lexer stayed
indexed. -/
structure Appends (lx lx' : Lexer) : Prop where
  /-- The tables only grew. -/
  tables : lx.tables.Grows lx'.tables
  /-- The records only grew. -/
  records : lx.records.toList <+: lx'.records.toList
  /-- Keys stay unique and indices valid. -/
  indexed : lx.Indexed → lx'.Indexed

/-- A lexer step that keeps the tables and the records appends. -/
theorem Appends.of_eq {lx lx' : Lexer} (ht : lx'.tables = lx.tables)
    (hr : lx'.records = lx.records) : Appends lx lx' :=
  ⟨ht ▸ Tables.Grows.refl _, hr ▸ List.prefix_refl _, fun h => by
    unfold Indexed
    rw [ht, hr]
    exact h⟩

theorem Appends.trans {lx lx' lx'' : Lexer} (h : Appends lx lx') (h' : Appends lx' lx'') :
    Appends lx lx'' :=
  ⟨h.tables.trans h'.tables, h.records.trans h'.records, h'.indexed ∘ h.indexed⟩

/-- Appending a record that indexes its entry, to tables that grew and stayed keyed. -/
theorem appends_push {lx : Lexer} {t : Tables} {r : Record} (hg : lx.tables.Grows t)
    (hk : lx.tables.Keyed → t.Keyed) (hr : lx.tables.Keyed → t.Indexes r) :
    Appends lx { lx with tables := t, records := lx.records.push r } := by
  refine ⟨hg, by rw [Array.toList_push]; exact List.prefix_append _ _, fun hi => ⟨hk hi.keyed, ?_⟩⟩
  intro x hx
  rcases Array.mem_push.mp hx with hx | rfl
  · exact (hi.indexes x hx).mono hg
  · exact hr hi.keyed

/-- Emitting a record: an identifier is registered and a literal interned, and the record
carries the index of the entry. -/
theorem emit_appends {lx lx' : Lexer} {lexeme : String} {kind : TokenKind} {c : Char}
    (h : lx.emit lexeme kind c = .ok lx') : Appends lx lx' := by
  unfold emit at h
  split at h
  · rename_i hid
    rcases hreg : lx.tables.registerIdent lexeme with ⟨i, tables⟩
    rw [hreg] at h
    cases h
    have hg := lx.tables.registerIdent_grows lexeme
    have hk := fun hk : lx.tables.Keyed => hk.registerIdent lexeme
    have hix := fun hk : lx.tables.Keyed => Tables.registerIdent_index hk.numbered lexeme
    rw [hreg] at hg hk hix
    refine appends_push hg hk fun hkeyed => ?_
    obtain ⟨j, hj, hn⟩ := hix hkeyed
    refine ⟨fun _ => ⟨j, congrArg some hj, hn⟩, fun hc => ?_⟩
    rw [hid] at hc
    cases hc
  · split at h
    · rename_i hid hconst
      split at h
      · cases h
      · rename_i v _
        rcases hint : lx.tables.internConst lexeme v with ⟨i, tables⟩
        rw [hint] at h
        cases h
        have hg := lx.tables.internConst_grows lexeme v
        have hk := fun hk : lx.tables.Keyed => hk.internConst lexeme v
        have hix := fun hk : lx.tables.Keyed => Tables.internConst_index hk.numbered lexeme v
        rw [hint] at hg hk hix
        refine appends_push hg hk fun hkeyed => ?_
        obtain ⟨j, hj, hn⟩ := hix hkeyed
        exact ⟨fun hk => absurd hk hid, fun _ => ⟨j, congrArg some hj, hn⟩⟩
    · -- any other record carries no index and enters no table
      rename_i hid hconst
      cases h
      exact appends_push (Tables.Grows.refl _) id fun _ =>
        ⟨fun hk => absurd hk hid, fun hc => absurd hc hconst⟩

/-- Every step of the lexer only appends. -/
theorem step_appends {lx lx' : Lexer} {c : Char} (h : lx.step c = .ok lx') : Appends lx lx' :=
  step_rel (fun ht hr => Appends.of_eq ht hr) Appends.trans (fun h _ => emit_appends h) h

/-- Feeding a line only appends to the tables and the records, and keeps them indexed. -/
theorem feedLine_appends {lx lx' : Lexer} {line : String} (h : lx.feedLine line = .ok lx') :
    Appends lx lx' :=
  foldlM_keeps (P := Appends lx) (fun _ _ _ hs hl => hl.trans (step_appends hs)) _ _ _ h
    (Appends.of_eq rfl rfl)

/-- Lexing more lines after some only appends. -/
theorem foldlM_feedLine_appends {lines : List String} {lx lx' : Lexer}
    (h : lines.foldlM feedLine lx = .ok lx') : Appends lx lx' :=
  foldlM_keeps (P := Appends lx) (fun _ _ _ hs hl => hl.trans (feedLine_appends hs)) _ _ _ h
    (Appends.of_eq rfl rfl)

end Lexer

/-- The tables of a lexed source are keyed, and every record indexes the entry of its lexeme. -/
theorem lex_indexed {lines : List String} {lexed : Lexed} (h : lex lines = .ok lexed) :
    lexed.tables.Indexed lexed.records := by
  unfold lex at h
  split at h
  · rename_i lx hlx
    cases h
    exact (Lexer.foldlM_feedLine_appends hlx).indexed ⟨Tables.keyed_empty, fun r hr => by simp at hr⟩
  · cases h

/-- Lexing more lines keeps the tables and the records of the first ones and appends to them. -/
theorem lex_append {lines₁ lines₂ : List String} {lexed : Lexed}
    (h : lex (lines₁ ++ lines₂) = .ok lexed) :
    ∃ lexed₁, lex lines₁ = .ok lexed₁ ∧ lexed₁.tables.Grows lexed.tables ∧
      lexed₁.records.toList <+: lexed.records.toList := by
  unfold lex at h
  rw [List.foldlM_append] at h
  cases h₁ : lines₁.foldlM Lexer.feedLine {} with
  | error e =>
    rw [h₁] at h
    cases h
  | ok lx₁ =>
    rw [h₁] at h
    split at h
    · rename_i lx hlx
      cases h
      have happ := Lexer.foldlM_feedLine_appends hlx
      exact ⟨⟨lx₁.records, lx₁.tables⟩, by simp [lex, h₁], happ.tables, happ.records⟩
    · cases h

/-! ### The parser -/

namespace ParseState

/-- Every identifier record still to be read has an entry. -/
def Registered (s : ParseState) : Prop :=
  ∀ r ∈ s.rest, r.kind = .ident → r.lexeme ∈ s.tables.names

/-- From `s` to `t`: if every identifier still to be read in `s` has an entry, then so in `t`,
and the tables of `t` are those of `s` with declared types and at most the zero. -/
def OnlyDeclares (s t : ParseState) : Prop :=
  s.Registered → t.Registered ∧ s.tables.Declares t.tables

/-- A step that keeps the tables and reads only records of the start only declares. -/
theorem OnlyDeclares.of_eq {s t : ParseState} (hr : ∀ r ∈ t.rest, r ∈ s.rest)
    (ht : t.tables = s.tables) : OnlyDeclares s t := by
  intro hs
  refine ⟨fun r hr' hk => ?_, ht ▸ Tables.Declares.refl _⟩
  rw [ht]
  exact hs r (hr r hr') hk

theorem OnlyDeclares.trans {s t u : ParseState} (h : OnlyDeclares s t) (h' : OnlyDeclares t u) :
    OnlyDeclares s u := by
  intro hs
  obtain ⟨ht, hd⟩ := h hs
  obtain ⟨hu, hd'⟩ := h' ht
  exact ⟨hu, hd.trans hd'⟩

/-- The parser's tables change only by declarations and the zero, and only identifiers that the
records name are declared. -/
theorem onlyDeclares_invariant : Invariant OnlyDeclares where
  refl _ := .of_eq (fun _ h => h) rfl
  trans := OnlyDeclares.trans
  advance e := by
    obtain ⟨hr, -, ht⟩ := advance_ok e
    exact .of_eq (fun x hx => by rw [hr]; exact List.mem_cons_of_mem _ hx) ht
  brackets _ _ := .of_eq (fun _ h => h) rfl
  emit _ _ := .of_eq (fun _ h => h) rfl
  zero s := by
    intro hs
    have hid : (s.tables.internValue (.int 0)).2.idents = s.tables.idents :=
      Tables.internConst_idents _ _ _
    refine ⟨fun r hr hk => ?_, ⟨?_, Tables.zeroAppended_internValue s.tables⟩⟩
    · show r.lexeme ∈ (s.tables.internValue (.int 0)).2.names
      rw [Tables.names, hid]
      exact hs r hr hk
    · rw [hid]
      exact List.forall₂_same.mpr fun e _ => IdentEntry.Declared.refl e
  declare he hd := by
    intro hs
    obtain ⟨hk, ha⟩ := expectKind_ok he
    obtain ⟨hr, -, ht⟩ := advance_ok ha
    -- the declared identifier was the next record, so it has an entry
    have hname : _ := hs _ (by rw [hr]; exact List.mem_cons_self) hk
    rw [← ht] at hname
    have hdecl := Tables.declares_declare hname hd
    refine ⟨fun r hr' hk' => ?_, ht ▸ hdecl⟩
    show r.lexeme ∈ _
    rw [hdecl.names_eq, ht]
    exact hs r (by rw [hr]; exact List.mem_cons_of_mem _ hr') hk'
  attempt failed h := by
    intro hs
    obtain ⟨ht, hd⟩ := h hs
    refine ⟨fun r hr hk => ?_, by rw [leave_tables]; exact hd⟩
    rw [leave_tables, hd.names_eq]
    rw [leave_rest] at hr
    cases failed
    · exact hd.names_eq ▸ ht r hr hk
    · exact hs r hr hk

end ParseState

end RpnLang
