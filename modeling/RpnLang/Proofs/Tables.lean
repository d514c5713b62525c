import RpnLang.Tables

/-!
# What the tables keep

Nothing is ever removed from the tables: interning a constant keeps every key that was there,
and changing an identifier's entry leaves the constant table alone. An identifier is *typed*
when the entry that a lookup finds has a declared type; setting the type of one identifier
types it and keeps every other identifier's entry as it was.
-/

namespace RpnLang.Tables

/-- The constant table has an entry under `key`. -/
def HasConst (t : Tables) (key : String) : Prop :=
  (t.const? key).isSome = true

/-- Every constant key of `t` is a key of `t'`. -/
def KeysWithin (t t' : Tables) : Prop :=
  ∀ key, t.HasConst key → t'.HasConst key

theorem KeysWithin.refl (t : Tables) : t.KeysWithin t :=
  fun _ h => h

theorem KeysWithin.trans {t t' t'' : Tables} (h : t.KeysWithin t') (h' : t'.KeysWithin t'') :
    t.KeysWithin t'' :=
  fun key hk => h' key (h key hk)

/-- Tables with the same constant table have the same keys. -/
theorem KeysWithin.of_consts {t t' : Tables} (h : t'.consts = t.consts) : t.KeysWithin t' := by
  intro key hk
  simpa [HasConst, const?, h] using hk

/-- A key is in the constant table when some entry carries it. -/
theorem hasConst_iff {t : Tables} {key : String} :
    t.HasConst key ↔ ∃ c ∈ t.consts, c.key = key := by
  simp [HasConst, const?]

/-- Interning keeps every key and adds its own. -/
theorem internConst_keys (t : Tables) (key : String) (v : Value) :
    t.KeysWithin (t.internConst key v).2 ∧ (t.internConst key v).2.HasConst key := by
  unfold internConst
  split
  · -- the key is there already: the tables stay as they are
    rename_i e he
    exact ⟨KeysWithin.refl t, by simp [HasConst, he]⟩
  · -- a new entry is pushed after the old ones
    refine ⟨fun k hk => ?_, ?_⟩
    · obtain ⟨c, hc, rfl⟩ := hasConst_iff.mp hk
      exact hasConst_iff.mpr ⟨c, Array.mem_push_of_mem _ hc, rfl⟩
    · exact hasConst_iff.mpr ⟨⟨key, _, v⟩, Array.mem_push_self, rfl⟩

/-- A computed value is interned under its text, which is the key returned. -/
theorem internValue_keys (t : Tables) (v : Value) :
    t.KeysWithin (t.internValue v).2 ∧ (t.internValue v).2.HasConst (t.internValue v).1 :=
  internConst_keys t v.text v

/-- Changing an identifier entry leaves the constants alone. -/
@[simp] theorem modifyIdent_consts (t : Tables) (name : String) (f : IdentEntry → IdentEntry) :
    (t.modifyIdent name f).consts = t.consts := by
  unfold modifyIdent
  split <;> rfl

/-- Setting a type leaves the constants alone. -/
@[simp] theorem setType_consts (t : Tables) (name : String) (ty : Ty) :
    (t.setType name ty).consts = t.consts :=
  modifyIdent_consts _ _ _

/-- Storing a value in an identifier leaves the constants alone. -/
@[simp] theorem store_consts (t : Tables) (name : String) (v : Value) :
    (t.store name v).consts = t.consts :=
  modifyIdent_consts _ _ _

/-- Registering an identifier leaves the constants alone. -/
@[simp] theorem registerIdent_consts (t : Tables) (name : String) :
    (t.registerIdent name).2.consts = t.consts := by
  unfold registerIdent
  split <;> rfl

/-! ### Typed identifiers -/

/-- The entry a lookup of `name` finds has a declared type. -/
def Typed (t : Tables) (name : String) : Prop :=
  ∃ e, t.ident? name = some e ∧ e.ty.isSome = true

/-- The position of a name is the index of the first entry with that name. -/
theorem identPos?_eq (t : Tables) (name : String) :
    t.identPos? name = t.idents.toList.findIdx? (·.name == name) := by
  rcases t with ⟨⟨idents⟩, consts⟩
  simp [identPos?]

/-- The position of a key is the index of the first entry with that key. -/
theorem constPos?_eq (t : Tables) (key : String) :
    t.constPos? key = t.consts.toList.findIdx? (·.key == key) := by
  rcases t with ⟨idents, ⟨consts⟩⟩
  simp [constPos?]

/-- Looking up a name finds the first entry with that name. -/
theorem ident?_eq (t : Tables) (name : String) :
    t.ident? name = t.idents.toList.find? (·.name == name) := by
  simp [ident?]

/-- Looking up a key finds the first entry with that key. -/
theorem const?_eq (t : Tables) (key : String) :
    t.const? key = t.consts.toList.find? (·.key == key) := by
  simp [const?]

/-- Changing the first entry named `n` by a map that keeps names: a lookup of `n` finds the
changed entry. -/
theorem find?_modify_self {l : List IdentEntry} {n : String} {i : Nat}
    (f : IdentEntry → IdentEntry) (hf : ∀ e, (f e).name = e.name)
    (hi : l.findIdx? (·.name == n) = some i) :
    (l.modify i f).find? (·.name == n) = (l.find? (·.name == n)).map f := by
  induction l generalizing i with
  | nil => simp at hi
  | cons e l ih =>
    rw [List.findIdx?_cons] at hi
    by_cases he : e.name = n
    · have hi0 : i = 0 := by simpa [he, eq_comm] using hi
      subst hi0
      rw [List.modify_zero_cons, List.find?_cons_of_pos (by simp [hf, he]),
        List.find?_cons_of_pos (by simp [he])]
      rfl
    · obtain ⟨j, hj, rfl⟩ : ∃ j, l.findIdx? (·.name == n) = some j ∧ j + 1 = i := by
        simpa [he] using hi
      rw [List.modify_succ_cons, List.find?_cons_of_neg (by simp [he]),
        List.find?_cons_of_neg (by simp [he]), ih hj]

/-- Changing the first entry named `n` by a map that keeps names: a lookup of any other name
finds what it found before. -/
theorem find?_modify_other {l : List IdentEntry} {n m : String} {i : Nat}
    (f : IdentEntry → IdentEntry) (hf : ∀ e, (f e).name = e.name)
    (hi : l.findIdx? (·.name == n) = some i) (hm : m ≠ n) :
    (l.modify i f).find? (·.name == m) = l.find? (·.name == m) := by
  induction l generalizing i with
  | nil => simp at hi
  | cons e l ih =>
    rw [List.findIdx?_cons] at hi
    by_cases he : e.name = n
    · have hi0 : i = 0 := by simpa [he, eq_comm] using hi
      subst hi0
      have hem : ¬e.name = m := fun h => hm (h.symm.trans he)
      rw [List.modify_zero_cons, List.find?_cons_of_neg (by simp [hf, hem]),
        List.find?_cons_of_neg (by simp [hem])]
    · obtain ⟨j, hj, rfl⟩ : ∃ j, l.findIdx? (·.name == n) = some j ∧ j + 1 = i := by
        simpa [he] using hi
      rw [List.modify_succ_cons]
      by_cases hem : e.name = m
      · rw [List.find?_cons_of_pos (by simp [hem]), List.find?_cons_of_pos (by simp [hem])]
      · rw [List.find?_cons_of_neg (by simp [hem]), List.find?_cons_of_neg (by simp [hem]), ih hj]

/-- Setting the type of an identifier that has an entry: a lookup finds that entry with the
type. -/
theorem setType_ident?_self {t : Tables} {name : String} (ty : Ty) {e : IdentEntry}
    (he : t.ident? name = some e) : (t.setType name ty).ident? name = some { e with ty := some ty } := by
  rw [ident?_eq] at he
  have hs : (t.idents.toList.findIdx? (·.name == name)).isSome := by
    rw [List.findIdx?_isSome, ← List.isSome_find?, he]
    rfl
  obtain ⟨i, hi⟩ := Option.isSome_iff_exists.mp hs
  simp only [setType, modifyIdent, identPos?_eq, hi, ident?_eq, Array.toList_modify]
  rw [find?_modify_self (fun e => { e with ty := some ty }) (fun _ => rfl) hi, he]
  rfl

/-- Setting the type of an identifier that has an entry types it. -/
theorem setType_typed {t : Tables} {name : String} (ty : Ty) (h : (t.ident? name).isSome) :
    (t.setType name ty).Typed name := by
  obtain ⟨e, he⟩ := Option.isSome_iff_exists.mp h
  exact ⟨_, setType_ident?_self ty he, rfl⟩

/-- Setting the type of one identifier keeps every other identifier's entry. -/
theorem setType_ident?_other {t : Tables} {name m : String} (ty : Ty) (hm : m ≠ name) :
    (t.setType name ty).ident? m = t.ident? m := by
  simp only [setType, modifyIdent, identPos?_eq]
  split
  · rename_i i hi
    simp only [ident?_eq, Array.toList_modify]
    exact find?_modify_other _ (fun _ => rfl) hi hm
  · rfl

/-- Registering an identifier gives it an entry and keeps every other identifier's entry. -/
theorem registerIdent_ident? (t : Tables) (name : String) :
    ((t.registerIdent name).2.ident? name).isSome ∧
      ∀ m, m ≠ name → (t.registerIdent name).2.ident? m = t.ident? m := by
  unfold registerIdent
  split
  · -- already registered
    rename_i e he
    exact ⟨by simp [he], fun _ _ => rfl⟩
  · -- a new entry is pushed
    refine ⟨by simp [ident?, Array.find?_push], fun m hm => ?_⟩
    have : ¬name = m := fun h => hm h.symm
    simp [ident?, Array.find?_push, this]

/-! ### Stored indices -/

/-- Every entry's stored index is its position plus one. -/
structure Numbered (t : Tables) : Prop where
  /-- Identifier entries. -/
  idents : ∀ i e, t.idents.toList[i]? = some e → e.index = i + 1
  /-- Constant entries. -/
  consts : ∀ i e, t.consts.toList[i]? = some e → e.index = i + 1

/-- The empty tables are numbered. -/
theorem numbered_empty : ({} : Tables).Numbered :=
  ⟨fun _ _ h => by simp at h, fun _ _ h => by simp at h⟩

/-- An entry appended with the number of entries plus one is numbered. -/
theorem numbered_append_single {α : Type} {index : α → Nat} {l : List α} {e : α}
    (h : ∀ i x, l[i]? = some x → index x = i + 1) (he : index e = l.length + 1) :
    ∀ i x, (l ++ [e])[i]? = some x → index x = i + 1 := by
  intro i x hx
  rcases Nat.lt_or_ge i l.length with hi | hi
  · rw [List.getElem?_append_left hi] at hx
    exact h i x hx
  · rw [List.getElem?_append_right hi, List.getElem?_singleton] at hx
    obtain ⟨hi0, rfl⟩ : i - l.length = 0 ∧ e = x := by simpa using hx
    rw [he]
    omega

/-- What `find?` finds sits at the index that `findIdx?` gives. -/
theorem find?_eq_some_findIdx? {α : Type} {p : α → Bool} {l : List α} {e : α}
    (h : l.find? p = some e) : ∃ i, l.findIdx? p = some i ∧ l[i]? = some e := by
  rw [List.find?_eq_bind_findIdx?_getElem?] at h
  cases hi : l.findIdx? p with
  | none =>
    rw [hi] at h
    cases h
  | some i =>
    rw [hi] at h
    exact ⟨i, rfl, h⟩

/-- Where `find?` finds nothing, `findIdx?` finds no index. -/
theorem findIdx?_eq_none_of_find? {α : Type} {p : α → Bool} {l : List α}
    (h : l.find? p = none) : l.findIdx? p = none := by
  rw [List.find?_eq_none] at h
  rw [List.findIdx?_eq_none_iff]
  exact fun x hx => Bool.eq_false_iff.mpr (h x hx)

/-- A lookup by name finds an entry at the position of the name. -/
theorem ident?_eq_some {t : Tables} {name : String} {e : IdentEntry}
    (h : t.ident? name = some e) : ∃ i, t.identPos? name = some i ∧ t.idents.toList[i]? = some e := by
  rw [ident?_eq] at h
  rw [identPos?_eq]
  exact find?_eq_some_findIdx? h

/-- A name that no lookup finds has no position. -/
theorem ident?_eq_none {t : Tables} {name : String} (h : t.ident? name = none) :
    t.identPos? name = none := by
  rw [ident?_eq] at h
  rw [identPos?_eq]
  exact findIdx?_eq_none_of_find? h

/-- In a numbered table, registering answers one more than the position of a registered name,
and appends a new name with the number of entries plus one. -/
theorem Numbered.registerIdent_eq {t : Tables} (h : t.Numbered) (name : String) :
    t.registerIdent name =
      match t.identPos? name with
      | some i => (i + 1, t)
      | none =>
        (t.idents.size + 1,
          { t with idents := t.idents.push ⟨name, t.idents.size + 1, none, none⟩ }) := by
  unfold registerIdent
  split
  · rename_i e he
    obtain ⟨i, hi, he⟩ := ident?_eq_some he
    rw [hi, h.idents i e he]
  · rename_i he
    rw [ident?_eq_none he]

/-- Registering an identifier keeps the tables numbered: a new entry is stored with the number of
entries plus one. -/
theorem Numbered.registerIdent {t : Tables} (h : t.Numbered) (name : String) :
    (t.registerIdent name).2.Numbered := by
  unfold Tables.registerIdent
  split
  · exact h
  · refine ⟨?_, h.consts⟩
    simp only [Array.toList_push]
    exact numbered_append_single h.idents (by simp)

/-- A lookup by key finds an entry at the position of the key. -/
theorem const?_eq_some {t : Tables} {key : String} {e : ConstEntry}
    (h : t.const? key = some e) : ∃ i, t.constPos? key = some i ∧ t.consts.toList[i]? = some e := by
  rw [const?_eq] at h
  rw [constPos?_eq]
  exact find?_eq_some_findIdx? h

/-- A key that no lookup finds has no position. -/
theorem const?_eq_none {t : Tables} {key : String} (h : t.const? key = none) :
    t.constPos? key = none := by
  rw [const?_eq] at h
  rw [constPos?_eq]
  exact findIdx?_eq_none_of_find? h

/-- In a numbered table, interning answers one more than the position of a present key, and
appends a new key with the number of entries plus one. -/
theorem Numbered.internConst_eq {t : Tables} (h : t.Numbered) (key : String) (v : Value) :
    t.internConst key v =
      match t.constPos? key with
      | some i => (i + 1, t)
      | none => (t.consts.size + 1, { t with consts := t.consts.push ⟨key, t.consts.size + 1, v⟩ }) := by
  unfold internConst
  split
  · rename_i e he
    obtain ⟨i, hi, he⟩ := const?_eq_some he
    rw [hi, h.consts i e he]
  · rename_i he
    rw [const?_eq_none he]

/-- Interning a constant keeps the tables numbered. -/
theorem Numbered.internConst {t : Tables} (h : t.Numbered) (key : String) (v : Value) :
    (t.internConst key v).2.Numbered := by
  unfold Tables.internConst
  split
  · exact h
  · refine ⟨h.idents, ?_⟩
    simp only [Array.toList_push]
    exact numbered_append_single h.consts (by simp)

/-- Interning a value under its text keeps the tables numbered. -/
theorem Numbered.internValue {t : Tables} (h : t.Numbered) (v : Value) :
    (t.internValue v).2.Numbered :=
  h.internConst v.text v

/-- Changing an entry without touching its index keeps the table numbered. -/
theorem Numbered.modifyIdent {t : Tables} (h : t.Numbered) (name : String)
    {f : IdentEntry → IdentEntry} (hf : ∀ e, (f e).index = e.index) :
    (t.modifyIdent name f).Numbered := by
  unfold Tables.modifyIdent
  split
  · refine ⟨fun j e he => ?_, h.consts⟩
    rw [Array.toList_modify, List.getElem?_modify] at he
    obtain ⟨e0, he0, rfl⟩ := Option.map_eq_some_iff.mp he
    have := h.idents j e0 he0
    split <;> simp [hf, this]
  · exact h

/-- Setting an identifier's type keeps the tables numbered: the entry keeps its index. -/
theorem Numbered.setType {t : Tables} (h : t.Numbered) (name : String) (ty : Ty) :
    (t.setType name ty).Numbered :=
  h.modifyIdent name fun _ => rfl

/-- Storing a value keeps the tables numbered: the entry keeps its index. -/
theorem Numbered.store {t : Tables} (h : t.Numbered) (name : String) (v : Value) :
    (t.store name v).Numbered :=
  h.modifyIdent name fun _ => rfl

end RpnLang.Tables
