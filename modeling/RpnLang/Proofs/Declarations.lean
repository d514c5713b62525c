import RpnLang.Proofs.ParseComplete

/-!
# What the declarations declare

Declarations are type keywords, each followed by a list of names and `;`. They are read with the
tables: each name in turn gets the type of its list unless it has a type already, in which case
the declaration fails at that name, on its line. So, for declarations whose names have no type
beforehand:

* when no name is declared twice, the declarations are read to their end, every declared name
  gets the type of its list's keyword, and every other identifier keeps the type it had
  (`declarations_declares`);
* when some name is declared twice, the declarations fail at the earliest name that repeats one
  before it (`FirstRepeat`), in the same list or a later one, with that name and its line
  (`declarations_clash`), and so does the whole program.

Main statement: `declarations_type_or_duplicate`.
-/

namespace RpnLang

open ParseState Reply

/-! ### Declared types -/

/-- The declared type of an identifier: none when it has no entry or its entry has no type. -/
def Tables.typeOf? (t : Tables) (name : String) : Option Ty :=
  (t.ident? name).bind (·.ty)

/-- An identifier is typed exactly when it has a declared type. -/
theorem Tables.typed_iff_typeOf? {t : Tables} {name : String} :
    t.Typed name ↔ t.typeOf? name ≠ none := by
  unfold Typed typeOf?
  cases t.ident? name with
  | none => simp
  | some e => simp [Option.isSome_iff_ne_none]

/-- A declaration that succeeds gives the name the type and keeps every other identifier's. -/
theorem Tables.declare_typeOf? {t t' : Tables} {name : Record} {ty : Ty}
    (h : t.declare name ty = .ok t') :
    t'.typeOf? name.lexeme = some ty ∧ ∀ m, m ≠ name.lexeme → t'.typeOf? m = t.typeOf? m := by
  unfold Tables.declare at h
  split at h
  · rename_i e he
    split at h
    · cases h
    · cases h
      refine ⟨by simp [typeOf?, setType_ident?_self ty he], fun m hm => ?_⟩
      simp [typeOf?, setType_ident?_other ty hm]
  · cases h
    obtain ⟨hreg, hother⟩ := registerIdent_ident? t name.lexeme
    obtain ⟨e, he⟩ := Option.isSome_iff_exists.mp hreg
    refine ⟨by simp [typeOf?, setType_ident?_self ty he], fun m hm => ?_⟩
    simp [typeOf?, setType_ident?_other ty hm, hother m hm]

/-- Declaring a name that has a type fails at the name's line. -/
theorem Tables.declare_of_typed {t : Tables} {name : Record} (ty : Ty) (h : t.Typed name.lexeme) :
    t.declare name ty = .error ⟨name.line, .duplicateDeclaration name.lexeme⟩ := by
  obtain ⟨e, he, hty⟩ := h
  unfold Tables.declare
  rw [he]
  dsimp only
  rw [if_pos hty]

/-- A successful declaration of one name, as a table of types. -/
theorem Tables.typeOf?_declare {t t' : Tables} {name : Record} {ty : Ty}
    (h : t.declare name ty = .ok t') (m : String) :
    t'.typeOf? m = if m ∈ [name.lexeme] then some ty else t.typeOf? m := by
  obtain ⟨hself, hother⟩ := Tables.declare_typeOf? h
  by_cases hm : m = name.lexeme
  · rw [if_pos (List.mem_singleton.mpr hm), hm, hself]
  · rw [if_neg (fun h => hm (List.mem_singleton.mp h)), hother m hm]

/-- Tables that give the names `names` a type and keep every other identifier's: records that
had no type and are not among those names still have none, and a record that repeats one of the
names, one of those records, or had a type, still clashes. -/
theorem Tables.clash_of_declared {t t' : Tables} {names : List String} {ty : Ty}
    (ht' : ∀ m, t'.typeOf? m = if m ∈ names then some ty else t.typeOf? m)
    {pre : List Record} {x : Record} (hdisj : ∀ y ∈ pre, y.lexeme ∉ names)
    (hfresh : ∀ y ∈ pre, t.typeOf? y.lexeme = none)
    (hx : x.lexeme ∈ names ++ pre.map (·.lexeme) ∨ t.typeOf? x.lexeme ≠ none) :
    (∀ y ∈ pre, t'.typeOf? y.lexeme = none) ∧
      (x.lexeme ∈ pre.map (·.lexeme) ∨ t'.typeOf? x.lexeme ≠ none) := by
  refine ⟨fun y hy => ?_, ?_⟩
  · rw [ht', if_neg (hdisj y hy)]
    exact hfresh y hy
  · rw [ht']
    by_cases hxn : x.lexeme ∈ names
    · exact .inr (by simp [hxn])
    · rw [if_neg hxn]
      rcases hx with hx | hx
      · exact .inl ((List.mem_append.mp hx).resolve_left hxn)
      · exact .inr hx

/-! ### One name of a list -/

/-- A name whose declaration fails stops the list with that error. -/
theorem declNames_error (ty : Ty) {s : ParseState} {x : Record} {rest : List Record}
    (hs : s.rest = x :: rest) (hx : x.kind = .ident) {e : ParseError}
    (hd : s.tables.declare x ty = .error e) : (declNames s ty).result = .error e := by
  obtain ⟨t, h', hek, -, -⟩ := expectKind_cons hs hx
  have htab : t.tables = s.tables := (advance_ok (expectKind_ok hek).2).2.2
  rw [declNames, hek]
  dsimp only
  rw [htab, hd]

/-- A name that has a type stops the list with a duplicate declaration on its line. -/
theorem declNames_typed (ty : Ty) {s : ParseState} {x : Record} {rest : List Record}
    (hs : s.rest = x :: rest) (hx : x.kind = .ident) (htyped : s.tables.typeOf? x.lexeme ≠ none) :
    (declNames s ty).result = .error ⟨x.line, .duplicateDeclaration x.lexeme⟩ :=
  declNames_error ty hs hx (Tables.declare_of_typed ty (Tables.typed_iff_typeOf?.mpr htyped))

/-- The last name of a list, declared: the list ends after it, with the tables of the
declaration. -/
theorem declNames_last_ok (ty : Ty) {s : ParseState} {x : Record} {rest : List Record}
    (hs : s.rest = x :: rest) (hx : x.kind = .ident) {tables : Tables}
    (hd : s.tables.declare x ty = .ok tables) (hrest : ∀ r ∈ rest.head?, r.Is "," .punct = false) :
    (declNames s ty).Ends rest s.brackets.stack ∧ (declNames s ty).state.tables = tables := by
  obtain ⟨t, h', hek, hrest', hb⟩ := expectKind_cons hs hx
  have htab : t.tables = s.tables := (advance_ok (expectKind_ok hek).2).2.2
  have hc : ({ t with tables } : ParseState).check "," .punct = false :=
    check_of_head (by simpa [hrest'] using hrest)
  rw [declNames, hek]
  dsimp only
  rw [htab, hd]
  dsimp only
  rw [if_neg (by simp [hc])]
  exact ⟨⟨rfl, hrest', congrArg Brackets.stack hb⟩, rfl⟩

/-- A name followed by a comma, declared: the list goes on after the comma, with the tables of
the declaration. -/
theorem declNames_cons_ok (ty : Ty) {s : ParseState} {x comma : Record} {rest : List Record}
    (hs : s.rest = x :: comma :: rest) (hx : x.kind = .ident) {tables : Tables}
    (hd : s.tables.declare x ty = .ok tables) (hcomma : comma.Is "," .punct = true) :
    ∃ u : ParseState, u.rest = rest ∧ u.brackets = s.brackets ∧ u.tables = tables ∧
      (declNames s ty).Same (declNames u ty) := by
  obtain ⟨t, h', hek, hrest', hb⟩ := expectKind_cons hs hx
  have htab : t.tables = s.tables := (advance_ok (expectKind_ok hek).2).2.2
  obtain ⟨u, hu, ha, hurest, hub⟩ := advance_cons (s := { t with tables }) hrest'
  refine ⟨u, hurest, hub.trans hb, (advance_ok ha).2.2, ?_⟩
  rw [declNames, hek]
  dsimp only
  rw [htab, hd]
  dsimp only
  rw [if_pos (by simp [check, hrest', hcomma]), ha]
  exact same_widen _ _

/-! ### A list of names -/

/-- An identifier without a declared type can be declared. -/
theorem Tables.declare_of_typeOf?_none {t : Tables} {name : Record} (ty : Ty)
    (h : t.typeOf? name.lexeme = none) : ∃ t', t.declare name ty = .ok t' :=
  Tables.declare_of_untyped ty fun ht => Tables.typed_iff_typeOf?.mp ht h

/-- A list of names none of which has a type, and none twice, is declared to its end: each name
gets the type, every other identifier keeps its own. The induction is on the names after the
first. -/
theorem declNames_declares (ty : Ty) (ns : Names) {s : ParseState} {rest : List Record}
    (hs : s.rest = ns.yield ++ rest) (hrest : ∀ r ∈ rest.head?, r.Is "," .punct = false)
    (hfresh : ∀ x ∈ ns.lexemes, s.tables.typeOf? x = none) (hnodup : ns.lexemes.Nodup) :
    (declNames s ty).Ends rest s.brackets.stack ∧
      ∀ m, (declNames s ty).state.tables.typeOf? m =
        if m ∈ ns.lexemes then some ty else s.tables.typeOf? m := by
  obtain ⟨first, more⟩ := ns
  induction more generalizing first s with
  | nil =>
    have hlex : (Names.mk first []).lexemes = [first.1.lexeme] := by
      simp [Names.lexemes, Names.idents]
    simp only [Names.yield, List.flatMap_nil, List.cons_append, List.nil_append] at hs
    have hfirst : s.tables.typeOf? first.1.lexeme = none := hfresh _ (by simp [hlex])
    obtain ⟨tables, hd⟩ := Tables.declare_of_typeOf?_none ty hfirst
    obtain ⟨hends, htab⟩ := declNames_last_ok ty hs first.2 hd hrest
    obtain ⟨hself, hother⟩ := Tables.declare_typeOf? hd
    refine ⟨hends, fun m => ?_⟩
    rw [htab, hlex]
    by_cases hm : m = first.1.lexeme
    · simp [hm, hself]
    · simp [hm, hother m hm]
  | cons p more ih =>
    obtain ⟨comma, x⟩ := p
    have hlex : (Names.mk first ((comma, x) :: more)).lexemes =
        first.1.lexeme :: (Names.mk x more).lexemes := Names.lexemes_cons first comma ⟨x, more⟩
    have hyield : (Names.mk first ((comma, x) :: more)).yield =
        first.1 :: comma.1 :: (Names.mk x more).yield := Names.yield_cons first comma ⟨x, more⟩
    rw [hyield, List.cons_append, List.cons_append] at hs
    rw [hlex] at hfresh hnodup ⊢
    obtain ⟨hnew, hnodup'⟩ := List.nodup_cons.mp hnodup
    obtain ⟨tables, hd⟩ := Tables.declare_of_typeOf?_none ty (hfresh _ List.mem_cons_self)
    obtain ⟨hself, hother⟩ := Tables.declare_typeOf? hd
    obtain ⟨u, hu, hub, hutab, hsame⟩ := declNames_cons_ok ty hs first.2 hd comma.2
    -- the names after the comma still have no type: none of them is the first
    have hfresh' : ∀ y ∈ (Names.mk x more).lexemes, u.tables.typeOf? y = none := fun y hy => by
      rw [hutab, hother y (fun h => hnew (h ▸ hy))]
      exact hfresh y (List.mem_cons_of_mem _ hy)
    obtain ⟨hends, htypes⟩ := ih x hu hfresh' hnodup'
    rw [hub] at hends
    refine ⟨hsame.ends hends, fun m => ?_⟩
    rw [hsame.2, htypes, hutab]
    by_cases hm : m = first.1.lexeme
    · subst hm
      simp [hnew, hself]
    · simp [hm, hother m hm]

/-- The first name of a list that has a type by the time it is declared, because it had one or
repeats an earlier name of the list, stops the list with a duplicate declaration on its line.
The induction is on the names after the first. -/
theorem declNames_clash (ty : Ty) (ns : Names) {s : ParseState} {rest : List Record}
    (hs : s.rest = ns.yield ++ rest) {pre post : List Record} {x : Record}
    (hsplit : ns.idents = pre ++ x :: post) (hnodup : (pre.map (·.lexeme)).Nodup)
    (hfresh : ∀ y ∈ pre, s.tables.typeOf? y.lexeme = none)
    (hx : x.lexeme ∈ pre.map (·.lexeme) ∨ s.tables.typeOf? x.lexeme ≠ none) :
    (declNames s ty).result = .error ⟨x.line, .duplicateDeclaration x.lexeme⟩ := by
  obtain ⟨first, more⟩ := ns
  induction more generalizing first s pre with
  | nil =>
    simp only [Names.yield, List.flatMap_nil, List.cons_append, List.nil_append] at hs
    simp only [Names.idents, List.map_nil] at hsplit
    cases pre with
    | nil =>
      -- the first name is the one with a type
      obtain ⟨rfl, -⟩ := List.cons.inj hsplit
      exact declNames_typed ty hs first.2 (by simpa using hx)
    | cons y pre => simp at hsplit
  | cons p more ih =>
    obtain ⟨comma, x'⟩ := p
    have hyield : (Names.mk first ((comma, x') :: more)).yield =
        first.1 :: comma.1 :: (Names.mk x' more).yield := Names.yield_cons first comma ⟨x', more⟩
    have hidents : (Names.mk first ((comma, x') :: more)).idents =
        first.1 :: (Names.mk x' more).idents := Names.idents_cons first comma ⟨x', more⟩
    rw [hyield, List.cons_append, List.cons_append] at hs
    rw [hidents] at hsplit
    cases pre with
    | nil =>
      obtain ⟨rfl, -⟩ := List.cons.inj hsplit
      exact declNames_typed ty hs first.2 (by simpa using hx)
    | cons y pre =>
      -- the first name is declared, and the clash lies further on
      obtain ⟨rfl, hsplit'⟩ := List.cons.inj hsplit
      rw [List.map_cons] at hnodup hx
      obtain ⟨hnew, hnodup'⟩ := List.nodup_cons.mp hnodup
      obtain ⟨tables, hd⟩ :=
        Tables.declare_of_typeOf?_none ty (hfresh _ List.mem_cons_self)
      obtain ⟨u, hu, -, hutab, hsame⟩ := declNames_cons_ok ty hs first.2 hd comma.2
      obtain ⟨hfresh', hx'⟩ := Tables.clash_of_declared
        (fun m => hutab ▸ Tables.typeOf?_declare hd m)
        (fun z hz h => hnew ((List.mem_singleton.mp h : z.lexeme = first.1.lexeme) ▸
          List.mem_map_of_mem hz))
        (fun z hz => hfresh z (List.mem_cons_of_mem _ hz)) (by rwa [List.singleton_append])
      rw [hsame.1]
      exact ih hnodup' hfresh' hx' x' hu hsplit'

/-! ### Declarations -/

/-- The identifiers named in declarations, in order. -/
def Decl.idents (ds : List Decl) : List Record :=
  ds.flatMap (·.names.idents)

/-- Every declaration's keyword names a type. -/
theorem Decl.type_eq (d : Decl) : ∃ ty, Ty.ofKeyword? d.ty.1.lexeme = some ty :=
  Option.isSome_iff_exists.mp d.ty.2.2

/-- A record that is no type keyword ends the declarations. -/
theorem declaredType?_eq_none {s : ParseState}
    (h : ∀ r ∈ s.rest.head?, ¬(r.kind = .keyword ∧ (Ty.ofKeyword? r.lexeme).isSome)) :
    s.declaredType? = none := by
  unfold declaredType?
  split
  · rename_i r rs hs
    have hr := h r (by simp [hs])
    split
    · rename_i hk
      simpa [hk] using hr
    · rfl
  · rfl

/-- An error stops a sequence with that error. -/
theorem Reply.andThen_error {s : ParseState} {r : Reply s}
    {k : (t : ParseState) → t.rest.length ≤ s.rest.length → Reply t} {e : ParseError}
    (h : r.result = .error e) : (r.andThen k).result = .error e := by
  obtain ⟨res, t, ht⟩ := r
  cases h
  rfl

/-- Declarations that begin with a declaration of new names are read past its `;`, and go on
from there with the tables in which those names have the declaration's type. -/
theorem declarations_step (d : Decl) (ds : List Decl) {s : ParseState} {rest : List Record}
    (hs : s.rest = (d :: ds).flatMap Decl.yield ++ rest) {ty : Ty}
    (hty : Ty.ofKeyword? d.ty.1.lexeme = some ty)
    (hfresh : ∀ x ∈ d.names.lexemes, s.tables.typeOf? x = none) (hnodup : d.names.lexemes.Nodup) :
    ∃ v : ParseState, v.rest = ds.flatMap Decl.yield ++ rest ∧
      v.brackets.stack = s.brackets.stack ∧
      (∀ m, v.tables.typeOf? m = if m ∈ d.names.lexemes then some ty else s.tables.typeOf? m) ∧
      (declarations s).Same (declarations v) := by
  simp only [List.flatMap_cons, Decl.yield, List.cons_append, List.append_assoc] at hs
  have hdt : s.declaredType? = some ty := by simp [declaredType?, hs, d.ty.2.1, hty]
  obtain ⟨t, h', ha, hrest, hb⟩ := advance_cons hs
  have htab : t.tables = s.tables := (advance_ok ha).2.2
  have hsemi : d.semi.1.Is "," .punct = false := Record.is_of_ne d.semi.2 (by decide)
  obtain ⟨hnames, htypes⟩ := declNames_declares ty d.names (s := t) hrest (by simp [hsemi])
    (fun x hx => htab ▸ hfresh x hx) hnodup
  obtain ⟨v, hv, he, hvrest, hvb⟩ := expect_cons hnames.2.1 d.semi.2
  have hvtab : v.tables = (declNames t ty).state.tables := (advance_ok (expect_ok he).2).2.2
  refine ⟨v, hvrest, by rw [hvb, hnames.2.2, hb], fun m => by rw [hvtab, htypes, htab], ?_⟩
  rw [declarations, hdt]
  dsimp only
  rw [ha]
  dsimp only
  refine (same_widen _ _).trans ((andThen_same ⟨hnames.1, rfl⟩).trans ?_)
  rw [he]
  exact same_widen _ _

/-- Declarations whose first list of names fails fail with its error. -/
theorem declarations_error_of_names (d : Decl) (ds : List Decl) {s : ParseState}
    {rest : List Record} (hs : s.rest = (d :: ds).flatMap Decl.yield ++ rest) {ty : Ty}
    (hty : Ty.ofKeyword? d.ty.1.lexeme = some ty) {e : ParseError}
    (h : ∀ t : ParseState, t.rest = d.names.yield ++ d.semi.1 :: (ds.flatMap Decl.yield ++ rest) →
      t.tables = s.tables → (declNames t ty).result = .error e) :
    (declarations s).result = .error e := by
  simp only [List.flatMap_cons, Decl.yield, List.cons_append, List.append_assoc] at hs
  have hdt : s.declaredType? = some ty := by simp [declaredType?, hs, d.ty.2.1, hty]
  obtain ⟨t, h', ha, hrest, -⟩ := advance_cons hs
  rw [declarations, hdt]
  dsimp only
  rw [ha]
  exact Reply.andThen_error (h t hrest (advance_ok ha).2.2)

/-- Declarations whose names have no type, none declared twice, are read to their end: each
name gets the type of its declaration's keyword, and every other identifier keeps its own. The
induction is on the declarations; the names still to come keep having no type. -/
theorem declarations_declares (ds : List Decl) {s : ParseState} {rest : List Record}
    (hs : s.rest = ds.flatMap Decl.yield ++ rest)
    (hstop : ∀ r ∈ rest.head?, ¬(r.kind = .keyword ∧ (Ty.ofKeyword? r.lexeme).isSome))
    (hfresh : ∀ x ∈ Decl.lexemes ds, s.tables.typeOf? x = none)
    (hnodup : (Decl.lexemes ds).Nodup) :
    (declarations s).Ends rest s.brackets.stack ∧
      (∀ d ∈ ds, ∀ x ∈ d.names.lexemes,
        (declarations s).state.tables.typeOf? x = Ty.ofKeyword? d.ty.1.lexeme) ∧
      ∀ m, m ∉ Decl.lexemes ds → (declarations s).state.tables.typeOf? m = s.tables.typeOf? m := by
  induction ds generalizing s with
  | nil =>
    rw [List.flatMap_nil, List.nil_append] at hs
    rw [declarations, declaredType?_eq_none (hs ▸ hstop)]
    exact ⟨⟨rfl, hs, rfl⟩, by simp, fun _ _ => rfl⟩
  | cons d ds ih =>
    have hlex : Decl.lexemes (d :: ds) = d.names.lexemes ++ Decl.lexemes ds := by
      simp [Decl.lexemes]
    rw [hlex] at hfresh hnodup
    obtain ⟨hnd, hnds, hdisj⟩ := List.nodup_append.mp hnodup
    obtain ⟨ty, hty⟩ := Decl.type_eq d
    obtain ⟨v, hvrest, hvb, hvtypes, hsame⟩ := declarations_step d ds hs hty
      (fun x hx => hfresh x (List.mem_append_left _ hx)) hnd
    -- the names of the later declarations were not declared by this one
    have hfresh' : ∀ x ∈ Decl.lexemes ds, v.tables.typeOf? x = none := fun x hx => by
      rw [hvtypes, if_neg (fun h => hdisj x h x hx rfl)]
      exact hfresh x (List.mem_append_right _ hx)
    obtain ⟨hends, htypes, hkeep⟩ := ih (s := v) hvrest hfresh' hnds
    rw [hvb] at hends
    refine ⟨hsame.ends hends, fun d' hd' x hx => ?_, fun m hm => ?_⟩
    · rw [hsame.2]
      rcases List.mem_cons.mp hd' with rfl | hd'
      · -- a name of the first declaration is not declared again later
        have hnot : x ∉ Decl.lexemes ds := fun h => hdisj x hx x h rfl
        rw [hkeep x hnot, hvtypes, if_pos hx, hty]
      · exact htypes d' hd' x hx
    · rw [hlex] at hm
      rw [hsame.2, hkeep m (fun h => hm (List.mem_append_right _ h)), hvtypes,
        if_neg (fun h => hm (List.mem_append_left _ h))]

/-- The first declared name that has a type by the time it is declared, because it had one or
repeats an earlier declared name, in its own list or an earlier one, stops the declarations
with a duplicate declaration on its line. The induction is on the declarations. -/
theorem declarations_clash (ds : List Decl) {s : ParseState} {rest : List Record}
    (hs : s.rest = ds.flatMap Decl.yield ++ rest) {pre post : List Record} {x : Record}
    (hsplit : Decl.idents ds = pre ++ x :: post) (hnodup : (pre.map (·.lexeme)).Nodup)
    (hfresh : ∀ y ∈ pre, s.tables.typeOf? y.lexeme = none)
    (hx : x.lexeme ∈ pre.map (·.lexeme) ∨ s.tables.typeOf? x.lexeme ≠ none) :
    (declarations s).result = .error ⟨x.line, .duplicateDeclaration x.lexeme⟩ := by
  induction ds generalizing s pre with
  | nil => simp [Decl.idents] at hsplit
  | cons d ds ih =>
    obtain ⟨ty, hty⟩ := Decl.type_eq d
    have hidents : Decl.idents (d :: ds) = d.names.idents ++ Decl.idents ds := by
      simp [Decl.idents]
    rw [hidents] at hsplit
    -- the clash lies in a later declaration, after all of this one's names
    have hlater : ∀ a, pre = d.names.idents ++ a → Decl.idents ds = a ++ x :: post →
        (declarations s).result = .error ⟨x.line, .duplicateDeclaration x.lexeme⟩ := by
      rintro a rfl ha
      have hlex : d.names.idents.map (·.lexeme) = d.names.lexemes := rfl
      rw [List.map_append, hlex] at hnodup hx
      obtain ⟨hnd, hna, hdisj⟩ := List.nodup_append.mp hnodup
      obtain ⟨v, hvrest, -, hvtypes, hsame⟩ := declarations_step d ds hs hty
        (fun y hy => by
          obtain ⟨z, hz, rfl⟩ := List.mem_map.mp (hlex ▸ hy)
          exact hfresh z (List.mem_append_left _ hz)) hnd
      obtain ⟨hfresh', hx'⟩ := Tables.clash_of_declared hvtypes
        (fun y hy h => hdisj _ h _ (List.mem_map_of_mem hy) rfl)
        (fun y hy => hfresh y (List.mem_append_right _ hy)) hx
      rw [hsame.1]
      exact ih hvrest ha hna hfresh' hx'
    rcases List.append_eq_append_iff.mp hsplit with ⟨a, hpre, hds⟩ | ⟨c, hd, hc⟩
    · exact hlater a hpre hds
    · cases c with
      | nil =>
        simp only [List.append_nil, List.nil_append] at hd hc
        exact hlater [] (by simp [hd]) hc.symm
      | cons y c =>
        -- the clash lies in this declaration's names
        obtain ⟨rfl, -⟩ := List.cons.inj hc
        refine declarations_error_of_names d ds hs hty fun t ht htab => ?_
        exact declNames_clash ty d.names ht hd hnodup (htab ▸ hfresh) (htab ▸ hx)

/-! ### The earliest repeat -/

/-- The names of declarations are the lexemes of their identifiers. -/
theorem Decl.lexemes_eq_map_idents (ds : List Decl) :
    Decl.lexemes ds = (Decl.idents ds).map (·.lexeme) := by
  simp [Decl.lexemes, Decl.idents, Names.lexemes, List.map_flatMap]

/-- The earliest record of a list whose name was named before it: the ones before it all have
different names. -/
def FirstRepeat (xs : List Record) (x : Record) : Prop :=
  ∃ pre post, xs = pre ++ x :: post ∧ (pre.map (·.lexeme)).Nodup ∧ x.lexeme ∈ pre.map (·.lexeme)

/-- A list of records whose names are not all different has an earliest repeat. -/
theorem exists_firstRepeat (xs : List Record) (h : ¬(xs.map (·.lexeme)).Nodup) :
    ∃ x, FirstRepeat xs x := by
  -- the scan keeps the records read so far, whose names are all different
  have hscan : ∀ ys pre : List Record, (pre.map (·.lexeme)).Nodup →
      ¬((pre ++ ys).map (·.lexeme)).Nodup → ∃ x, FirstRepeat (pre ++ ys) x := by
    intro ys
    induction ys with
    | nil =>
      intro pre hnd hdup
      exact absurd (by simpa using hnd) hdup
    | cons y ys ih =>
      intro pre hnd hdup
      by_cases hy : y.lexeme ∈ pre.map (·.lexeme)
      · exact ⟨y, pre, ys, rfl, hnd, hy⟩
      · have hnd' : ((pre ++ [y]).map (·.lexeme)).Nodup := by
          rw [List.map_append, List.nodup_append]
          exact ⟨hnd, by simp, fun a ha b hb hab => hy (by simp_all)⟩
        simpa using ih (pre ++ [y]) hnd' (by simpa using hdup)
  simpa using hscan xs [] (by simp) (by simpa using h)

/-! ### The program's declarations -/

/-- A program whose header is read fails as its declarations do. -/
theorem program_error_of_declarations (kw : Word "program" .keyword) (name : OfKind .ident)
    (lb : Bracket '\x7b') {s : ParseState} {rest : List Record}
    (hs : s.rest = kw.1 :: name.1 :: lb.1 :: rest) {e : ParseError}
    (h : ∀ t : ParseState, t.rest = rest → t.tables = s.tables → (declarations t).result = .error e) :
    (program s).result = .error e := by
  obtain ⟨s1, h1, he1, hrest1, -⟩ := expect_cons hs kw.2
  obtain ⟨s2, h2, he2, hrest2, -⟩ := expectKind_cons hrest1 name.2
  obtain ⟨s3, h3, hb3, hrest3, -⟩ := bracket_open hrest2 lb.2 (.inl rfl)
  have htab : s3.tables = s.tables := by
    rw [bracket_tables hb3, (advance_ok (expectKind_ok he2).2).2.2,
      (advance_ok (expect_ok he1).2).2.2]
  unfold program
  rw [he1]
  dsimp only
  rw [he2]
  dsimp only
  rw [hb3]
  exact Reply.andThen_error (h s3 hrest3 htab)

/-- A parse fails as the program production does from the state that holds the records and the
tables. -/
theorem parse_error_of_program {records : List Record} {tables : Tables} {e : ParseError}
    (h : ∀ s : ParseState, s.rest = records → s.tables = tables → (program s).result = .error e) :
    (parse records tables).2 = .error e := by
  simp only [parse, Except.map]
  rw [h _ rfl rfl]

/-- Declarations that follow a program's header, their names without a type in the tables.
When no name is declared twice, the declarations are read to their end, each name gets the type
of its declaration's keyword (`int`, `float` or `boolean`), and every other identifier keeps the
type it had. Otherwise there is an earliest repeated name in source order, in its own list or a
later one, and the parse fails with a duplicate declaration of it on the line of that repeat. -/
theorem declarations_type_or_duplicate (kw : Word "program" .keyword) (name : OfKind .ident)
    (lb : Bracket '\x7b') (ds : List Decl) (rest : List Record) (tables : Tables)
    (hfresh : ∀ x ∈ Decl.lexemes ds, tables.typeOf? x = none) :
    ((Decl.lexemes ds).Nodup →
      (∀ r ∈ rest.head?, ¬(r.kind = .keyword ∧ (Ty.ofKeyword? r.lexeme).isSome)) →
      ∀ s : ParseState, s.rest = ds.flatMap Decl.yield ++ rest → s.tables = tables →
        (declarations s).result = .ok () ∧ (declarations s).state.rest = rest ∧
        (∀ d ∈ ds, ∀ x ∈ d.names.lexemes,
          (declarations s).state.tables.typeOf? x = Ty.ofKeyword? d.ty.1.lexeme) ∧
        ∀ m, m ∉ Decl.lexemes ds → (declarations s).state.tables.typeOf? m = tables.typeOf? m) ∧
    (¬(Decl.lexemes ds).Nodup → ∃ x, FirstRepeat (Decl.idents ds) x) ∧
    ∀ x, FirstRepeat (Decl.idents ds) x →
      (parse (kw.1 :: name.1 :: lb.1 :: (ds.flatMap Decl.yield ++ rest)) tables).2 =
        .error ⟨x.line, .duplicateDeclaration x.lexeme⟩ := by
  refine ⟨fun hnodup hstop s hs htab => ?_, fun hdup => ?_, fun x hx => ?_⟩
  · obtain ⟨hends, htypes, hkeep⟩ :=
      declarations_declares ds hs hstop (htab ▸ hfresh) hnodup
    exact ⟨hends.1, hends.2.1, htypes, fun m hm => htab ▸ hkeep m hm⟩
  · rw [Decl.lexemes_eq_map_idents] at hdup
    exact exists_firstRepeat _ hdup
  · obtain ⟨pre, post, hsplit, hnd, hrep⟩ := hx
    -- the names before the repeat are declared names, so they have no type yet
    have hpre : ∀ y ∈ pre, tables.typeOf? y.lexeme = none := fun y hy => by
      refine hfresh _ ?_
      rw [Decl.lexemes_eq_map_idents, hsplit]
      exact List.mem_map_of_mem (List.mem_append_left _ hy)
    refine parse_error_of_program fun s hs htab =>
      program_error_of_declarations kw name lb hs fun t ht htab' => ?_
    have htt : t.tables = tables := htab'.trans htab
    exact declarations_clash ds ht hsplit hnd (fun y hy => htt ▸ hpre y hy) (.inl hrep)

/-- `program p {`, `int a, b;`, `float a;` and `}` on four lines: the second `a`, on the third
line, is the earliest repeat, in a later list than the first. -/
def laterListRedeclaration : List Decl :=
  [⟨⟨⟨2, "int", .keyword, none⟩, by decide⟩,
      ⟨⟨⟨2, "a", .ident, some 2⟩, rfl⟩, [(⟨⟨2, ",", .punct, none⟩, by decide⟩,
        ⟨⟨2, "b", .ident, some 3⟩, rfl⟩)]⟩,
      ⟨⟨2, ";", .punct, none⟩, by decide⟩⟩,
    ⟨⟨⟨3, "float", .keyword, none⟩, by decide⟩,
      ⟨⟨⟨3, "a", .ident, some 2⟩, rfl⟩, []⟩,
      ⟨⟨3, ";", .punct, none⟩, by decide⟩⟩]

/-- A name declared again in a later list is rejected at its second occurrence, the earliest repeat.
-/
theorem later_list_redeclaration_rejected :
    (∀ x ∈ Decl.lexemes laterListRedeclaration, ({} : Tables).typeOf? x = none) ∧
      FirstRepeat (Decl.idents laterListRedeclaration) ⟨3, "a", .ident, some 2⟩ ∧
      (parse (⟨1, "program", .keyword, none⟩ :: ⟨1, "p", .ident, some 1⟩ ::
        ⟨1, "\x7b", .parOp, none⟩ ::
          (laterListRedeclaration.flatMap Decl.yield ++ [⟨4, "\x7d", .parOp, none⟩])) {}).2 =
        .error ⟨3, .duplicateDeclaration "a"⟩ := by
  have hfresh : ∀ x ∈ Decl.lexemes laterListRedeclaration, ({} : Tables).typeOf? x = none :=
    fun x _ => by simp [Tables.typeOf?, Tables.ident?]
  have hrep : FirstRepeat (Decl.idents laterListRedeclaration) ⟨3, "a", .ident, some 2⟩ :=
    ⟨[⟨2, "a", .ident, some 2⟩, ⟨2, "b", .ident, some 3⟩], [], rfl, by simp, by simp⟩
  exact ⟨hfresh, hrep, (declarations_type_or_duplicate ⟨_, by decide⟩ ⟨_, rfl⟩ ⟨_, by decide⟩
    laterListRedeclaration _ {} hfresh).2.2 _ hrep⟩

end RpnLang
