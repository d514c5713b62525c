import RpnLang.Value

/-!
# Identifier and constant tables

Both tables are insertion-ordered maps with unique keys. Every entry stores its 1-based index,
given when it is appended as the number of entries plus one; since nothing is ever removed or
moved, the stored index stays the entry's position plus one. Registering an identifier or
interning a constant returns the stored index when the key is present and appends a new entry
otherwise: the first entry under a key wins. A computed value is interned under its own text.
-/

namespace RpnLang

/-- An identifier and what is known about it. -/
structure IdentEntry where
  /-- The identifier's spelling. -/
  name : String
  /-- The 1-based index given to the entry when it was added. -/
  index : Nat
  /-- The declared type, once the declaration has been read. -/
  ty : Option Ty
  /-- The current value, once one has been stored. -/
  value : Option Value
  deriving Inhabited

/-- A constant: a literal's lexeme or a computed value's text, with its value. -/
structure ConstEntry where
  /-- The key: the lexeme or the text. -/
  key : String
  /-- The 1-based index given to the entry when it was added. -/
  index : Nat
  /-- The value. -/
  value : Value
  deriving Inhabited

/-- The identifier and constant tables of a program. -/
structure Tables where
  /-- Identifiers in order of first sight. -/
  idents : Array IdentEntry := #[]
  /-- Constants in order of first interning. -/
  consts : Array ConstEntry := #[]
  deriving Inhabited

namespace Tables

/-- The position of an identifier's entry. -/
def identPos? (t : Tables) (name : String) : Option Nat :=
  t.idents.findIdx? (·.name == name)

/-- An identifier's entry. -/
def ident? (t : Tables) (name : String) : Option IdentEntry :=
  t.idents.find? (·.name == name)

/-- The position of a constant's entry. -/
def constPos? (t : Tables) (key : String) : Option Nat :=
  t.consts.findIdx? (·.key == key)

/-- A constant's entry. -/
def const? (t : Tables) (key : String) : Option ConstEntry :=
  t.consts.find? (·.key == key)

/-- The 1-based index of an identifier, adding an untyped entry without a value on first
sight. -/
def registerIdent (t : Tables) (name : String) : Nat × Tables :=
  match t.ident? name with
  | some e => (e.index, t)
  | none =>
    let index := t.idents.size + 1
    (index, { t with idents := t.idents.push ⟨name, index, none, none⟩ })

/-- The 1-based index of a constant; a new key is appended with the value, an existing key
keeps its entry. -/
def internConst (t : Tables) (key : String) (v : Value) : Nat × Tables :=
  match t.const? key with
  | some e => (e.index, t)
  | none =>
    let index := t.consts.size + 1
    (index, { t with consts := t.consts.push ⟨key, index, v⟩ })

/-- Interns a computed value under its text and returns that key. -/
def internValue (t : Tables) (v : Value) : String × Tables :=
  (v.text, (t.internConst v.text v).2)

/-- Changes the entry of an identifier, if there is one. -/
def modifyIdent (t : Tables) (name : String) (f : IdentEntry → IdentEntry) : Tables :=
  match t.identPos? name with
  | some i => { t with idents := t.idents.modify i f }
  | none => t

/-- Sets an identifier's declared type. -/
def setType (t : Tables) (name : String) (ty : Ty) : Tables :=
  t.modifyIdent name fun e => { e with ty := some ty }

/-- Stores a value in an identifier's entry. -/
def store (t : Tables) (name : String) (v : Value) : Tables :=
  t.modifyIdent name fun e => { e with value := some v }

end Tables

end RpnLang
