import RpnLang.Value

/-!
# What a value's text stands for

A computed value is interned in the constant table under its text, next to literals interned
under their lexemes, so a key may be either. Read as a key, a text stands for a value by its
spelling alone (`Value.ofKey?`): `true` and `false` for the truth values, an integer numeral (an
optional minus sign and decimal digits) for the 64-bit integer it denotes, and any other text for
the double it reads as.

Main statements: the text of an integer or of a truth value stands for that very value
(`ofKey?_text_int`, `ofKey?_text_bool`), and so does the text of a double whenever that text
reads back as the double (`ofKey?_text_float`). The last rests on the shape of a double's text:
an optional minus sign, then `inf`, `NaN`, or a digit followed by a point or an exponent mark
somewhere, so it is never an integer numeral nor a truth value's name.
-/

namespace RpnLang

namespace Decimal

/-! ### Integer numerals read back -/

/-- A text that starts with a digit has no sign. -/
theorem splitSign_of_head {ds : List Char} (h : ∀ c ∈ ds.head?, c.isDigit = true) :
    splitSign ds = (false, ds) := by
  unfold splitSign
  split
  · simp at h
  · simp at h
  · rfl

/-- The decimal digits of a natural number: a first digit and more. -/
theorem toDigits_cons (n : Nat) : ∃ c r, Nat.toDigits 10 n = c :: r ∧ c.isDigit = true := by
  obtain ⟨c, r, h⟩ := List.exists_cons_of_ne_nil (Nat.toDigits_ne_nil (n := n) (b := 10))
  exact ⟨c, r, h, Nat.isDigit_of_mem_toDigits (by decide) (by decide) (h ▸ List.mem_cons_self)⟩

theorem digitsValue_toDigits (n : Nat) : digitsValue (Nat.toDigits 10 n) = n :=
  Nat.ofDigitChars_ten_toDigits

theorem toDigits_all_isDigit (n : Nat) : (Nat.toDigits 10 n).all Char.isDigit = true :=
  List.all_eq_true.mpr fun _ hc => Nat.isDigit_of_mem_toDigits (by decide) (by decide) hc

/-- The decimal text of an integer reads back as it. -/
theorem readInt?_toString (i : Int) : readInt? (toString i) = some i := by
  have hsplit : ∀ n : Nat, splitSign (Nat.toDigits 10 n) = (false, Nat.toDigits 10 n) :=
    fun n => splitSign_of_head fun _ hc =>
      Nat.isDigit_of_mem_toDigits (by decide) (by decide) (List.mem_of_mem_head? hc)
  rw [Int.toString_eq_repr, Int.repr_eq_if]
  split
  · simp [readInt?, Nat.toList_repr, hsplit, toDigits_all_isDigit, digitsValue_toDigits,
      Nat.toDigits_ne_nil]
    omega
  · simp [readInt?, Nat.toList_repr, splitSign, toDigits_all_isDigit, digitsValue_toDigits,
      Nat.toDigits_ne_nil]
    omega

/-- The decimal text of a 64-bit integer reads back as it. -/
theorem readInt64?_toString (n : Int64) : readInt64? (toString n.toInt) = some n := by
  have hpow : Int.pow 2 63 = 2 ^ 63 := rfl
  have hlo := Int64.le_toInt n
  have hhi := Int64.toInt_lt n
  rw [readInt64?, readInt?_toString, hpow]
  simp_all

/-! ### The shape of a double's text -/

/-- The characters of a decimal written out: a digit first, and a point or an exponent mark
somewhere. -/
def DecimalText (cs : List Char) : Prop :=
  (∃ c, cs.head? = some c ∧ c.isDigit = true) ∧ ('.' ∈ cs ∨ 'e' ∈ cs)

/-- Whatever the layout places positionally or in exponent form is written out as a decimal. -/
theorem place_decimalText (l : FloatLayout) (d : Dec) : DecimalText (l.place d).toList := by
  obtain ⟨c, r, hs, hc⟩ := toDigits_cons d.digits
  unfold FloatLayout.place
  dsimp only
  split
  · split
    · exact ⟨⟨c, by simp [hs], hc⟩, .inl (by simp)⟩
    · split
      · exact ⟨⟨c, by simp [hs], hc⟩, .inl (by simp)⟩
      · exact ⟨⟨'0', by simp [zeros], by decide⟩, .inl (by simp)⟩
  · exact ⟨⟨c, by simp [hs], hc⟩, .inr (by simp)⟩

end Decimal

namespace Value

open Decimal

/-- The text of a double: an optional minus sign, then a decimal written out, `inf` or `NaN`. -/
theorem render_shape (x : Float) :
    ∃ sign body, (floatLayout.render x).toList = sign ++ body ∧ (sign = [] ∨ sign = ['-']) ∧
      (DecimalText body ∨ body = ['i', 'n', 'f'] ∨ body = ['N', 'a', 'N']) := by
  have hsign : ∀ b : Bool, ∃ sign : List Char, (if b then "-" else "").toList = sign ∧
      (sign = [] ∨ sign = ['-']) := by
    intro b
    cases b <;> simp
  unfold FloatLayout.render
  dsimp only
  obtain ⟨sign, hs, hs'⟩ := hsign (x.toBits >>> 63 = 1)
  split
  · split
    · exact ⟨sign, _, by simp [← hs, floatLayout], hs', .inr (.inl rfl)⟩
    · exact ⟨[], _, by simp [floatLayout], .inl rfl, .inr (.inr rfl)⟩
  · split
    · exact ⟨sign, (floatLayout.place ⟨0, 0⟩).toList, by simp [← hs], hs',
        .inl (place_decimalText _ _)⟩
    · refine ⟨sign, (floatLayout.place
        ((Binary.ofBits x.toBits).shortest floatLayout.upOnTie)).toList, by simp [← hs], hs', ?_⟩
      exact .inl (place_decimalText _ _)

/-! ### Keys -/

/-- The digits of an integer numeral: the characters after an optional minus sign. -/
def numeralDigits : List Char → List Char
  | '-' :: ds => ds
  | ds => ds

/-- A key spelled as an integer numeral: an optional minus sign and one or more decimal digits. -/
def isIntKey (k : String) : Bool :=
  !(numeralDigits k.toList).isEmpty && (numeralDigits k.toList).all Char.isDigit

/-- The value a constant's key stands for: `true` and `false` their truth values, an integer
numeral the 64-bit integer it denotes, and any other key the double it reads as. -/
def ofKey? (k : String) : Option Value :=
  if k = "true" then some (.bool true)
  else if k = "false" then some (.bool false)
  else if isIntKey k then (readInt64? k).map .int
  else (readFloat? k).map .float

theorem numeralDigits_of_ne {c : Char} {r : List Char} (h : c ≠ '-') :
    numeralDigits (c :: r) = c :: r := by
  unfold numeralDigits
  split
  · rename_i heq
    cases heq
    exact absurd rfl h
  · rfl

/-- Integer numerals are neither `true` nor `false`. -/
theorem ne_names_of_isIntKey {k : String} (h : isIntKey k = true) : k ≠ "true" ∧ k ≠ "false" :=
  ⟨by rintro rfl; exact absurd h (by decide), by rintro rfl; exact absurd h (by decide)⟩

/-- A digit is neither a sign nor the first letter of a truth value's name. -/
theorem head_of_isDigit {c : Char} (h : c.isDigit = true) : c ≠ '-' ∧ c ≠ 't' ∧ c ≠ 'f' := by
  refine ⟨?_, ?_, ?_⟩ <;>
  · rintro rfl
    exact absurd h (by decide)

/-- A text of one or more digits is an integer numeral. -/
theorem isIntKey_digits {k : String} {c : Char} {r : List Char} (hk : k.toList = c :: r)
    (hall : (c :: r).all Char.isDigit = true) : isIntKey k = true := by
  have hc : c.isDigit = true := List.all_eq_true.mp hall c List.mem_cons_self
  simp [isIntKey, hk, numeralDigits_of_ne (head_of_isDigit hc).1, hall]

/-- The text of an integer is an integer numeral. -/
theorem isIntKey_toString (i : Int) : isIntKey (toString i) = true := by
  rw [Int.toString_eq_repr, Int.repr_eq_if]
  split
  · obtain ⟨c, r, hs, -⟩ := toDigits_cons i.toNat
    exact isIntKey_digits (by simp [Nat.toList_repr, hs]) (hs ▸ toDigits_all_isDigit i.toNat)
  · simp [isIntKey, numeralDigits, Nat.toList_repr, toDigits_all_isDigit, Nat.toDigits_ne_nil]

/-- A text made of an optional minus sign, a first character that is neither a sign nor the
first letter of a truth value's name, and more, with a character that is no digit, is neither an
integer numeral nor a truth value's name. -/
theorem not_key {k : String} {sign : List Char} {c : Char} {r : List Char}
    (hk : k.toList = sign ++ c :: r) (hsign : sign = [] ∨ sign = ['-'])
    (hc : c ≠ '-' ∧ c ≠ 't' ∧ c ≠ 'f') (hd : ∃ d ∈ c :: r, d.isDigit = false) :
    isIntKey k = false ∧ k ≠ "true" ∧ k ≠ "false" := by
  obtain ⟨d, hd, hnd⟩ := hd
  have hnot : ¬ ((c :: r).all Char.isDigit = true) := by
    intro hall
    rw [List.all_eq_true.mp hall d hd] at hnd
    cases hnd
  refine ⟨?_, fun h => ?_, fun h => ?_⟩
  · rcases hsign with rfl | rfl
    · simpa [isIntKey, hk, numeralDigits_of_ne hc.1] using hnot
    · simpa [isIntKey, hk, numeralDigits] using hnot
  · rw [h] at hk
    rcases hsign with rfl | rfl
    · simp at hk
      exact hc.2.1 hk.1.symm
    · simp at hk
  · rw [h] at hk
    rcases hsign with rfl | rfl
    · simp at hk
      exact hc.2.2 hk.1.symm
    · simp at hk

/-- A key that is neither an integer numeral nor a truth value's name stands for its double. -/
theorem ofKey?_of_not_key {k : String} (h : isIntKey k = false ∧ k ≠ "true" ∧ k ≠ "false") :
    ofKey? k = (readFloat? k).map .float := by
  simp only [ofKey?, if_neg h.2.1, if_neg h.2.2, h.1, Bool.false_eq_true, if_false]

/-- The text of a double is no integer numeral and no truth value's name. -/
theorem render_not_key (x : Float) :
    isIntKey (floatLayout.render x) = false ∧ floatLayout.render x ≠ "true" ∧
      floatLayout.render x ≠ "false" := by
  obtain ⟨sign, body, htext, hsign, hbody⟩ := render_shape x
  -- the body starts with a digit, `i` or `N`, and holds a character that is no digit
  obtain ⟨c, r, rfl, hc, hd⟩ : ∃ c r, body = c :: r ∧ (c ≠ '-' ∧ c ≠ 't' ∧ c ≠ 'f') ∧
      ∃ d ∈ c :: r, d.isDigit = false := by
    rcases hbody with ⟨⟨c, hc, hdigit⟩, hmem⟩ | rfl | rfl
    · obtain ⟨r, rfl⟩ : ∃ r, body = c :: r := by
        cases body with
        | nil => cases hc
        | cons c' r =>
          cases hc
          exact ⟨r, rfl⟩
      refine ⟨c, r, rfl, head_of_isDigit hdigit, ?_⟩
      rcases hmem with h | h
      · exact ⟨'.', h, by decide⟩
      · exact ⟨'e', h, by decide⟩
    · exact ⟨'i', _, rfl, by decide, 'i', List.mem_cons_self, by decide⟩
    · exact ⟨'N', _, rfl, by decide, 'N', List.mem_cons_self, by decide⟩
  exact not_key htext hsign hc hd

/-- The text of an integer stands for it. -/
theorem ofKey?_text_int (n : Int64) : ofKey? (Value.int n).text = some (.int n) := by
  have hk := isIntKey_toString n.toInt
  obtain ⟨ht, hf⟩ := ne_names_of_isIntKey hk
  simp only [ofKey?, text, if_neg ht, if_neg hf, hk, if_true, readInt64?_toString, Option.map_some]

/-- The text of a truth value stands for it. -/
theorem ofKey?_text_bool (b : Bool) : ofKey? (Value.bool b).text = some (.bool b) := by
  cases b <;> simp [ofKey?, text]

/-- The text of a double stands for it when it reads back as it. -/
theorem ofKey?_text_float {x : Float} (h : readFloat? (floatLayout.render x) = some x) :
    ofKey? (Value.float x).text = some (.float x) := by
  rw [text, ofKey?_of_not_key (render_not_key x), h, Option.map_some]

/-- A value whose text reads back as it: a double whose text reads back as that double, or any
integer or truth value. -/
def TextReadsBack : Value → Prop
  | .float x => readFloat? (floatLayout.render x) = some x
  | _ => True

/-- The text of a value stands for it when it reads back as it. -/
theorem ofKey?_text {v : Value} (h : v.TextReadsBack) : ofKey? v.text = some v := by
  cases v with
  | int n => exact ofKey?_text_int n
  | float x => exact ofKey?_text_float h
  | bool b => exact ofKey?_text_bool b

end Value

end RpnLang
