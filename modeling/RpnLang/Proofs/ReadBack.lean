import Mathlib
import RpnLang.Proofs.ValueText
import RpnLang.Proofs.Lexical

/-!
# Reading integers and truth values back from their text

An input line is read as a value of a declared type after its Unicode blanks are trimmed. The
text a value is printed with reads back as that value whatever blanks surround it, and a line
reads as a value only when its trimmed text has the value's shape:

* an integer's text, with blanks around it, reads back as the integer; a line reads as an
  integer only if its trimmed text is an integer numeral (`IntNumeral`): an optional `+` or `-`
  and ASCII digits whose value in base ten, negated after a minus, is the integer;
* `true` and `false` read back as the truth value in any mix of ASCII capitals
  (`CaseVariant`), with blanks around them, and no other trimmed text reads as a truth value.

The trimming step rests on one fact about lists (`trimBlankList_around`): blanks around a text
that neither begins nor ends with a blank are removed, and nothing else is.

Main statement: `read_text_int_bool`.
-/

namespace RpnLang

open Decimal

/-! ### The shapes of the texts -/

/-- `w` is an integer numeral for `k`: an optional `+` or `-`, then one or more ASCII digits
whose value in base ten, negated after a minus, is `k`. -/
def IntNumeral (w : List Char) (k : Int) : Prop :=
  ∃ sign ds, (sign = [] ∨ sign = ['+'] ∨ sign = ['-']) ∧ w = sign ++ ds ∧ ds ≠ [] ∧
    (∀ c ∈ ds, c.isDigit = true) ∧
    k = (if sign = ['-'] then -1 else 1) *
      ((Nat.ofDigits 10 (ds.reverse.map fun c => c.toNat - '0'.toNat) : Nat) : Int)

/-- `u` spells `w` with any of its letters as ASCII capitals: each character is the one of `w`
or its capital. -/
def CaseVariant (u w : List Char) : Prop :=
  List.Forall₂ (fun a c => a = c ∨ a = c.toUpper) u w

/-- Every character of the text is a blank. -/
def AllBlank (s : String) : Prop :=
  ∀ c ∈ s.toList, Text.isBlank c = true

/-! ### Trimming -/

namespace Text

/-- Characters from `!` up to the last ASCII character are no blanks. -/
theorem isBlank_eq_false {c : Char} (h : 33 ≤ c.toNat ∧ c.toNat < 128) : isBlank c = false := by
  simp only [isBlank, blankRanges, List.any_cons, List.any_nil, Bool.or_false, Bool.or_eq_false_iff,
    Bool.and_eq_false_imp, decide_eq_true_eq, decide_eq_false_iff_not, Nat.not_le]
  omega

/-- Dropping blanks from a list that starts with no blank keeps it. -/
theorem dropWhile_blank_of_head {l : List Char} (h : ∀ c ∈ l.head?, isBlank c = false) :
    l.dropWhile isBlank = l := by
  cases l with
  | nil => rfl
  | cons c l => exact List.dropWhile_cons_of_neg (by simpa using h c rfl)

/-- Blanks around a text that neither begins nor ends with a blank are trimmed away, and
nothing else is. -/
theorem trimBlankList_around {p m s : List Char} (hp : ∀ c ∈ p, isBlank c = true)
    (hs : ∀ c ∈ s, isBlank c = true) (hhead : ∀ c ∈ m.head?, isBlank c = false)
    (hlast : ∀ c ∈ m.getLast?, isBlank c = false) : trimBlankList (p ++ m ++ s) = m := by
  cases m with
  | nil =>
    -- only blanks: nothing is left
    have hall : ∀ c ∈ p ++ s, isBlank c = true := by
      simpa using fun c hc => hc.elim (hp c) (hs c)
    simp [trimBlankList, List.dropWhile_eq_nil_iff.mpr hall]
  | cons c m =>
    have hfront : (p ++ (c :: m) ++ s).dropWhile isBlank = c :: m ++ s := by
      rw [List.append_assoc, List.dropWhile_append_of_pos hp]
      exact dropWhile_blank_of_head (by simpa using hhead)
    have hrev : ∀ d ∈ s.reverse, isBlank d = true := fun d hd => hs d (List.mem_reverse.mp hd)
    have hback : ((c :: m).reverse).dropWhile isBlank = (c :: m).reverse :=
      dropWhile_blank_of_head (by rw [List.head?_reverse]; exact hlast)
    rw [trimBlankList, hfront, List.reverse_append, List.dropWhile_append_of_pos hrev, hback,
      List.reverse_reverse]

/-- Trimming blanks around printable text gives back the text. -/
theorem trimBlank_around {p m s : String} (hp : AllBlank p) (hs : AllBlank s)
    (hm : ∀ c ∈ m.toList, 33 ≤ c.toNat ∧ c.toNat < 128) : trimBlank (p ++ m ++ s) = m := by
  have hout : ∀ c ∈ m.toList, isBlank c = false := fun c hc => isBlank_eq_false (hm c hc)
  rw [trimBlank, String.toList_append, String.toList_append,
    trimBlankList_around hp hs (fun c hc => hout c (List.mem_of_mem_head? hc))
      (fun c hc => hout c (List.mem_of_mem_getLast? hc)), String.ofList_toList]

end Text

/-! ### Reading by type -/

namespace Value

/-- Reading an integer trims the blanks and reads a 64-bit integer. -/
theorem read?_int (t : String) : read? .int t = (readInt64? (Text.trimBlank t)).map .int := rfl

/-- Reading a double trims the blanks and reads a finite double. -/
theorem read?_float (t : String) :
    read? .float t = (finiteFloat? (Text.trimBlank t)).map .float := rfl

/-- Reading a truth value trims the blanks and compares the lowercase text with `true` and `false`.
-/
theorem read?_bool (t : String) :
    read? .bool t =
      let w := String.ofList ((Text.trimBlank t).toList.map Char.toLower)
      if w = "true" then some (.bool true) else if w = "false" then some (.bool false)
      else none := rfl

/-- Only reading an integer gives an integer. -/
theorem read?_eq_int {ty : Ty} {t : String} {n : Int64} (h : read? ty t = some (.int n)) :
    readInt64? (Text.trimBlank t) = some n := by
  cases ty with
  | int =>
    rw [read?_int, Option.map_eq_some_iff] at h
    obtain ⟨m, hm, hmn⟩ := h
    cases hmn
    exact hm
  | float =>
    rw [read?_float, Option.map_eq_some_iff] at h
    obtain ⟨_, -, hx⟩ := h
    cases hx
  | bool =>
    rw [read?_bool] at h
    dsimp only at h
    split at h
    · cases h
    · split at h <;> cases h

/-- Only reading a truth value gives a truth value, and only from `true` or `false` once its
capitals are made small. -/
theorem read?_eq_bool {ty : Ty} {t : String} {b : Bool} (h : read? ty t = some (.bool b)) :
    (Text.trimBlank t).toList.map Char.toLower = (Value.bool b).text.toList := by
  cases ty with
  | int =>
    rw [read?_int, Option.map_eq_some_iff] at h
    obtain ⟨_, -, hx⟩ := h
    cases hx
  | float =>
    rw [read?_float, Option.map_eq_some_iff] at h
    obtain ⟨_, -, hx⟩ := h
    cases hx
  | bool =>
    rw [read?_bool] at h
    dsimp only at h
    split at h
    · rename_i htrue
      cases h
      simpa [text] using congrArg String.toList htrue
    · split at h
      · rename_i hfalse
        cases h
        simpa [text] using congrArg String.toList hfalse
      · cases h

end Value

/-! ### Integer numerals -/

/-- The value of decimal digits is their positional value in base ten. -/
theorem digitsValue_eq_ofDigits (ds : List Char) :
    digitsValue ds = Nat.ofDigits 10 (ds.reverse.map fun c => c.toNat - '0'.toNat) := by
  -- the fold starts from any value, which ends up shifted past all the digits
  have hfold : ∀ init : Nat, ds.foldl (fun n c => 10 * n + (c.toNat - '0'.toNat)) init =
      10 ^ ds.length * init + Nat.ofDigits 10 (ds.reverse.map fun c => c.toNat - '0'.toNat) := by
    induction ds with
    | nil => simp
    | cons c ds ih =>
      intro init
      rw [List.foldl_cons, ih, List.reverse_cons, List.map_append, Nat.ofDigits_append]
      simp only [List.length_cons, List.length_map, List.length_reverse, List.map_cons,
        List.map_nil, Nat.ofDigits_singleton]
      ring
  simpa [digitsValue] using hfold 0

/-- What the sign reader splits off is an optional `+` or `-`, and it reports the minus. -/
theorem splitSign_eq {l r : List Char} {neg : Bool} (h : splitSign l = (neg, r)) :
    ∃ sign, (sign = [] ∨ sign = ['+'] ∨ sign = ['-']) ∧ l = sign ++ r ∧
      (neg = true ↔ sign = ['-']) := by
  unfold splitSign at h
  split at h
  · cases h
    exact ⟨['-'], .inr (.inr rfl), rfl, by simp⟩
  · cases h
    exact ⟨['+'], .inr (.inl rfl), rfl, by simp⟩
  · cases h
    exact ⟨[], .inl rfl, rfl, by simp⟩

/-- A text read as an integer is an integer numeral for it. -/
theorem intNumeral_of_readInt? {w : String} {k : Int} (h : readInt? w = some k) :
    IntNumeral w.toList k := by
  rcases hs : splitSign w.toList with ⟨neg, r⟩
  obtain ⟨sign, hsign, hw, hneg⟩ := splitSign_eq hs
  simp only [readInt?, hs] at h
  split at h
  · rename_i hdigits
    cases h
    simp only [Bool.and_eq_true, Bool.not_eq_true', List.isEmpty_eq_false_iff,
      List.all_eq_true] at hdigits
    refine ⟨sign, r, hsign, hw, hdigits.1, hdigits.2, ?_⟩
    rw [← digitsValue_eq_ofDigits]
    by_cases hm : sign = ['-']
    · simp [hneg.mpr hm, hm]
    · have : neg = false := by simpa [hm] using hneg
      simp [this, hm]
  · cases h

/-! ### Truth values in any case -/

/-- A lowercase letter is its own lowercase. -/
theorem toLower_of_isLower {c : Char} (h : c.isLower = true) : c.toLower = c :=
  Char.toLower_eq_of_not_isUpper (Char.not_isUpper_of_isLower h)

/-- A character is its small form or the capital of it. -/
theorem eq_or_toUpper_of_toLower {a c : Char} (h : a.toLower = c) : a = c ∨ a = c.toUpper := by
  by_cases hu : a.isUpper = true
  · -- a capital is the capital of its small form
    right
    have hlower : a.toUpper = a := Char.toUpper_eq_of_not_isLower (Char.not_isLower_of_isUpper hu)
    rw [← h, Char.toUpper_toLower_eq_toUpper, hlower]
  · left
    rw [← h, Char.toLower_eq_of_not_isUpper hu]

/-- Making the capitals of a case variant of a word in small letters small gives the word. -/
theorem CaseVariant.map_toLower {u w : List Char} (h : CaseVariant u w)
    (hw : ∀ c ∈ w, c.isLower = true) : u.map Char.toLower = w := by
  induction h with
  | nil => rfl
  | @cons a c u w hac _ ih =>
    have hc := hw c List.mem_cons_self
    rw [List.map_cons, ih fun d hd => hw d (List.mem_cons_of_mem _ hd)]
    rcases hac with rfl | rfl
    · rw [toLower_of_isLower hc]
    · rw [Char.toLower_toUpper_eq_toLower, toLower_of_isLower hc]

/-- A text is a case variant of its small form. -/
theorem caseVariant_of_map_toLower {u w : List Char} (h : u.map Char.toLower = w) :
    CaseVariant u w := by
  induction u generalizing w with
  | nil =>
    subst h
    exact .nil
  | cons a u ih =>
    subst h
    exact .cons (eq_or_toUpper_of_toLower rfl) (ih rfl)

/-- The text of a truth value is written in small letters. -/
theorem text_bool_isLower (b : Bool) : ∀ c ∈ (Value.bool b).text.toList, c.isLower = true := by
  cases b
  · simp only [Value.text, Bool.false_eq_true, if_false]
    simp only [show "false".toList = ['f', 'a', 'l', 's', 'e'] by simp, List.mem_cons,
      List.not_mem_nil, or_false]
    rintro c (rfl | rfl | rfl | rfl | rfl) <;> rfl
  · simp only [Value.text, if_true]
    simp only [show "true".toList = ['t', 'r', 'u', 'e'] by simp, List.mem_cons,
      List.not_mem_nil, or_false]
    rintro c (rfl | rfl | rfl | rfl) <;> rfl

/-- Small letters and their capitals are printable ASCII characters. -/
theorem CaseVariant.printable {u w : List Char} (h : CaseVariant u w)
    (hw : ∀ c ∈ w, c.isLower = true) : ∀ a ∈ u, 33 ≤ a.toNat ∧ a.toNat < 128 := by
  induction h with
  | nil => simp
  | @cons a c u w hac _ ih =>
    have hc := Lexical.isLower_iff.mp (hw c List.mem_cons_self)
    intro x hx
    rcases List.mem_cons.mp hx with rfl | hx
    · rcases hac with rfl | rfl
      · omega
      · rw [Char.toUpper_eq_of_isLower (hw _ List.mem_cons_self), Char.toNat_ofNat,
          if_pos (by unfold Nat.isValidChar; omega)]
        omega
    · exact ih (fun d hd => hw d (List.mem_cons_of_mem _ hd)) x hx

/-! ### The text of an integer -/

/-- The text of an integer is a minus sign or digits, character by character. -/
theorem text_int_printable (n : Int64) :
    ∀ c ∈ (Value.int n).text.toList, 33 ≤ c.toNat ∧ c.toNat < 128 := by
  have hdigit : ∀ m : Nat, ∀ c ∈ Nat.toDigits 10 m, 33 ≤ c.toNat ∧ c.toNat < 128 := by
    intro m c hc
    have := Lexical.isDigit_iff.mp (Nat.isDigit_of_mem_toDigits (by decide) (by decide) hc)
    omega
  simp only [Value.text, Int.toString_eq_repr, Int.repr_eq_if]
  split
  · simpa [Nat.toList_repr] using hdigit _
  · simp only [String.toList_append, Nat.toList_repr, List.mem_append]
    rintro c (hc | hc)
    · simp only [show "-".toList = ['-'] by simp, List.mem_singleton] at hc
      subst hc
      decide
    · exact hdigit _ c hc

/-! ### Reading back -/

/-- The text of an integer, with blanks around it, reads back as the integer. -/
theorem read?_int_text_around {p s : String} (hp : AllBlank p) (hs : AllBlank s) (n : Int64) :
    Value.read? .int (p ++ (Value.int n).text ++ s) = some (.int n) := by
  rw [Value.read?_int, Text.trimBlank_around hp hs (text_int_printable n), Value.text,
    readInt64?_toString, Option.map_some]

/-- A line read as an integer is an integer numeral for it once trimmed. -/
theorem intNumeral_of_read? {ty : Ty} {t : String} {n : Int64}
    (h : Value.read? ty t = some (.int n)) : IntNumeral (Text.trimBlank t).toList n.toInt := by
  have h64 := Value.read?_eq_int h
  unfold readInt64? at h64
  split at h64
  · rename_i k hk
    split at h64
    · rename_i hrange
      cases h64
      -- in range, the 64-bit integer stands for the numeral's value
      have hp : Int.pow 2 63 = 2 ^ 63 := rfl
      rw [hp] at hrange
      rw [Int64.toInt_ofInt_of_le hrange.1 hrange.2]
      exact intNumeral_of_readInt? hk
    · cases h64
  · cases h64

/-- `true` or `false` in any mix of capitals, with blanks around it, reads as its truth
value. -/
theorem read?_bool_around {p s : String} (hp : AllBlank p) (hs : AllBlank s) (b : Bool)
    {u : String} (hu : CaseVariant u.toList (Value.bool b).text.toList) :
    Value.read? .bool (p ++ u ++ s) = some (.bool b) := by
  have hlow := text_bool_isLower b
  rw [Value.read?_bool, Text.trimBlank_around hp hs (hu.printable hlow)]
  dsimp only
  rw [hu.map_toLower hlow, String.ofList_toList]
  cases b <;> simp [Value.text]

/-- The text of an integer or of a truth value reads back as it whatever blanks stand around it,
a truth value's also in any mix of capitals; and a line reads as an integer only if its trimmed
text is an integer numeral for it, as a truth value only if its trimmed text spells the value in
some mix of capitals. -/
theorem read_text_int_bool :
    (∀ p s : String, AllBlank p → AllBlank s → ∀ n : Int64,
      Value.read? .int (p ++ (Value.int n).text ++ s) = some (.int n)) ∧
    (∀ (ty : Ty) (t : String) (n : Int64), Value.read? ty t = some (.int n) →
      IntNumeral (Text.trimBlank t).toList n.toInt) ∧
    (∀ p s : String, AllBlank p → AllBlank s → ∀ (b : Bool) (u : String),
      CaseVariant u.toList (Value.bool b).text.toList →
        Value.read? .bool (p ++ u ++ s) = some (.bool b)) ∧
    (∀ (ty : Ty) (t : String) (b : Bool), Value.read? ty t = some (.bool b) →
      CaseVariant (Text.trimBlank t).toList (Value.bool b).text.toList) :=
  ⟨fun _ _ hp hs n => read?_int_text_around hp hs n, fun _ _ _ h => intNumeral_of_read? h,
    fun _ _ hp hs b _ hu => read?_bool_around hp hs b hu,
    fun _ _ _ h => caseVariant_of_map_toLower (Value.read?_eq_bool h)⟩

end RpnLang
