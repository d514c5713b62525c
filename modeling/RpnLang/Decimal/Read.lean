/-!
# Reading decimal numerals

Two numeral grammars over ASCII text, with nothing allowed around them.

* Integers: an optional `+` or `-`, then one or more digits; the value must fit in 64-bit two's
  complement.
* Reals: an optional sign, then either a name (`inf`, `infinity` or `nan`, in any case) or
  digits with an optional point, at least one digit in all, and an optional exponent: `e` or `E`,
  an optional sign and one or more digits. The value is rounded to the nearest double, which
  may be infinite or zero; a minus sign makes it negative, also when it is zero.
-/

namespace RpnLang.Decimal

/-- The value of a string of decimal digits. -/
def digitsValue (ds : List Char) : Nat :=
  ds.foldl (fun n c => 10 * n + (c.toNat - '0'.toNat)) 0

/-- A sign in front of a numeral: whether it is a minus, and the rest. -/
def splitSign : List Char → Bool × List Char
  | '-' :: r => (true, r)
  | '+' :: r => (false, r)
  | r => (false, r)

/-- An integer numeral: optional sign, then at least one digit and nothing else. -/
def readInt? (s : String) : Option Int :=
  let (neg, r) := splitSign s.toList
  if !r.isEmpty && r.all Char.isDigit then
    let n := (digitsValue r : Int)
    some (if neg then -n else n)
  else none

/-- An integer numeral whose value fits in 64 bits. -/
def readInt64? (s : String) : Option Int64 :=
  match readInt? s with
  | some n => if -Int.pow 2 63 ≤ n ∧ n < Int.pow 2 63 then some (Int64.ofInt n) else none
  | none => none

/-- What a real numeral denotes before rounding. -/
inductive Real where
  /-- `(-1)^neg * m * 10 ^ e`. -/
  | finite (neg : Bool) (m : Nat) (e : Int)
  /-- An infinity of the given sign. -/
  | infinite (neg : Bool)
  /-- Not a number. -/
  | nan
  deriving DecidableEq, Repr

/-- The optional exponent part after the digits: empty, or `e`/`E`, a sign, and digits. -/
def readExponent? : List Char → Option Int
  | [] => some 0
  | c :: r =>
    if c = 'e' ∨ c = 'E' then
      let (neg, ds) := splitSign r
      if !ds.isEmpty && ds.all Char.isDigit then
        let n := (digitsValue ds : Int)
        some (if neg then -n else n)
      else none
    else none

/-- The digits-and-point form: integer digits, an optional point with fraction digits, at least
one digit in all, and an optional exponent. -/
def readPositional? (neg : Bool) (r : List Char) : Option Real :=
  let whole := r.takeWhile Char.isDigit
  let r := r.dropWhile Char.isDigit
  let (frac, r) :=
    match r with
    | '.' :: t => (t.takeWhile Char.isDigit, t.dropWhile Char.isDigit)
    | _ => ([], r)
  if whole.isEmpty && frac.isEmpty then none
  else
    match readExponent? r with
    | some e => some (.finite neg (digitsValue (whole ++ frac)) (e - frac.length))
    | none => none

/-- A real numeral: optional sign, then a name or the digits-and-point form. -/
def readReal? (s : String) : Option Real :=
  let (neg, r) := splitSign s.toList
  let word := String.ofList (r.map Char.toLower)
  if word = "inf" ∨ word = "infinity" then some (.infinite neg)
  else if word = "nan" then some .nan
  else readPositional? neg r

/-- The double nearest to a real numeral's value. -/
def Real.toFloat : Real → Float
  | .finite neg m e =>
    let x := if 0 ≤ e then Float.ofScientific m false e.toNat
      else Float.ofScientific m true (-e).toNat
    if neg then -x else x
  | .infinite neg => if neg then -(1.0 / 0.0) else 1.0 / 0.0
  | .nan => 0.0 / 0.0

/-- A real numeral rounded to the nearest double. -/
def readFloat? (s : String) : Option Float :=
  (readReal? s).map Real.toFloat

end RpnLang.Decimal
