import RpnLang.Decimal.Layout
import RpnLang.Decimal.Read
import RpnLang.Text.Blank

/-!
# Values and their types

A value is a 64-bit integer, a double or a truth value. Its text is the one a reader sees and
also the key under which a computed value is interned: integers in decimal, truth values as
`true` and `false`, doubles as the shortest decimal that reads back, always with a point or an
exponent, so that `3` and `3.0` are different keys.

Reading a value of a given type from an input line first trims Unicode blanks, then reads an
integer numeral, a real numeral whose double is finite, or `true`/`false` in any ASCII case.
-/

namespace RpnLang

open Decimal

/-- The three value types, named by the declaration keywords `int`, `float` and `boolean`. -/
inductive Ty where
  /-- 64-bit integers. -/
  | int
  /-- Doubles. -/
  | float
  /-- Truth values. -/
  | bool
  deriving DecidableEq, Repr, Inhabited

namespace Ty

/-- The type's name in messages. -/
def name : Ty → String
  | .int => "Int"
  | .float => "Float"
  | .bool => "Bool"

/-- The type a declaration keyword introduces. -/
def ofKeyword? : String → Option Ty
  | "int" => some .int
  | "float" => some .float
  | "boolean" => some .bool
  | _ => none

end Ty

/-- A value of the language. -/
inductive Value where
  /-- A 64-bit integer. -/
  | int (n : Int64)
  /-- A double. -/
  | float (x : Float)
  /-- A truth value. -/
  | bool (b : Bool)
  deriving Inhabited

namespace Value

/-- The value's type. -/
def ty : Value → Ty
  | .int _ => .int
  | .float _ => .float
  | .bool _ => .bool

/-- Doubles are written positionally when the leading digit's exponent is from -4 to 15 and
in exponent form otherwise; a tie between two shortest decimals goes to the upper one; NaN and
infinity are written `NaN` and `inf`. -/
def floatLayout : FloatLayout := ⟨-4, 16, true, "NaN", "inf"⟩

/-- The value's text: decimal integers, the shortest text of a double, `true` or `false`. -/
def text : Value → String
  | .int n => toString n.toInt
  | .float x => floatLayout.render x
  | .bool b => if b then "true" else "false"

/-- The value as a double: integers are rounded to the nearest double, truth values are one
and zero. -/
def toFloat : Value → Float
  | .int n => Float.ofInt n.toInt
  | .float x => x
  | .bool b => if b then 1.0 else 0.0

/-- The value is a numeric zero; the negative zero double counts, a truth value never does. -/
def isZero : Value → Bool
  | .int n => n == 0
  | .float x => x == 0.0
  | .bool _ => false

/-- A double read from a real numeral, if it is finite. -/
def finiteFloat? (s : String) : Option Float :=
  match readFloat? s with
  | some x => if x.isFinite then some x else none
  | none => none

/-- Reads a value of the given type from a line of input, after trimming blanks. -/
def read? (ty : Ty) (s : String) : Option Value :=
  let t := Text.trimBlank s
  match ty with
  | .int => (readInt64? t).map .int
  | .float => (finiteFloat? t).map .float
  | .bool =>
    let w := String.ofList (t.toList.map Char.toLower)
    if w = "true" then some (.bool true)
    else if w = "false" then some (.bool false)
    else none

end Value

end RpnLang
