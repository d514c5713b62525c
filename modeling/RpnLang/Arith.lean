import RpnLang.Value

/-!
# Arithmetic and comparison of values

The five arithmetic operators take numbers only; a truth value on the left is reported before
one on the right. Division by a numeric zero (also the negative zero double) is refused before
anything is computed. Two integers give an integer: `+`, `-`, `*` and `/` (truncating toward
zero) are exact and must fit in 64 bits; `^` is computed on doubles and must be finite, at least
`-2^63` and below `2^63`, and is then truncated toward zero. Any double operand makes the result
a double, which must be finite.

Comparison needs two values of one type and compares them as doubles, truth values as one and
zero.
-/

namespace RpnLang

/-- Why an arithmetic step or a comparison failed. -/
inductive ArithError where
  /-- The right operand of `/` is zero. -/
  | divisionByZero
  /-- The result does not fit its type, or is not a finite double. -/
  | overflow (op : String)
  /-- An operand is not a number. -/
  | notNumeric (op : String) (ty : Ty)
  /-- The operands of a comparison have different types. -/
  | incomparable (left : Ty) (op : String) (right : Ty)
  /-- The operator is not one of the language's. -/
  | unsupported (op : String)
  deriving DecidableEq, Repr

/-- `2 ^ 63` as a double. -/
def twoPow63 : Float := Float.ofNat (Nat.pow 2 63)

/-- The exact result of an integer operator, before the range check. -/
def intResult? (op : String) (a b : Int) : Option Int :=
  match op with
  | "+" => some (a + b)
  | "-" => some (a - b)
  | "*" => some (a * b)
  | "/" => some (a.tdiv b)
  | _ => none

/-- The result of a double operator. -/
def floatResult? (op : String) (a b : Float) : Option Float :=
  match op with
  | "+" => some (a + b)
  | "-" => some (a - b)
  | "*" => some (a * b)
  | "/" => some (a / b)
  | "^" => some (a.pow b)
  | _ => none

/-- Applies an arithmetic operator to two values. -/
def calculate (op : String) (l r : Value) : Except ArithError Value :=
  match l, r with
  | .bool _, _ => .error (.notNumeric op .bool)
  | _, .bool _ => .error (.notNumeric op .bool)
  | l, r =>
    if op = "/" ∧ r.isZero then .error .divisionByZero
    else
      match l, r with
      | .int a, .int b =>
        if op = "^" then
          let f := (Float.ofInt a.toInt).pow (Float.ofInt b.toInt)
          if f.isFinite ∧ -twoPow63 ≤ f ∧ f < twoPow63 then
            .ok (.int (Int64.ofInt (Decimal.truncate f)))
          else .error (.overflow op)
        else
          match intResult? op a.toInt b.toInt with
          | none => .error (.unsupported op)
          | some n =>
            if -Int.pow 2 63 ≤ n ∧ n < Int.pow 2 63 then .ok (.int (Int64.ofInt n))
            else .error (.overflow op)
      | l, r =>
        match floatResult? op l.toFloat r.toFloat with
        | none => .error (.unsupported op)
        | some x => if x.isFinite then .ok (.float x) else .error (.overflow op)

/-- Compares two values of one type as doubles. -/
def compareValues (op : String) (l r : Value) : Except ArithError Bool :=
  if l.ty ≠ r.ty then .error (.incomparable l.ty op r.ty)
  else
    let a := l.toFloat
    let b := r.toFloat
    match op with
    | ">=" => .ok (decide (a ≥ b))
    | "<=" => .ok (decide (a ≤ b))
    | ">" => .ok (decide (a > b))
    | "<" => .ok (decide (a < b))
    | "!=" => .ok !(a == b)
    | "==" => .ok (a == b)
    | _ => .error (.unsupported op)

/-- A comparison as an operator on values: its answer is a truth value. -/
def compareAs (op : String) (l r : Value) : Except ArithError Value :=
  (compareValues op l r).map .bool

end RpnLang
