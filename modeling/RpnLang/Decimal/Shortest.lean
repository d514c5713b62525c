/-!
# Shortest decimals of binary doubles

A finite positive double stands for every real that rounds to it: the interval from halfway
to its lower neighbour to halfway to its upper neighbour, both ends included exactly when the
significand is even. A decimal is acceptable if it lies in that interval (`Binary.readsBack`).
The shortest acceptable decimal is found by exact search: for one, two, ... digits, the value's
two neighbours on the decimal grid of that many digits are tested, the first grid with a hit
wins, of two hits the nearer is taken, and an exact tie goes by the caller's rule.

Everything is computed with natural numbers; no floating-point operation is involved.
-/

namespace RpnLang.Decimal

/-- A finite non-negative double as `m * 2 ^ q`. -/
structure Binary where
  /-- The significand, with the hidden bit for normal values. -/
  m : Nat
  /-- The binary exponent of the last significand bit. -/
  q : Int
  /-- The gap to the value below is half the gap to the value above: a power of two that is
  not the least normal value. -/
  narrowBelow : Bool
  deriving DecidableEq, Repr

/-- The bits of a finite double, sign ignored. Infinities and NaN are no such value and are
tested for first. -/
def Binary.ofBits (b : UInt64) : Binary :=
  let e := ((b >>> 52) &&& 0x7FF).toNat
  let f := (b &&& 0xFFFFFFFFFFFFF).toNat
  if e = 0 then ⟨f, -1074, false⟩ else ⟨Nat.pow 2 52 + f, (e : Int) - 1075, f = 0 && e > 1⟩

/-- The integer part of a finite double, rounded toward zero. -/
def truncate (x : Float) : Int :=
  let b := Binary.ofBits x.toBits
  let n := if 0 ≤ b.q then b.m * Nat.pow 2 b.q.toNat else b.m / Nat.pow 2 (-b.q).toNat
  if x.toBits >>> 63 = 1 then -(n : Int) else n

/-- A decimal `digits * 10 ^ exp`. -/
structure Dec where
  /-- The decimal significand. -/
  digits : Nat
  /-- The decimal exponent of the last digit. -/
  exp : Int
  deriving DecidableEq, Repr

/-- Compares `a * 10 ^ i` with `n * 2 ^ j` exactly, by cross-multiplying naturals. -/
def cmpScaled (a : Nat) (i : Int) (n : Nat) (j : Int) : Ordering :=
  compare (a * Nat.pow 10 i.toNat * Nat.pow 2 (-j).toNat)
    (n * Nat.pow 2 j.toNat * Nat.pow 10 (-i).toNat)

/-- The decimal lies among the reals that round to the double (to nearest, ties to even): in
quarter units of the last bit the interval runs from `4m - 2` (or `4m - 1` below a narrow gap)
to `4m + 2`. -/
def Binary.readsBack (x : Binary) (d : Dec) : Bool :=
  let lo := if x.narrowBelow then 4 * x.m - 1 else 4 * x.m - 2
  let hi := 4 * x.m + 2
  let incl := x.m % 2 == 0
  let cl := cmpScaled d.digits d.exp lo (x.q - 2)
  let ch := cmpScaled d.digits d.exp hi (x.q - 2)
  (cl == .gt || (incl && cl == .eq)) && (ch == .lt || (incl && ch == .eq))

/-- The number of decimal digits of a positive number (one for zero). -/
def digitCount (n : Nat) : Nat :=
  if n < 10 then 1 else digitCount (n / 10) + 1
termination_by n
decreasing_by omega

/-- The value `m * 2 ^ q` as a fraction: numerator and denominator, the denominator a power
of two. -/
def Binary.fraction (x : Binary) : Nat × Nat :=
  (x.m * Nat.pow 2 x.q.toNat, Nat.pow 2 (-x.q).toNat)

/-- The decimal scale of a positive value: the least `k` with value `< 10 ^ k`, so the leading
digit has exponent `k - 1`. Above one it is the digit count of the integer part; below one it
is minus the number of zeros that follow the point. -/
def Binary.scale (x : Binary) : Int :=
  let (a, b) := x.fraction
  if b ≤ a then (digitCount (a / b) : Int)
  else -((digitCount ((b - 1) / a) : Int) - 1)

/-- The value's lower neighbour on the grid `10 ^ g`: the greatest `d` with `d * 10 ^ g ≤`
value. -/
def Binary.floorOn (x : Binary) (g : Int) : Nat :=
  let (a, b) := x.fraction
  (a * Nat.pow 10 (-g).toNat) / (b * Nat.pow 10 g.toNat)

/-- Where the value lies between `d * 10 ^ g` and `(d + 1) * 10 ^ g`: `.lt` nearer the lower
one, `.gt` nearer the upper one, `.eq` halfway. -/
def Binary.side (x : Binary) (d : Nat) (g : Int) : Ordering :=
  let (a, b) := x.fraction
  compare (2 * a * Nat.pow 10 (-g).toNat) ((2 * d + 1) * b * Nat.pow 10 g.toNat)

/-- The acceptable decimal on the grid `10 ^ g`, if one of the value's two neighbours on it
reads back: of two, the nearer; on a tie, the upper one when `upOnTie` holds and else the one
with an even last digit. -/
def Binary.onGrid (x : Binary) (upOnTie : Bool) (g : Int) : Option Dec :=
  let d := x.floorOn g
  let lo : Dec := ⟨d, g⟩
  let hi : Dec := ⟨d + 1, g⟩
  match x.readsBack lo, x.readsBack hi with
  | true, true =>
    match x.side d g with
    | .lt => some lo
    | .gt => some hi
    | .eq => if upOnTie || d % 2 == 1 then some hi else some lo
  | true, false => some lo
  | false, true => some hi
  | false, false => none

/-- Moves trailing zeros of the significand into the exponent. -/
def Dec.strip (d : Dec) : Dec :=
  if h : 0 < d.digits ∧ d.digits % 10 = 0 then
    Dec.strip ⟨d.digits / 10, d.exp + 1⟩
  else d
termination_by d.digits
decreasing_by omega

/-- The exact decimal value of `m * 2 ^ q`. -/
def Binary.exact (x : Binary) : Dec :=
  if 0 ≤ x.q then ⟨x.m * Nat.pow 2 x.q.toNat, 0⟩ else ⟨x.m * Nat.pow 5 (-x.q).toNat, x.q⟩

/-- The grids tried, coarsest first: one to seventeen significant digits. -/
def Binary.grids (x : Binary) : List Int :=
  (List.range 17).map fun (n : Nat) => x.scale - ((n : Int) + 1)

/-- The shortest decimal that reads back as a positive double, trailing zeros stripped. If no
grid of up to seventeen digits had a hit, the exact value. -/
def Binary.shortest (x : Binary) (upOnTie : Bool) : Dec :=
  match x.grids.findSome? (x.onGrid upOnTie) with
  | some d => d.strip
  | none => x.exact.strip

end RpnLang.Decimal
