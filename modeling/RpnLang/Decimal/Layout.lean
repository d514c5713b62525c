import RpnLang.Decimal.Shortest

/-!
# Writing a double as text

The digits come from the shortest-decimal search; a layout record decides the rest: which
exponents of the leading digit are written positionally, which way a tie between two shortest
candidates goes, and the texts of NaN and infinity. Positional text always has a point, with
`.0` after an integral value; exponent form writes one leading digit, the other digits after a
point if there are any, then `e` and the exponent with a minus sign only when negative.
-/

namespace RpnLang.Decimal

/-- The decisions of a text form for doubles beyond the choice of digits. -/
structure FloatLayout where
  /-- The least exponent of the leading digit written positionally. -/
  plainFrom : Int
  /-- Leading-digit exponents from here on are written in exponent form. -/
  plainBelow : Int
  /-- Of two equally near shortest decimals, the upper one is written (else the even one). -/
  upOnTie : Bool
  /-- The text of a NaN. -/
  nan : String
  /-- The text of positive infinity; negative infinity has a minus sign before it. -/
  infinity : String

/-- A string of `n` zeros. -/
def zeros (n : Nat) : String :=
  String.ofList (List.replicate n '0')

/-- The unsigned text of a decimal: positional when its leading digit's exponent is in the
layout's range, in exponent form otherwise. -/
def FloatLayout.place (l : FloatLayout) (d : Dec) : String :=
  let s := toString d.digits
  let len := s.length
  let lead : Int := d.exp + len - 1
  if l.plainFrom ≤ lead ∧ lead < l.plainBelow then
    if 0 ≤ d.exp then s ++ zeros d.exp.toNat ++ ".0"
    else if 0 ≤ lead then
      String.ofList (s.toList.take (lead.toNat + 1)) ++ "." ++
        String.ofList (s.toList.drop (lead.toNat + 1))
    else "0." ++ zeros (-lead - 1).toNat ++ s
  else
    let rest := s.toList.drop 1
    String.ofList (s.toList.take 1) ++ (if rest.isEmpty then "" else "." ++ String.ofList rest) ++
      "e" ++ toString lead

/-- The text of a double: NaN and the infinities by name, zero as `0.0` with its sign, every
other value as the shortest decimal that reads back, placed by the layout. -/
def FloatLayout.render (l : FloatLayout) (x : Float) : String :=
  let bits := x.toBits
  let sign := if bits >>> 63 = 1 then "-" else ""
  let e := (bits >>> 52) &&& 0x7FF
  let f := bits &&& 0xFFFFFFFFFFFFF
  if e = 0x7FF then
    if f = 0 then sign ++ l.infinity else l.nan
  else if e = 0 ∧ f = 0 then sign ++ l.place ⟨0, 0⟩
  else sign ++ l.place ((Binary.ofBits bits).shortest l.upOnTie)

end RpnLang.Decimal
