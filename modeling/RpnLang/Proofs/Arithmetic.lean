import RpnLang.Arith

/-!
# The arithmetic of values

An arithmetic step checks its operands in a fixed order before it computes anything: a truth
value on the left, then a truth value on the right, then a zero divisor of `/`, which may be
either number type and also the negative zero double, whatever the left operand is. Only then
does the type of the result follow the operands: two integers give an integer, any other pair of
numbers a double.

On two integers, `+`, `-`, `*` and `/` are the exact operations on the integers, `/` truncating
toward zero, and the result is delivered exactly when it fits in 64 bits; otherwise the step
overflows. So the least 64-bit integer divided by minus one is an overflow, not a wrap.

Main statement, `calculate_checks_then_computes`, assembled from one equation per branch of
`calculate` (`calculate_bool_left`, `calculate_bool_right`, `calculate_div_zero`,
`calculate_int_exact`) and from `calculate_ok`, which says what a successful step returns.
-/

namespace RpnLang

/-- The four operators that are exact on integers, each with what it computes there: the sum,
the difference, the product, and the quotient truncated toward zero. -/
def exactIntOps : List (String × (Int → Int → Int)) :=
  [("+", (· + ·)), ("-", (· - ·)), ("*", (· * ·)), ("/", Int.tdiv)]

/-- Each exact operator computes its integer operation, and none of them is the power. -/
theorem intResult?_of_exact {op : String} {f : Int → Int → Int} (h : (op, f) ∈ exactIntOps)
    (a b : Int) : intResult? op a b = some (f a b) ∧ op ≠ "^" := by
  simp only [exactIntOps, List.mem_cons, Prod.mk.injEq, List.not_mem_nil, or_false] at h
  rcases h with ⟨rfl, rfl⟩ | ⟨rfl, rfl⟩ | ⟨rfl, rfl⟩ | ⟨rfl, rfl⟩ <;> simp [intResult?]

variable {op : String} {l r v : Value}

/-- A value of the truth type is a truth value. -/
theorem Value.ty_eq_bool : v.ty = .bool ↔ ∃ b, v = .bool b := by
  cases v <;> simp [Value.ty]

/-! ### One equation per branch -/

/-- A truth value on the left is refused as not numeric, whatever the operator. -/
theorem calculate_bool_left (op : String) (b : Bool) (r : Value) :
    calculate op (.bool b) r = .error (.notNumeric op .bool) := rfl

/-- A truth value on the right of a number is refused as not numeric. -/
theorem calculate_bool_right (op : String) (hl : l.ty ≠ .bool) (b : Bool) :
    calculate op l (.bool b) = .error (.notNumeric op .bool) := by
  cases l with
  | int a => rfl
  | float x => rfl
  | bool c => exact absurd rfl hl

/-- A numeric zero divisor is refused, whichever number is divided. -/
theorem calculate_div_zero (hl : l.ty ≠ .bool) (hr : r.ty ≠ .bool) (hz : r.isZero = true) :
    calculate "/" l r = .error .divisionByZero := by
  cases l <;> cases r <;> simp_all [calculate, Value.ty]

/-- Two integers under an exact operator: the exact result if it fits in 64 bits, else an
overflow. -/
theorem calculate_int_exact (a b : Int64) (hop : op ≠ "^") (hz : ¬(op = "/" ∧ b = 0)) {n : Int}
    (hn : intResult? op a.toInt b.toInt = some n) :
    calculate op (.int a) (.int b) =
      if -Int.pow 2 63 ≤ n ∧ n < Int.pow 2 63 then .ok (.int (Int64.ofInt n))
      else .error (.overflow op) := by
  have hz' : ¬(op = "/" ∧ (Value.int b).isZero = true) := by
    simpa [Value.isZero] using hz
  simp only [calculate, if_neg hz', if_neg hop, hn]

/-- A successful step on two integers gives an integer. -/
theorem calculate_int_ok {a b : Int64} (h : calculate op (.int a) (.int b) = .ok v) :
    ∃ c, v = .int c := by
  simp only [calculate] at h
  split at h
  · cases h
  · split at h
    · split at h
      · cases h
        exact ⟨_, rfl⟩
      · cases h
    · split at h
      · cases h
      · split at h
        · cases h
          exact ⟨_, rfl⟩
        · cases h

/-- A successful step on two numbers of which one is a double gives a double. -/
theorem calculate_float_ok (hl : l.ty ≠ .bool) (hr : r.ty ≠ .bool)
    (hf : l.ty = .float ∨ r.ty = .float) (h : calculate op l r = .ok v) : ∃ x, v = .float x := by
  have hnum : ¬(l.ty = .int ∧ r.ty = .int) := by
    rcases hf with hf | hf <;> simp [hf]
  cases l <;> cases r <;> simp [Value.ty] at hl hr hnum
  -- the three pairs with a double: after the zero check, the double operation
  all_goals
    simp only [calculate] at h
    split at h
    · cases h
    · split at h
      · cases h
      · split at h
        · cases h
          exact ⟨_, rfl⟩
        · cases h

/-- A successful step had two numbers, and its result is an integer exactly when both were. -/
theorem calculate_ok (h : calculate op l r = .ok v) :
    l.ty ≠ .bool ∧ r.ty ≠ .bool ∧ (v.ty = .int ↔ l.ty = .int ∧ r.ty = .int) := by
  cases l with
  | bool b => cases h
  | int a =>
    cases r with
    | bool b => cases h
    | int b =>
      obtain ⟨c, rfl⟩ := calculate_int_ok h
      simp [Value.ty]
    | float y =>
      obtain ⟨x, rfl⟩ := calculate_float_ok (by simp [Value.ty]) (by simp [Value.ty]) (.inr rfl) h
      simp [Value.ty]
  | float x =>
    have hr : r.ty ≠ .bool := by
      rintro hb
      cases r <;> simp [Value.ty] at hb
      cases h
    obtain ⟨z, rfl⟩ := calculate_float_ok (by simp [Value.ty]) hr (.inl rfl) h
    exact ⟨by simp [Value.ty], hr, by simp [Value.ty]⟩

/-! ### The order of the checks and the computation -/

/-- An arithmetic step reports a truth value on the left first and one on the right next; then a
numeric zero divisor of `/`, whatever is divided; a result is an integer exactly when both
operands are; and on two integers an exact operator gives the exact result when it fits in 64
bits and overflows otherwise. -/
theorem calculate_checks_then_computes (op : String) (l r : Value) :
    (l.ty = .bool → calculate op l r = .error (.notNumeric op .bool)) ∧
    (l.ty ≠ .bool → r.ty = .bool → calculate op l r = .error (.notNumeric op .bool)) ∧
    (l.ty ≠ .bool → r.ty ≠ .bool → op = "/" → r.isZero = true →
      calculate op l r = .error .divisionByZero) ∧
    (∀ v, calculate op l r = .ok v → (v.ty = .int ↔ l.ty = .int ∧ r.ty = .int)) ∧
    ∀ f, (op, f) ∈ exactIntOps → ∀ a b : Int64, l = .int a → r = .int b → ¬(op = "/" ∧ b = 0) →
      (-Int.pow 2 63 ≤ f a.toInt b.toInt ∧ f a.toInt b.toInt < Int.pow 2 63 →
        ∃ c : Int64, c.toInt = f a.toInt b.toInt ∧ calculate op l r = .ok (.int c)) ∧
      (¬(-Int.pow 2 63 ≤ f a.toInt b.toInt ∧ f a.toInt b.toInt < Int.pow 2 63) →
        calculate op l r = .error (.overflow op)) := by
  refine ⟨fun hl => ?_, fun hl hr => ?_, fun hl hr hop hz => ?_, fun v h => (calculate_ok h).2.2,
    fun f hf a b hl hr hz => ?_⟩
  · obtain ⟨b, rfl⟩ := Value.ty_eq_bool.mp hl
    exact calculate_bool_left op b r
  · obtain ⟨b, rfl⟩ := Value.ty_eq_bool.mp hr
    exact calculate_bool_right op hl b
  · subst hop
    exact calculate_div_zero hl hr hz
  · subst hl hr
    obtain ⟨hres, hpow⟩ := intResult?_of_exact hf a.toInt b.toInt
    rw [calculate_int_exact a b hpow hz hres]
    refine ⟨fun hin => ⟨_, ?_, if_pos hin⟩, fun hout => if_neg hout⟩
    -- in range, the 64-bit integer made from the exact result stands for it
    have hp : Int.pow 2 63 = 2 ^ 63 := rfl
    rw [hp] at hin
    exact Int64.toInt_ofInt_of_le hin.1 hin.2

example : calculate "/" (.int Int64.minValue) (.int (-1)) = .error (.overflow "/") := by rfl

end RpnLang
