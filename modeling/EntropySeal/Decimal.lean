/-!
# Decimal numbers

Digits of natural numbers, quotients rounded to the nearest number, and
floating-point numbers written with a fixed number of places.

The digits of a number denote it (`ofDigits_digits`), and a rounded
quotient is within half a unit of the exact one (`roundDiv_close`).
-/

namespace EntropySeal.Decimal

/-! ## Digits -/

/-- The decimal digits of a number, most significant first. -/
def digits (n : Nat) : List Nat :=
  if n < 10 then [n] else digits (n / 10) ++ [n % 10]
termination_by n

/-- The number that digits denote. -/
def ofDigits (digits : List Nat) : Nat :=
  digits.foldl (fun n d => 10 * n + d) 0

theorem ofDigits_append_singleton (ds : List Nat) (d : Nat) :
    ofDigits (ds ++ [d]) = 10 * ofDigits ds + d := by
  simp [ofDigits]

/-- The digits of a number denote it. -/
theorem ofDigits_digits (n : Nat) : ofDigits (digits n) = n := by
  fun_induction digits n with
  | case1 n small => simp [ofDigits]
  | case2 n large ih =>
      rw [ofDigits_append_singleton, ih]
      omega

/-- Decimal digits are less than ten. -/
theorem lt_ten_of_mem_digits {n d : Nat} (h : d ∈ digits n) : d < 10 := by
  fun_induction digits n with
  | case1 n small => simp_all
  | case2 n large ih =>
      rcases List.mem_append.mp h with earlier | last
      · exact ih earlier
      · have : d = n % 10 := by simpa using last
        omega

/-- The character of a decimal digit. -/
def digitChar (d : Nat) : Char :=
  Char.ofNat ('0'.toNat + d)

/-- The value of a decimal digit. -/
def digitValue (c : Char) : Nat :=
  c.toNat - '0'.toNat

/-- A number in decimal digits. -/
def write (n : Nat) : List Char :=
  (digits n).map digitChar

/-! ## Rounding -/

/-- The natural number nearest to a quotient, of two the even one. -/
def roundDiv (n d : Nat) : Nat :=
  let low := n / d
  let twice := 2 * (n % d)
  if twice > d ∨ (twice = d ∧ low % 2 = 1) then low + 1 else low

/-- A rounded quotient is within half a unit of the exact one. -/
theorem roundDiv_close (n : Nat) {d : Nat} (pos : 0 < d) :
    2 * n ≤ 2 * d * roundDiv n d + d ∧ 2 * d * roundDiv n d ≤ 2 * n + d := by
  have whole := Nat.div_add_mod n d
  have part := Nat.mod_lt n pos
  have up : 2 * d * (n / d + 1) = 2 * (d * (n / d)) + 2 * d := by
    rw [Nat.mul_assoc, Nat.mul_add, Nat.mul_one, Nat.mul_add]
  have down : 2 * d * (n / d) = 2 * (d * (n / d)) := Nat.mul_assoc 2 d (n / d)
  simp only [roundDiv]
  split <;> simp only [up, down] <;> omega

/-! ## Fixed places -/

/-- A number of units of the last place, with a point before the last
`places` digits. -/
def withPoint (places units : Nat) : String :=
  let whole := write (units / Nat.pow 10 places)
  let part := write (units % Nat.pow 10 places)
  let padding := List.replicate (places - part.length) '0'
  String.ofList (if places = 0 then whole else whole ++ '.' :: padding ++ part)

/-- The whole number of units that a finite floating-point number, without its
sign, is nearest to, when `scale` units make one. -/
def unitsOf (scale : Nat) (x : Float) : Nat :=
  let bits := x.toBits.toNat
  let exponent := (bits >>> 52) % (1 <<< 11)
  let part := bits % (1 <<< 52)
  let significand := part + (1 <<< 52)
  if exponent = 0 then roundDiv (part * scale) (1 <<< 1074)
  else if exponent < 1075 then roundDiv (significand * scale) (1 <<< (1075 - exponent))
  else (significand * scale) <<< (exponent - 1075)

/-- A finite floating-point number with a fixed number of places.  Zero has no
sign. -/
def fixed (places : Nat) (x : Float) : String :=
  let units := unitsOf (Nat.pow 10 places) x
  (if x < 0 ∧ units ≠ 0 then "-" else "") ++ withPoint places units

end EntropySeal.Decimal
