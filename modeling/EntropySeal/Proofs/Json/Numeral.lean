import EntropySeal.Json.Numeral

/-!
# Whole numbers

JSON writes a whole number in decimal digits without needless zeros.  Its numeral is
read in full, up to something that cannot go on with it (`read_of_numberText`), and
denotes the number as a word if it is less than `2 ^ 64` (`toWord_plain`).
-/

namespace EntropySeal

/-! ## The notation -/

namespace Decimal

/-- A digit is written as a digit. -/
theorem isDigit_digitChar {d : Nat} (small : d < 10) : (digitChar d).isDigit = true := by
  have all : ∀ d < 10, (digitChar d).isDigit = true := by decide
  exact all d small

theorem digitValue_digitChar {d : Nat} (small : d < 10) : digitValue (digitChar d) = d := by
  have all : ∀ d < 10, digitValue (digitChar d) = d := by decide
  exact all d small

theorem digits_ne_nil (n : Nat) : digits n ≠ [] := by
  rw [digits]
  split <;> simp

/-- Only zero starts with zero. -/
theorem head?_digits_ne {n : Nat} (large : 10 ≤ n) : (digits n).head? ≠ some 0 := by
  fun_induction digits n with
  | case1 n small => omega
  | case2 n _ ih =>
      rw [List.head?_append, Option.or_of_isSome (by simp [digits_ne_nil])]
      rcases Nat.lt_or_ge (n / 10) 10 with small | large
      · rw [digits, if_pos small]
        simp
        omega
      · exact ih large

end Decimal

namespace Json

open Decimal (digitChar digitValue ofDigits digits)

/-- A whole number in decimal digits; only a lone zero starts with zero. -/
inductive NumberText : Nat → List Char → Prop where
  | digits {ds : List Nat} : (∀ d ∈ ds, d < 10) → ds ≠ [] → (ds.head? = some 0 → ds.length = 1) →
      NumberText (ofDigits ds) (ds.map digitChar)

theorem numberText_write (n : Nat) : NumberText n (Decimal.write n) := by
  have text : NumberText (ofDigits (digits n)) ((digits n).map digitChar) := by
    refine .digits (fun d => Decimal.lt_ten_of_mem_digits) (Decimal.digits_ne_nil n) ?_
    intro zero
    rcases Nat.lt_or_ge n 10 with small | large
    · rw [Decimal.digits, if_pos small]
      rfl
    · exact absurd zero (Decimal.head?_digits_ne large)
  rwa [Decimal.ofDigits_digits] at text

namespace Numeral

/-- Nothing at the start of this text can go on with a numeral. -/
def Stops (rest : List Char) : Prop :=
  ∀ c ∈ rest.head?, c.isDigit = false ∧ c ≠ '.' ∧ c ≠ 'e' ∧ c ≠ 'E'

/-! ## Reading -/

theorem readFraction_of_stops {rest : List Char} (stops : Stops rest) :
    readFraction rest = .ok (none, rest) := by
  cases rest with
  | nil => rfl
  | cons c rest =>
      obtain ⟨-, notPoint, -, -⟩ := stops c rfl
      rw [readFraction, if_neg notPoint]

theorem readExponent_of_stops {rest : List Char} (stops : Stops rest) :
    readExponent rest = .ok (none, rest) := by
  cases rest with
  | nil => rfl
  | cons c rest =>
      obtain ⟨-, -, notLower, notUpper⟩ := stops c rfl
      rw [readExponent, if_neg (not_or.mpr ⟨notLower, notUpper⟩)]

/-- Digits are read up to something else. -/
theorem readDigits_of_stops {ds : List Nat} {rest : List Char} (small : ∀ d ∈ ds, d < 10)
    (some : ds ≠ []) (stops : Stops rest) :
    readDigits (ds.map digitChar ++ rest) = .ok (ds, rest) := by
  have digits : ∀ c ∈ ds.map digitChar, c.isDigit = true := by
    intro c member
    obtain ⟨d, among, rfl⟩ := List.mem_map.mp member
    exact Decimal.isDigit_digitChar (small d among)
  have taken : rest.takeWhile Char.isDigit = [] ∧ rest.dropWhile Char.isDigit = rest := by
    cases rest with
    | nil => exact ⟨rfl, rfl⟩
    | cons c rest => simp [(stops c rfl).1]
  have values : (ds.map digitChar).map digitValue = ds := by
    rw [List.map_map]
    refine Eq.trans (List.map_congr_left ?_) (List.map_id ds)
    intro d among
    exact Decimal.digitValue_digitChar (small d among)
  obtain ⟨d, ds, rfl⟩ := List.exists_cons_of_ne_nil some
  have first : (digitChar d).isDigit = true := digits _ (by simp)
  have read : readDigits ((d :: ds).map digitChar ++ rest) =
      .ok ((((d :: ds).map digitChar ++ rest).takeWhile Char.isDigit).map digitValue,
        ((d :: ds).map digitChar ++ rest).dropWhile Char.isDigit) := by
    rw [List.map_cons, List.cons_append, readDigits, if_pos first]
  rw [read, List.takeWhile_append_of_pos digits, List.dropWhile_append_of_pos digits, taken.1,
    taken.2, List.append_nil, values]

/-- A numeral without sign, fraction and exponent. -/
def plain (ds : List Nat) : Numeral :=
  ⟨false, ds, none, none⟩

theorem read_of_stops {ds : List Nat} {rest : List Char} (small : ∀ d ∈ ds, d < 10)
    (nonempty : ds ≠ []) (zero : ds.head? = some 0 → ds.length = 1) (stops : Stops rest) :
    Numeral.read (ds.map digitChar ++ rest) = .ok (plain ds, rest) := by
  have unsigned : readMinus (ds.map digitChar ++ rest) = (false, ds.map digitChar ++ rest) := by
    obtain ⟨d, ds, rfl⟩ := List.exists_cons_of_ne_nil nonempty
    have digit := Decimal.isDigit_digitChar (small d List.mem_cons_self)
    have notMinus : digitChar d ≠ '-' := by
      intro minus
      rw [minus] at digit
      cases digit
    rw [List.map_cons, List.cons_append, readMinus, if_neg notMinus]
  have usual : ¬(ds.head? = some 0 ∧ ds.length > 1) := by
    rintro ⟨first, more⟩
    rw [zero first] at more
    exact Nat.lt_irrefl 1 more
  simp only [Numeral.read, unsigned, readDigits_of_stops small nonempty stops,
    readFraction_of_stops stops, readExponent_of_stops stops, bind, Except.bind, usual, if_false]
  rfl

/-! ## Range -/

theorem le_foldl_digits (s : Nat) (ds : List Nat) :
    s ≤ ds.foldl (fun n d => 10 * n + d) s := by
  induction ds generalizing s with
  | nil => exact Nat.le_refl s
  | cons d ds ih => exact Nat.le_trans (by omega) (ih (10 * s + d))

/-- Digits of a word all go into the significand. -/
theorem fit_of_lt {s : Nat} {ds : List Nat}
    (word : ds.foldl (fun n d => 10 * n + d) s < wordCount) :
    fit s ds = (ds.foldl (fun n d => 10 * n + d) s, []) := by
  induction ds generalizing s with
  | nil => rfl
  | cons d ds ih =>
      rw [fit, if_pos (Nat.lt_of_le_of_lt (le_foldl_digits _ ds) word), ih word]
      rfl

/-- Rounding a word adds little to it. -/
theorem roundTo53_le {n : Nat} (word : n < wordCount) : roundTo53 n ≤ n + 1 <<< 12 := by
  have bits : n.log2 - 52 ≤ 12 := by
    rcases Nat.eq_zero_or_pos n with rfl | pos
    · decide
    · have short := (Nat.log2_lt (Nat.ne_of_gt pos)).mpr (show n < 2 ^ 64 from word)
      omega
  have unit : 1 <<< (n.log2 - 52) ≤ 1 <<< 12 := by
    rw [Nat.one_shiftLeft, Nat.one_shiftLeft]
    exact Nat.pow_le_pow_right (by decide) bits
  have pos : 0 < 1 <<< (n.log2 - 52) := by
    rw [Nat.one_shiftLeft]
    exact Nat.two_pow_pos _
  have close := (Decimal.roundDiv_close n pos).2
  rw [Nat.mul_assoc, Nat.mul_comm (1 <<< (n.log2 - 52))] at close
  rw [roundTo53]
  omega

/-- A whole number below `2 ^ 64` is within the range of floating-point numbers. -/
theorem isOutOfRange_plain {ds : List Nat} (word : ofDigits ds < wordCount) :
    (plain ds).isOutOfRange = false := by
  have scaled : (plain ds).scaled = (ofDigits ds, 0) := by
    rw [Numeral.scaled, plain, fit_of_lt word]
    rfl
  have within : roundTo53 (ofDigits ds) < rangeEnd := by
    have close := roundTo53_le word
    have range : wordCount + 1 <<< 12 < rangeEnd := by decide +kernel
    omega
  have power : roundTo53 1 = 1 := by decide
  simp [isOutOfRange, scaled, power, within, maxPower]

theorem toWord_plain {ds : List Nat} (word : ofDigits ds < wordCount) :
    (plain ds).toWord = .ok (UInt64.ofNat (ofDigits ds)) := by
  rw [toWord, isOutOfRange_plain word]
  simp [plain, word]

/-- A whole number in digits is read as itself. -/
theorem read_of_numberText {n : Nat} {cs rest : List Char} (text : NumberText n cs)
    (word : n < wordCount) (stops : Stops rest) :
    ∃ numeral, Numeral.read (cs ++ rest) = .ok (numeral, rest) ∧
      numeral.toWord = .ok (UInt64.ofNat n) := by
  cases text with
  | digits small nonempty zero =>
      exact ⟨_, read_of_stops small nonempty zero stops, toWord_plain word⟩

end Numeral

end Json

end EntropySeal
