/-!
# Byte strings

Byte strings are lists of bytes.  This file supplies what every other part of
the library does with them: fixed-width numbers in either byte order, bytewise
exclusive or, cutting into blocks, repeating a pattern, and hexadecimal text.

Numbers of `n` bytes and byte strings of length `n` determine each other
(`ofLe_toLe`, `toLe_ofLe`), and exclusive or with a mask undoes itself
(`xor_xor_cancel_right`).
-/

namespace EntropySeal

/-- A byte string. -/
abbrev Bytes := List UInt8

namespace Bytes

/-! ## Numbers -/

/-- The `n` low bytes of a number, least significant first. -/
def toLe : Nat → Nat → Bytes
  | 0, _ => []
  | n + 1, x => UInt8.ofNat x :: toLe n (x / 256)

/-- The number written least significant byte first. -/
def ofLe : Bytes → Nat
  | [] => 0
  | b :: bs => b.toNat + 256 * ofLe bs

/-- The `n` low bytes of a number, most significant first. -/
def toBe (n x : Nat) : Bytes :=
  (toLe n x).reverse

/-- The number written most significant byte first. -/
def ofBe (bs : Bytes) : Nat :=
  ofLe bs.reverse

@[simp]
theorem length_toLe (n x : Nat) : (toLe n x).length = n := by
  induction n generalizing x with
  | zero => rfl
  | succ n ih => simp [toLe, ih]

@[simp]
theorem length_toBe (n x : Nat) : (toBe n x).length = n := by
  simp [toBe]

/-- Reading back `n` bytes of a number gives it modulo `256 ^ n`. -/
theorem ofLe_toLe (n x : Nat) : ofLe (toLe n x) = x % Nat.pow 256 n := by
  induction n generalizing x with
  | zero => exact (Nat.mod_one x).symm
  | succ n ih =>
      simp only [toLe, ofLe, ih, UInt8.toNat_ofNat']
      rw [show Nat.pow 256 (n + 1) = 256 * Nat.pow 256 n from Nat.mul_comm _ _, Nat.mod_mul]

/-- A byte string is the little-endian form of the number it denotes. -/
theorem toLe_ofLe (bs : Bytes) : toLe bs.length (ofLe bs) = bs := by
  induction bs with
  | nil => rfl
  | cons b bs ih =>
      have low : UInt8.ofNat (b.toNat + 256 * ofLe bs) = b := by
        apply UInt8.toNat_inj.mp
        have := b.toNat_lt
        simp only [UInt8.toNat_ofNat']
        omega
      have high : (b.toNat + 256 * ofLe bs) / 256 = ofLe bs := by
        have := b.toNat_lt
        omega
      simp [ofLe, toLe, low, high, ih]

/-! ## Exclusive or -/

/-- Bytewise exclusive or, as long as the shorter operand. -/
def xor (a b : Bytes) : Bytes :=
  List.zipWith (· ^^^ ·) a b

@[simp]
theorem length_xor (a b : Bytes) : (xor a b).length = min a.length b.length := by
  simp [xor]

/-- Masking twice with one mask gives the byte string back. -/
theorem xor_xor_cancel_right {a b : Bytes} (same : a.length ≤ b.length) :
    xor (xor a b) b = a := by
  induction a generalizing b with
  | nil => simp [xor]
  | cons x a ih =>
      cases b with
      | nil => simp at same
      | cons y b =>
          have rest := ih (b := b) (by simpa using same)
          simp only [xor, List.zipWith_cons_cons] at rest ⊢
          rw [rest, UInt8.xor_assoc, UInt8.xor_self, UInt8.xor_zero]

/-- `n` zero bytes. -/
def zeros (n : Nat) : Bytes :=
  List.replicate n 0

@[simp]
theorem length_zeros (n : Nat) : (zeros n).length = n := by
  simp [zeros]

/-! ## Blocks and patterns -/

/-- Cut into blocks of `size` bytes, the last one possibly shorter.  Blocks of
size zero are cut one byte long. -/
def blocks (size : Nat) : Bytes → List Bytes
  | [] => []
  | b :: bs =>
      (b :: bs.take (size - 1)) :: blocks size (bs.drop (size - 1))
termination_by bs => bs.length
decreasing_by
  simp only [List.length_drop, List.length_cons]
  omega

/-- Cutting into blocks loses nothing and keeps the order. -/
theorem flatten_blocks (size : Nat) (bs : Bytes) : (blocks size bs).flatten = bs := by
  fun_induction blocks size bs with
  | case1 => rfl
  | case2 b bs ih => simp [ih]

/-- The first `n` bytes of `pattern` repeated for ever; the empty pattern
gives nothing. -/
def cycle (pattern : Bytes) (n : Nat) : Bytes :=
  if pattern.isEmpty then []
  else (List.replicate (n / pattern.length + 1) pattern).flatten.take n

/-- `n` bytes of the wrapping counter that starts at `start`. -/
def count (start : UInt8) : Nat → Bytes
  | 0 => []
  | n + 1 => start :: count (start + 1) n

@[simp]
theorem length_count (start : UInt8) (n : Nat) : (count start n).length = n := by
  induction n generalizing start with
  | zero => rfl
  | succ n ih => simp [count, ih]

/-! ## Hexadecimal text -/

/-- The digit of a half-byte, in lower case. -/
def hexDigit (n : UInt8) : Char :=
  if n < 10 then Char.ofNat ('0'.toNat + n.toNat) else Char.ofNat ('a'.toNat + n.toNat - 10)

/-- Two lower-case hexadecimal digits for each byte. -/
def toHex (bs : Bytes) : String :=
  String.ofList (bs.flatMap fun b => [hexDigit (b / 16), hexDigit (b % 16)])

/-- The value of a hexadecimal digit of either case. -/
def hexValue? (c : Char) : Option Nat :=
  if '0' ≤ c ∧ c ≤ '9' then some (c.toNat - '0'.toNat)
  else if 'a' ≤ c ∧ c ≤ 'f' then some (c.toNat - 'a'.toNat + 10)
  else if 'A' ≤ c ∧ c ≤ 'F' then some (c.toNat - 'A'.toNat + 10)
  else none

/-- The bytes of a text of digit pairs. -/
def ofHexDigits? : List Char → Option Bytes
  | [] => some []
  | [_] => none
  | high :: low :: rest => do
      let h ← hexValue? high
      let l ← hexValue? low
      let bs ← ofHexDigits? rest
      pure (UInt8.ofNat (16 * h + l) :: bs)

/-- The bytes of a hexadecimal text. -/
def ofHex? (s : String) : Option Bytes :=
  ofHexDigits? s.toList

/-- The UTF-8 bytes of a text. -/
def ofText (s : String) : Bytes :=
  s.toUTF8.toList

/-- The text whose UTF-8 form this is, if there is one. -/
def toText? (bs : Bytes) : Option String :=
  String.fromUTF8? ⟨bs.toArray⟩

end Bytes

end EntropySeal
