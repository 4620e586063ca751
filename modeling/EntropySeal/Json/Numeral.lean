import EntropySeal.Decimal
import EntropySeal.Error

/-!
# Numerals

A numeral is a sign, a whole part, and perhaps a fraction and an exponent.
Whoever uses a number reads it as an unsigned word of 64 bits where its
numeral is a plain one, and as a binary floating-point number of 64 bits
otherwise; a numeral beyond the range of the latter is no number at all.
-/

namespace EntropySeal.Json

open Decimal (digitValue ofDigits roundDiv)

/-- A number as it is written. -/
structure Numeral where
  negative : Bool
  whole : List Nat
  /-- The digits after the point, where there is one. -/
  fraction : Option (List Nat)
  exponent : Option Int
  deriving DecidableEq, Repr

namespace Numeral

/-! ## Reading -/

/-- The digits that a text starts with, of which there must be one. -/
def readDigits (cs : List Char) : Except TextFault (List Nat × List Char) :=
  match cs with
  | [] => .error .ended
  | c :: _ =>
      if c.isDigit then
        .ok ((cs.takeWhile Char.isDigit).map digitValue, cs.dropWhile Char.isDigit)
      else .error .malformed

/-- The sign that a text starts with: a minus makes it negative. -/
def readMinus (cs : List Char) : Bool × List Char :=
  match cs with
  | [] => (false, [])
  | c :: rest => if c = '-' then (true, rest) else (false, cs)

/-- The fraction that a text starts with. -/
def readFraction (cs : List Char) : Except TextFault (Option (List Nat) × List Char) :=
  match cs with
  | [] => .ok (none, [])
  | c :: rest =>
      if c = '.' then do
        let (digits, rest) ← readDigits rest
        pure (some digits, rest)
      else .ok (none, cs)

/-- The sign of an exponent, which may be a plus. -/
def readSign (cs : List Char) : Bool × List Char :=
  match cs with
  | [] => (false, [])
  | c :: rest => if c = '+' then (false, rest) else readMinus cs

/-- The exponent that a text starts with. -/
def readExponent (cs : List Char) : Except TextFault (Option Int × List Char) :=
  match cs with
  | [] => .ok (none, [])
  | c :: rest =>
      if c = 'e' ∨ c = 'E' then do
        let (negative, rest) := readSign rest
        let (digits, rest) ← readDigits rest
        let size : Int := ofDigits digits
        pure (some (if negative then -size else size), rest)
      else .ok (none, cs)

/-- The numeral that a text starts with.  Only a lone zero starts with zero. -/
def read (cs : List Char) : Except TextFault (Numeral × List Char) := do
  let (negative, cs) := readMinus cs
  let (whole, cs) ← readDigits cs
  if whole.head? = some 0 ∧ whole.length > 1 then throw .malformed
  let (fraction, cs) ← readFraction cs
  let (exponent, cs) ← readExponent cs
  pure (⟨negative, whole, fraction, exponent⟩, cs)

/-- Pass over a numeral nobody uses.  One that the text ends in is malformed. -/
def skip (cs : List Char) : Except TextFault (List Char) :=
  match read cs with
  | .ok (_, rest) => .ok rest
  | .error _ => .error .malformed

/-! ## Range -/

/-- The number of words of 64 bits. -/
def wordCount : Nat := UInt64.size

/-- Take digits on to a significand as long as it stays a word, and leave the
other digits over. -/
def fit (significand : Nat) : List Nat → Nat × List Nat
  | [] => (significand, [])
  | d :: ds =>
      if 10 * significand + d < wordCount then fit (10 * significand + d) ds
      else (significand, d :: ds)

/-- The significand and the power of ten that a numeral is reduced to.  Digits
beyond a word are dropped. -/
def scaled (n : Numeral) : Nat × Int :=
  let (significand, dropped) := fit 0 n.whole
  let fraction := n.fraction.getD []
  let (significand, unused) := fit significand fraction
  (significand,
    (dropped.length : Int) - (fraction.length - unused.length : Nat) + n.exponent.getD 0)

/-- Round to 53 binary digits, a half to the even neighbour. -/
def roundTo53 (n : Nat) : Nat :=
  let unit := 1 <<< (n.log2 - 52)
  roundDiv n unit * unit

/-- The greatest power of ten in the range of floating-point numbers. -/
def maxPower : Nat := 308

/-- Half a unit beyond the greatest floating-point number. -/
def rangeEnd : Nat :=
  (1 <<< 1024) - (1 <<< 970)

/-- The numeral is beyond the range of floating-point numbers. -/
def isOutOfRange (n : Numeral) : Bool :=
  let (significand, power) := n.scaled
  significand ≠ 0 && power ≥ 0 &&
    (power > maxPower || roundTo53 significand * roundTo53 (Nat.pow 10 power.toNat) ≥ rangeEnd)

/-- The word that a numeral denotes.  Only plain numerals denote words; a minus
sign, a fraction or an exponent makes another number of it. -/
def toWord (n : Numeral) : Except TextFault UInt64 :=
  if n.isOutOfRange then .error .malformed
  else if n.negative ∨ n.fraction.isSome ∨ n.exponent.isSome then .error .mismatched
  else if ofDigits n.whole < wordCount then .ok (UInt64.ofNat (ofDigits n.whole))
  else .error .mismatched

end Numeral

end EntropySeal.Json
