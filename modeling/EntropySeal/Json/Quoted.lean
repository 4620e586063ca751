import EntropySeal.Bytes
import EntropySeal.Error

/-!
# Quoted texts

In JSON a text stands between quotation marks.  Quotation marks, backslashes
and control characters are escaped inside; a reader also accepts escapes of
other characters, by their UTF-16 units in four hexadecimal digits.

`readQuoted` reads a text whose value is used, so a unit of a surrogate pair
must have its partner.  `skipQuoted` passes over a text nobody uses, where
units need not pair.
-/

namespace EntropySeal.Json

/-! ## Writing -/

/-- A control character by its code. -/
def controlEscape (c : Char) : List Char :=
  ['\\', 'u', '0', '0',
    Bytes.hexDigit (UInt8.ofNat (c.toNat / 16)), Bytes.hexDigit (UInt8.ofNat (c.toNat % 16))]

/-- A character as it stands between quotation marks. -/
def escape (c : Char) : List Char :=
  if c = '"' then ['\\', '"']
  else if c = '\\' then ['\\', '\\']
  else if c = '\x08' then ['\\', 'b']
  else if c = '\x0c' then ['\\', 'f']
  else if c = '\n' then ['\\', 'n']
  else if c = '\r' then ['\\', 'r']
  else if c = '\t' then ['\\', 't']
  else if c < ' ' then controlEscape c
  else [c]

/-- A text between quotation marks. -/
def quote (s : String) : List Char :=
  '"' :: s.toList.flatMap escape ++ ['"']

/-! ## Reading -/

/-- The character that a letter after a backslash stands for. -/
def unescape? (letter : Char) : Option Char :=
  if letter = '"' then some '"'
  else if letter = '\\' then some '\\'
  else if letter = '/' then some '/'
  else if letter = 'b' then some '\x08'
  else if letter = 'f' then some '\x0c'
  else if letter = 'n' then some '\n'
  else if letter = 'r' then some '\r'
  else if letter = 't' then some '\t'
  else none

/-- The UTF-16 unit of four hexadecimal digits. -/
def unit? (a b c d : Char) : Option Nat := do
  let a ← Bytes.hexValue? a
  let b ← Bytes.hexValue? b
  let c ← Bytes.hexValue? c
  let d ← Bytes.hexValue? d
  pure (((a * 16 + b) * 16 + c) * 16 + d)

/-- The unit is the first one of a pair. -/
def isFirstOfPair (unit : Nat) : Bool :=
  0xD800 ≤ unit && unit ≤ 0xDBFF

/-- The unit is the second one of a pair. -/
def isSecondOfPair (unit : Nat) : Bool :=
  0xDC00 ≤ unit && unit ≤ 0xDFFF

/-- The character of a pair of units. -/
def ofPair (first second : Nat) : Char :=
  Char.ofNat (0x10000 + (first - 0xD800) * 0x400 + (second - 0xDC00))

/-- What is wrong with an escape that has less than four characters left: the
text ends in it, unless their UTF-8 form has four bytes. -/
def shortEscape (rest : List Char) : TextFault :=
  if (rest.map Char.utf8Size).foldl (· + ·) 0 < 4 then .ended else .malformed

/-- Read on in a text after its opening quotation mark.  The characters read so
far are given in reverse, and so is a unit that waits for its partner. -/
def readQuoted (before : List Char) (first : Option Nat) :
    List Char → Except TextFault (List Char × List Char)
  | [] => .error .ended
  | c :: rest =>
      if c = '\\' then
        match rest with
        | [] => .error .ended
        | letter :: rest =>
            if letter = 'u' then
              match rest with
              | h₁ :: h₂ :: h₃ :: h₄ :: rest =>
                  match unit? h₁ h₂ h₃ h₄, first with
                  | none, _ => .error .malformed
                  | some unit, none =>
                      if isSecondOfPair unit then .error .malformed
                      else if isFirstOfPair unit then readQuoted before (some unit) rest
                      else readQuoted (Char.ofNat unit :: before) none rest
                  | some unit, some first =>
                      if isSecondOfPair unit then readQuoted (ofPair first unit :: before) none rest
                      else .error .malformed
              | rest => .error (shortEscape rest)
            else
              match unescape? letter, first with
              | some c, none => readQuoted (c :: before) none rest
              | _, _ => .error .malformed
      else if first.isSome then .error .malformed
      else if c = '"' then .ok (before.reverse, rest)
      else if c < ' ' then .error .malformed
      else readQuoted (c :: before) none rest

/-- Pass over a text after its opening quotation mark. -/
def skipQuoted : List Char → Except TextFault (List Char)
  | [] => .error .ended
  | c :: rest =>
      if c = '\\' then
        match rest with
        | [] => .error .ended
        | letter :: rest =>
            if letter = 'u' then
              match rest with
              | h₁ :: h₂ :: h₃ :: h₄ :: rest =>
                  if (unit? h₁ h₂ h₃ h₄).isSome then skipQuoted rest else .error .malformed
              | rest => .error (shortEscape rest)
            else if (unescape? letter).isSome then skipQuoted rest
            else .error .malformed
      else if c = '"' then .ok rest
      else if c < ' ' then .error .malformed
      else skipQuoted rest

end EntropySeal.Json
