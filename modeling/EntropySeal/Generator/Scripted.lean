import EntropySeal.Effect

/-!
# Generators that play a script

Bytes laid down in advance stand in for a generator, and the size of every
request is kept.  How a draw asks for bytes, and what it makes of them, can then
be watched.

A script is played once, and then refuses what it cannot give in full, or over
and over for a bounded number of requests.
-/

namespace EntropySeal

/-- Bytes to give, and what was asked for so far. -/
structure Script where
  bytes : Bytes
  /-- How many bytes were given. -/
  used : Nat := 0
  /-- The sizes asked for, oldest first. -/
  requests : Array Nat := #[]
  deriving DecidableEq, Repr

namespace Script

/-- Note a request. -/
def asked (s : Script) (n : Nat) : Script :=
  { s with requests := s.requests.push n }

/-- Note that bytes were given. -/
def given (s : Script) (n : Nat) : Script :=
  { s with used := s.used + n }

/-- Give the bytes in order.  A request for more than is left fails and uses
none of them. -/
def playOnce (name : String) : Fill Script := fun n =>
  Action.step fun s =>
    let rest := s.bytes.drop s.used
    if rest.length < n then (.failed (.sourceFailed name "script exhausted"), s.asked n)
    else (⟨rest.take n, none⟩, (s.asked n).given n)

/-- Give the bytes over and over, in at most `most` requests. -/
def playOver (most : Nat) : Fill Script := fun n =>
  Action.step fun s =>
    if s.requests.size < most then
      let start := s.used % s.bytes.length
      (⟨(Bytes.cycle s.bytes (start + n)).drop start, none⟩, (s.asked n).given n)
    else (.failed (.badArgument "too many calls"), s.asked n)

end Script

end EntropySeal
