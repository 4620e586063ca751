import EntropySeal.Effect

/-!
# Draws from a generator of bytes

Everything a caller can ask of a generator is derived from filling a buffer:
byte strings, little-endian integers, truth values, uniform integers of a
range, and byte strings without a zero byte.

The last two ask again until they have what they need.  How often is up to the
generator, so they take a bound on the number of requests and answer nothing
when it is used up.
-/

namespace EntropySeal

namespace Fill

variable {σ : Type}

/-- `n` bytes. -/
def getBytes (fill : Fill σ) (n : Nat) : Attempt σ Bytes := do
  let delivery ← fill n
  ExceptT.mk (pure delivery.toExcept)

/-- The number held by the next `n` bytes, least significant first. -/
def nextNat (fill : Fill σ) (n : Nat) : Attempt σ Nat :=
  Bytes.ofLe <$> getBytes fill n

/-- The next four bytes as an integer. -/
def nextUInt32 (fill : Fill σ) : Attempt σ UInt32 :=
  UInt32.ofNat <$> nextNat fill 4

/-- The next eight bytes as an integer. -/
def nextUInt64 (fill : Fill σ) : Attempt σ UInt64 :=
  UInt64.ofNat <$> nextNat fill 8

/-- The lowest bit of the next byte. -/
def nextBool (fill : Fill σ) : Attempt σ Bool :=
  (fun n => n % 2 == 1) <$> nextNat fill 1

/-! ## Uniform integers -/

/-- How many integers lie between two bounds. -/
def span (least greatest : Int64) : Nat :=
  (greatest.toInt - least.toInt + 1).toNat

/-- The number of eight-byte words. -/
def wordCount : Nat := UInt64.size

/-- Words below the zone, the largest multiple of the span among the words, are
accepted. -/
def zone (span : Nat) : Nat :=
  wordCount - wordCount % span

/-- The integer of the range that an accepted word stands for. -/
def pick (least : Int64) (span word : Nat) : Int64 :=
  if span = wordCount then Int64.ofInt word
  else Int64.ofInt (least.toInt + (word % span : Nat))

/-- Draw words until one is accepted, at most `fuel` of them. -/
def drawBelow (fill : Fill σ) (zone : Nat) : Nat → Attempt σ (Option Nat)
  | 0 => pure none
  | fuel + 1 => do
      let word ← nextUInt64 fill
      if word.toNat < zone then pure (some word.toNat) else drawBelow fill zone fuel

/-- An integer between two bounds, each as likely as any other, from at most
`fuel` words. -/
def nextInRange (fill : Fill σ) (fuel : Nat) (least greatest : Int64) :
    Attempt σ (Option Int64) := do
  if greatest < least then throw (.emptyRange least.toInt greatest.toInt)
  let size := span least greatest
  let word ← drawBelow fill (zone size) fuel
  pure (word.map (pick least size))

/-! ## Bytes other than zero -/

/-- How many bytes to ask for when `missing` are missing: a twentieth more and
one, so that one request mostly does. -/
def requestSize (missing : Nat) : Nat :=
  missing + missing / 20 + 1

/-- Collect bytes other than zero until none of `missing` is missing, in at
most `fuel` requests. -/
def collectNonZero (fill : Fill σ) : Nat → Nat → Bytes → Action σ (Option Delivery)
  | _, 0, collected => pure (some ⟨collected, none⟩)
  | 0, _ + 1, _ => pure none
  | fuel + 1, missing + 1, collected => do
      let size := requestSize (missing + 1)
      let delivery ← fill size
      match delivery.failure with
      | some e => pure (some ⟨collected, some e⟩)
      | none =>
          let usable := ((delivery.writtenTo (Bytes.zeros size)).filter (· != 0)).take (missing + 1)
          collectNonZero fill fuel (missing + 1 - usable.length) (collected ++ usable)

/-- `n` bytes other than zero, in at most `fuel` requests. -/
def fillNonZero (fill : Fill σ) (fuel n : Nat) : Action σ (Option Delivery) :=
  collectNonZero fill fuel n []

end Fill

end EntropySeal
