import EntropySeal.Digest
import EntropySeal.Error

/-!
# The stretching generator

A deterministic generator that stretches a seed with a digest.  It keeps a
seed, a state block and a counter for each.  `generate` makes the next state
block from the counter, the old block and the seed, and every tenth value of
the counter also renews the seed.  Seed material is mixed into the seed and
never replaces it.

Requests are served from whole blocks: each request starts a new block and
drops what it leaves over (`nextBytes`).
-/

namespace EntropySeal

/-- The state of a stretching generator. -/
structure Stretcher where
  digest : Digest
  seed : Bytes
  seedCounter : UInt64
  block : Bytes
  blockCounter : UInt64

/-- What one request took from a generator. -/
structure Stretched where
  bytes : Bytes
  /-- State blocks generated for the request. -/
  blocks : Nat
  next : Stretcher

namespace Stretcher

/-- The seed is renewed whenever the block counter is a multiple of this. -/
def cycleLength : UInt64 := 10

/-- A generator before it has any seed material. -/
def new (digest : Digest) : Stretcher where
  digest
  seed := Bytes.zeros digest.size
  seedCounter := 1
  block := Bytes.zeros digest.size
  blockCounter := 1

/-- Bytes in the current state block. -/
def blockSize (g : Stretcher) : Nat :=
  g.block.length

/-- What is hashed to mix material into the seed. -/
def seedInput (g : Stretcher) (material : Bytes) : Bytes :=
  material ++ g.seed

/-- Mix material into the seed. -/
def addSeedMaterial (g : Stretcher) (material : Bytes) : Stretcher :=
  { g with seed := g.digest.hash (g.seedInput material) }

/-- What is hashed to renew the seed. -/
def cycleInput (g : Stretcher) : Bytes :=
  g.seed ++ Bytes.toLe 8 g.seedCounter.toNat

/-- Renew the seed. -/
def cycleSeed (g : Stretcher) : Stretcher :=
  { g with
    seed := g.digest.hash g.cycleInput
    seedCounter := g.seedCounter + 1 }

/-- What is hashed to make the next state block. -/
def blockInput (g : Stretcher) : Bytes :=
  Bytes.toLe 8 g.blockCounter.toNat ++ g.block ++ g.seed

/-- Make the next state block, and renew the seed when its turn has come. -/
def generate (g : Stretcher) : Stretcher :=
  let next := { g with
    block := g.digest.hash g.blockInput
    blockCounter := g.blockCounter + 1 }
  if next.blockCounter % cycleLength = 0 then next.cycleSeed else next

/-- Serve `n` more bytes from blocks still to be generated, after the given
bytes, latest piece first, and the given number of blocks. -/
def serve (g : Stretcher) (n : Nat) (pieces : List Bytes) (blocks : Nat) :
    Except Error Stretched :=
  if n = 0 then .ok ⟨pieces.reverse.flatten, blocks, g⟩
  else
    let g := g.generate
    match g.block with
    | [] => .error .emptyBlock
    | b :: bs => serve g (n - (b :: bs).length) ((b :: bs).take n :: pieces) (blocks + 1)
termination_by n
decreasing_by simp; omega

/-- Serve `n` bytes.  A digest that returns no bytes at all leaves a block
nothing can be read from; the first block of a request is tried twice. -/
def nextBytes (g : Stretcher) (n : Nat) : Except Error Stretched :=
  if n = 0 then .ok ⟨[], 0, g⟩
  else
    let g := g.generate
    serve g (n - g.block.length) [g.block.take n] 1

@[simp]
theorem nextBytes_zero (g : Stretcher) : g.nextBytes 0 = .ok ⟨[], 0, g⟩ :=
  rfl

end Stretcher

end EntropySeal
