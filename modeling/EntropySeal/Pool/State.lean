import EntropySeal.Pool.Record

/-!
# Drawing from a pool and stirring it

Every drawn block is a digest of the position and the whole pool.  The window
of the pool at the position is then masked with a digest of the block, so the
block cannot be found again from what is left, and the position moves on,
around the end to the start.

Stirring masks every window with a digest of its number, the material and the
window itself.
-/

namespace EntropySeal.Pool.State

/-- The block that a pool gives next. -/
def block (s : State) : Bytes :=
  Digest.Sha2.sha256
    (Bytes.ofText "output" ++ Bytes.toLe positionWidth s.position ++ s.bytes)

/-- The mask laid over the window that gave a block. -/
def advanceMask (block : Bytes) : Bytes :=
  Digest.Sha2.sha256 (Bytes.ofText "advance" ++ block)

/-- The pool after its next block was taken. -/
def advance (s : State) : State where
  position := (s.position + blockSize) % poolSize
  bytes :=
    s.bytes.take s.position ++
      Bytes.xor ((s.bytes.drop s.position).take blockSize) (advanceMask s.block) ++
      s.bytes.drop (s.position + blockSize)

/-- The next blocks of a pool, and the pool after them. -/
def draw : Nat → State → List Bytes × State
  | 0, s => ([], s)
  | k + 1, s =>
      let (blocks, last) := draw k s.advance
      (s.block :: blocks, last)

/-- How many blocks a request of `n` bytes takes. -/
def blockCount (n : Nat) : Nat :=
  (n + blockSize - 1) / blockSize

/-- The next `n` bytes of a pool, from whole blocks, and the pool after them. -/
def take (n : Nat) (s : State) : Bytes × State :=
  let (blocks, last) := draw (blockCount n) s
  (blocks.flatten.take n, last)

/-- The mask laid over window number `i` by stirring. -/
def stirMask (material : Bytes) (i : Nat) (window : Bytes) : Bytes :=
  Digest.Sha2.sha256 (Bytes.ofText "stir" ++ Bytes.toLe 8 i ++ material ++ window)

/-- Stir the windows from number `i` on. -/
def stirWindows (material : Bytes) : Nat → List Bytes → Bytes
  | _, [] => []
  | i, window :: rest =>
      Bytes.xor window (stirMask material i window) ++ stirWindows material (i + 1) rest

/-- Mix material into the whole pool. -/
def stir (material : Bytes) (s : State) : State :=
  { s with bytes := stirWindows material 0 (Bytes.blocks blockSize s.bytes) }

end EntropySeal.Pool.State
