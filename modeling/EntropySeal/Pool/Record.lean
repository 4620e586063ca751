import EntropySeal.Digest
import EntropySeal.Error

/-!
# Records of a persisted pool

A pool of entropy is a position and a fixed number of bytes.  On disk it is a
record of fixed length: the width of the position, the position, the bytes and
their SHA-256 digest together with the position, numbers least significant
byte first.  The record is masked with a keystream drawn from a key, so only
the owner of the key can read it.

`decode` reads back what `encode` wrote and refuses everything else; masking a
second time with the same key takes the mask off.
-/

namespace EntropySeal.Pool

/-- Bytes in a pool. -/
def poolSize : Nat := 3072

/-- Bytes drawn at once. -/
def blockSize : Nat := 32

/-- Bytes of the position in a record. -/
def positionWidth : Nat := 4

/-- Bytes in a record. -/
def recordSize : Nat :=
  positionWidth + positionWidth + poolSize + blockSize

/-- A pool of entropy and the place its next block is taken from. -/
structure State where
  position : Nat
  bytes : Bytes
  deriving DecidableEq

/-- A pool that can be on disk. -/
structure State.Valid (s : State) : Prop where
  size : s.bytes.length = poolSize
  inside : s.position < poolSize
  aligned : blockSize ∣ s.position

/-- The digest that ties the bytes to the position. -/
def checksum (s : State) : Bytes :=
  Digest.Sha2.sha256 (Bytes.toLe positionWidth s.position ++ s.bytes)

/-- The record of a pool, before it is masked. -/
def encode (s : State) : Bytes :=
  Bytes.toLe positionWidth positionWidth ++ Bytes.toLe positionWidth s.position ++
    s.bytes ++ checksum s

/-- The part of a record that starts at `offset` and has `size` bytes. -/
def field (record : Bytes) (offset size : Nat) : Bytes :=
  (record.drop offset).take size

/-- The pool of a record, before any check of its content. -/
def fields (record : Bytes) : State where
  position := Bytes.ofLe (field record positionWidth positionWidth)
  bytes := field record (positionWidth + positionWidth) poolSize

/-- The pool that a record holds. -/
def decode (record : Bytes) : Except RecordFault State :=
  if record.length ≠ recordSize then .error .length
  else if Bytes.ofLe (field record 0 positionWidth) ≠ positionWidth then .error .marker
  else
    let s := fields record
    if record.drop (positionWidth + positionWidth + poolSize) ≠ checksum s then
      .error .checksum
    else if s.position ≥ poolSize ∨ s.position % blockSize ≠ 0 then .error .position
    else .ok s

/-! ## Masking -/

/-- The pad for block number `i` under a key. -/
def pad (key : Bytes) (i : Nat) : Bytes :=
  Digest.Sha2.sha256 (key ++ Bytes.toLe 8 i)

/-- Mask the blocks from number `i` on. -/
def maskBlocks (key : Bytes) : Nat → List Bytes → Bytes
  | _, [] => []
  | i, block :: rest => Bytes.xor block (pad key i) ++ maskBlocks key (i + 1) rest

/-- Mask a byte string with the keystream of a key. -/
def mask (key data : Bytes) : Bytes :=
  maskBlocks key 0 (Bytes.blocks blockSize data)

/-- The key of a user for the pool at an absolute path. -/
def userKey (name home path : String) : Bytes :=
  Digest.Sha2.sha256
    (Bytes.ofText "ironveil entropy pool v1" ++ Bytes.ofText name ++ 0 :: Bytes.ofText home ++
      0 :: Bytes.ofText path)

end EntropySeal.Pool
