import EntropySeal.Bytes

/-!
# The Keccak sponge and SHA3-512

The permutation works on twenty-five eight-byte lanes, addressed as five
columns `x` by five rows `y` at index `x + 5 * y`.  A round is the composition
of four maps on the whole state, each given by what every lane becomes, and
one constant added to lane zero.

SHA3-512 absorbs seventy-two bytes at a time and gives the first eight lanes:
`length_sha3_512`.
-/

namespace EntropySeal.Digest.Keccak

/-- The twenty-five lanes. -/
abbrev Lanes := Vector UInt64 25

/-- The lane in column `x` and row `y`, both taken modulo five. -/
def lane (s : Lanes) (x y : Nat) : UInt64 :=
  s[x % 5 + 5 * (y % 5)]

/-- The state whose lane in column `x` and row `y` is `f x y`. -/
def ofLanes (f : Nat → Nat → UInt64) : Lanes :=
  Vector.ofFn fun i => f (i.val % 5) (i.val / 5)

/-- A lane rotated left by less than its width. -/
def rotate (x : UInt64) (n : UInt64) : UInt64 :=
  if n = 0 then x else (x <<< n) ||| (x >>> (64 - n))

/-- How far each lane is rotated. -/
def rotations : Lanes := #v[
  0, 1, 62, 28, 27, 36, 44, 6, 55, 20, 3, 10, 43, 25, 39, 41, 45, 15, 21, 8, 18, 2, 61, 56, 14]

/-- One constant for each of the twenty-four rounds. -/
def roundConstants : List UInt64 := [
  0x0000000000000001, 0x0000000000008082, 0x800000000000808a, 0x8000000080008000,
  0x000000000000808b, 0x0000000080000001, 0x8000000080008081, 0x8000000000008009,
  0x000000000000008a, 0x0000000000000088, 0x0000000080008009, 0x000000008000000a,
  0x000000008000808b, 0x800000000000008b, 0x8000000000008089, 0x8000000000008003,
  0x8000000000008002, 0x8000000000000080, 0x000000000000800a, 0x800000008000000a,
  0x8000000080008081, 0x8000000000008080, 0x0000000080000001, 0x8000000080008008]

/-- Add to every lane the parities of the columns on its two sides. -/
def diffuse (s : Lanes) : Lanes :=
  let parity : Vector UInt64 5 := Vector.ofFn fun x =>
    lane s x.val 0 ^^^ lane s x.val 1 ^^^ lane s x.val 2 ^^^ lane s x.val 3 ^^^ lane s x.val 4
  let column (x : Nat) : UInt64 := parity[x % 5]
  ofLanes fun x y => lane s x y ^^^ column (x + 4) ^^^ rotate (column (x + 1)) 1

/-- Rotate every lane and move it to its new place. -/
def scatter (s : Lanes) : Lanes :=
  ofLanes fun x y => rotate (lane s (x + 3 * y) x) (lane rotations (x + 3 * y) x)

/-- The nonlinear step along each row. -/
def blend (s : Lanes) : Lanes :=
  ofLanes fun x y => lane s x y ^^^ (~~~lane s (x + 1) y &&& lane s (x + 2) y)

/-- One round. -/
def round (s : Lanes) (constant : UInt64) : Lanes :=
  let mixed := blend (scatter (diffuse s))
  mixed.set 0 (mixed[0] ^^^ constant)

/-- The permutation of the state. -/
def permute (s : Lanes) : Lanes :=
  roundConstants.foldl round s

/-- Add a block of whole lanes to the state and permute it. -/
def absorbBlock (s : Lanes) (block : Bytes) : Lanes :=
  let words := ((Bytes.blocks 8 block).map fun bs => UInt64.ofNat (Bytes.ofLe bs)).toArray
  permute (Vector.ofFn fun i => s[i] ^^^ words.getD i.val 0)

/-- The message, the two domain bits of SHA-3, a one bit, zeros and a final one
bit, up to a whole number of blocks of `rate` bytes. -/
def pad (rate : Nat) (message : Bytes) : Bytes :=
  match rate - 1 - message.length % rate with
  | 0 => message ++ [0x86]
  | n + 1 => message ++ 0x06 :: Bytes.zeros n ++ [0x80]

/-- The state after absorbing a message at the given rate. -/
def absorb (rate : Nat) (message : Bytes) : Lanes :=
  (Bytes.blocks rate (pad rate message)).foldl absorbBlock (Vector.replicate 25 0)

/-- SHA3-512. -/
def sha3_512 (message : Bytes) : Bytes :=
  let s := absorb 72 message
  (List.range 8).flatMap fun i => Bytes.toLe 8 (lane s i (i / 5)).toNat

@[simp]
theorem length_sha3_512 (message : Bytes) : (sha3_512 message).length = 64 := by
  simp [sha3_512, List.range_succ]

end EntropySeal.Digest.Keccak
