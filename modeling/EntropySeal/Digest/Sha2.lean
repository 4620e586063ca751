import EntropySeal.Bytes

/-!
# The SHA-2 family

SHA-256 and SHA-512 are one construction over words of four and of eight
bytes.  The file gives the construction once, for any word type that names its
width and its six rotations, and instantiates it twice.  The round constants
are the leading bits of the cube roots of the first primes, so the four-byte
table is the upper half of the eight-byte one; the same holds of the initial
state, which comes from the square roots.

A digest always has eight words: `length_sha256` and `length_sha512`.
-/

namespace EntropySeal.Digest.Sha2

/-- The words of one member of the family, and what the member does with them. -/
class Word (w : Type) extends Add w, XorOp w, AndOp w, Complement w, Inhabited w where
  /-- Bytes in a word. -/
  width : Nat
  /-- The word with the given low bits. -/
  ofNat : Nat → w
  /-- The number a word holds. -/
  toNat : w → Nat
  /-- Mixes `a` into the first temporary of the round. -/
  bigSigma0 : w → w
  /-- Mixes `e` into the first temporary of the round. -/
  bigSigma1 : w → w
  /-- Mixes the word fifteen places back into the schedule. -/
  smallSigma0 : w → w
  /-- Mixes the word two places back into the schedule. -/
  smallSigma1 : w → w
  /-- One constant for each round. -/
  constants : Array w
  /-- The eight words before the first block. -/
  start : Array w

/-- The eight chaining words. -/
structure State (w : Type) where
  (a b c d e f g h : w)

variable {w : Type} [Word w]

/-- The words of a state in order. -/
def State.words (s : State w) : List w :=
  [s.a, s.b, s.c, s.d, s.e, s.f, s.g, s.h]

/-- The state before the first block. -/
@[specialize]
def initial : State w :=
  let word (i : Nat) : w := (Word.start).getD i default
  ⟨word 0, word 1, word 2, word 3, word 4, word 5, word 6, word 7⟩

/-- One round, given the sum of its constant and its schedule word. -/
@[specialize]
def round (s : State w) (k : w) : State w :=
  let choice := (s.e &&& s.f) ^^^ (~~~s.e &&& s.g)
  let majority := (s.a &&& s.b) ^^^ (s.a &&& s.c) ^^^ (s.b &&& s.c)
  let first := s.h + Word.bigSigma1 s.e + choice + k
  let second := Word.bigSigma0 s.a + majority
  ⟨first + second, s.a, s.b, s.c, s.d + first, s.e, s.f, s.g⟩

/-- Extend a schedule of at least sixteen words by `n` more. -/
@[specialize]
def extend : Nat → Array w → Array w
  | 0, ws => ws
  | n + 1, ws =>
      let back (i : Nat) : w := ws.getD (ws.size - i) default
      extend n (ws.push
        (Word.smallSigma1 (back 2) + back 7 + Word.smallSigma0 (back 15) + back 16))

/-- Absorb one block, given as sixteen words. -/
@[specialize]
def compress (s : State w) (block : Array w) : State w :=
  let ks := Word.constants (w := w)
  let ws := extend (ks.size - 16) block
  let t := (List.range ks.size).foldl
    (fun t i => round t (ks.getD i default + ws.getD i default)) s
  ⟨s.a + t.a, s.b + t.b, s.c + t.c, s.d + t.d, s.e + t.e, s.f + t.f, s.g + t.g, s.h + t.h⟩

/-- The message, a single one bit, zeros, and the message's length in bits, up
to a whole number of blocks of `16 * width` bytes. -/
def pad (width : Nat) (message : Bytes) : Bytes :=
  let block := 16 * width
  let used := message.length + 1 + 2 * width
  message ++ 0x80 :: Bytes.zeros ((block - used % block) % block) ++
    Bytes.toBe (2 * width) (8 * message.length)

/-- The words of one block. -/
@[specialize]
def blockWords (block : Bytes) : Array w :=
  ((Bytes.blocks (Word.width w) block).map fun bs => Word.ofNat (w := w) (Bytes.ofBe bs)).toArray

/-- The state after every block of the padded message. -/
@[specialize]
def absorb (message : Bytes) : State w :=
  (Bytes.blocks (16 * Word.width w) (pad (Word.width w) message)).foldl
    (fun s block => compress s (blockWords block)) initial

/-- The digest: the final words, each most significant byte first. -/
@[specialize]
def State.toBytes (s : State w) : Bytes :=
  s.words.flatMap fun x => Bytes.toBe (Word.width w) (Word.toNat x)

theorem State.length_toBytes (s : State w) : s.toBytes.length = 8 * Word.width w := by
  simp only [State.toBytes, State.words, List.flatMap_cons, List.flatMap_nil,
    List.length_append, Bytes.length_toBe, List.length_nil]
  omega

/-! ## The two members -/

/-- Sixty-four leading fraction bits of the cube roots of the first eighty primes. -/
def cubeRoots : Array UInt64 := #[
  0x428a2f98d728ae22, 0x7137449123ef65cd, 0xb5c0fbcfec4d3b2f, 0xe9b5dba58189dbbc,
  0x3956c25bf348b538, 0x59f111f1b605d019, 0x923f82a4af194f9b, 0xab1c5ed5da6d8118,
  0xd807aa98a3030242, 0x12835b0145706fbe, 0x243185be4ee4b28c, 0x550c7dc3d5ffb4e2,
  0x72be5d74f27b896f, 0x80deb1fe3b1696b1, 0x9bdc06a725c71235, 0xc19bf174cf692694,
  0xe49b69c19ef14ad2, 0xefbe4786384f25e3, 0x0fc19dc68b8cd5b5, 0x240ca1cc77ac9c65,
  0x2de92c6f592b0275, 0x4a7484aa6ea6e483, 0x5cb0a9dcbd41fbd4, 0x76f988da831153b5,
  0x983e5152ee66dfab, 0xa831c66d2db43210, 0xb00327c898fb213f, 0xbf597fc7beef0ee4,
  0xc6e00bf33da88fc2, 0xd5a79147930aa725, 0x06ca6351e003826f, 0x142929670a0e6e70,
  0x27b70a8546d22ffc, 0x2e1b21385c26c926, 0x4d2c6dfc5ac42aed, 0x53380d139d95b3df,
  0x650a73548baf63de, 0x766a0abb3c77b2a8, 0x81c2c92e47edaee6, 0x92722c851482353b,
  0xa2bfe8a14cf10364, 0xa81a664bbc423001, 0xc24b8b70d0f89791, 0xc76c51a30654be30,
  0xd192e819d6ef5218, 0xd69906245565a910, 0xf40e35855771202a, 0x106aa07032bbd1b8,
  0x19a4c116b8d2d0c8, 0x1e376c085141ab53, 0x2748774cdf8eeb99, 0x34b0bcb5e19b48a8,
  0x391c0cb3c5c95a63, 0x4ed8aa4ae3418acb, 0x5b9cca4f7763e373, 0x682e6ff3d6b2b8a3,
  0x748f82ee5defb2fc, 0x78a5636f43172f60, 0x84c87814a1f0ab72, 0x8cc702081a6439ec,
  0x90befffa23631e28, 0xa4506cebde82bde9, 0xbef9a3f7b2c67915, 0xc67178f2e372532b,
  0xca273eceea26619c, 0xd186b8c721c0c207, 0xeada7dd6cde0eb1e, 0xf57d4f7fee6ed178,
  0x06f067aa72176fba, 0x0a637dc5a2c898a6, 0x113f9804bef90dae, 0x1b710b35131c471b,
  0x28db77f523047d84, 0x32caab7b40c72493, 0x3c9ebe0a15c9bebc, 0x431d67c49c100d4c,
  0x4cc5d4becb3e42b6, 0x597f299cfc657e2a, 0x5fcb6fab3ad6faec, 0x6c44198c4a475817]

/-- Sixty-four leading fraction bits of the square roots of the first eight primes. -/
def squareRoots : Array UInt64 := #[
  0x6a09e667f3bcc908, 0xbb67ae8584caa73b, 0x3c6ef372fe94f82b, 0xa54ff53a5f1d36f1,
  0x510e527fade682d1, 0x9b05688c2b3e6c1f, 0x1f83d9abfb41bd6b, 0x5be0cd19137e2179]

/-- The upper half of an eight-byte word. -/
def upperHalf (x : UInt64) : UInt32 :=
  (x >>> 32).toUInt32

/-- Four-byte words rotated right. -/
def rotate32 (x n : UInt32) : UInt32 :=
  (x >>> n) ||| (x <<< (32 - n))

/-- Eight-byte words rotated right. -/
def rotate64 (x n : UInt64) : UInt64 :=
  (x >>> n) ||| (x <<< (64 - n))

/-- The sixty-four round constants over four-byte words. -/
def constants32 : Array UInt32 :=
  (cubeRoots.extract 0 64).map upperHalf

/-- The initial state over four-byte words. -/
def start32 : Array UInt32 :=
  squareRoots.map upperHalf

instance : Word UInt32 where
  width := 4
  ofNat := UInt32.ofNat
  toNat := UInt32.toNat
  bigSigma0 x := rotate32 x 2 ^^^ rotate32 x 13 ^^^ rotate32 x 22
  bigSigma1 x := rotate32 x 6 ^^^ rotate32 x 11 ^^^ rotate32 x 25
  smallSigma0 x := rotate32 x 7 ^^^ rotate32 x 18 ^^^ (x >>> 3)
  smallSigma1 x := rotate32 x 17 ^^^ rotate32 x 19 ^^^ (x >>> 10)
  constants := constants32
  start := start32

instance : Word UInt64 where
  width := 8
  ofNat := UInt64.ofNat
  toNat := UInt64.toNat
  bigSigma0 x := rotate64 x 28 ^^^ rotate64 x 34 ^^^ rotate64 x 39
  bigSigma1 x := rotate64 x 14 ^^^ rotate64 x 18 ^^^ rotate64 x 41
  smallSigma0 x := rotate64 x 1 ^^^ rotate64 x 8 ^^^ (x >>> 7)
  smallSigma1 x := rotate64 x 19 ^^^ rotate64 x 61 ^^^ (x >>> 6)
  constants := cubeRoots
  start := squareRoots

/-- SHA-256. -/
def sha256 (message : Bytes) : Bytes :=
  (absorb message : State UInt32).toBytes

/-- SHA-512. -/
def sha512 (message : Bytes) : Bytes :=
  (absorb message : State UInt64).toBytes

@[simp]
theorem length_sha256 (message : Bytes) : (sha256 message).length = 32 :=
  State.length_toBytes _

@[simp]
theorem length_sha512 (message : Bytes) : (sha512 message).length = 64 :=
  State.length_toBytes _

end EntropySeal.Digest.Sha2
