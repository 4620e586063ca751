import EntropySeal.Bytes
import Std.Data.HashMap

/-!
# How far a byte string can be compressed

The size that a byte string has when it is compressed with the deflate method
in one block.  Repeated strings become copies of earlier ones, the longest that
is found, unless a longer one stands a place later.  Literals, copy lengths and
copy distances are then given prefix codes: the fixed ones in a short block,
codes made for the block in any other.  A block that grows by this is stored as
it is.  Only sizes are computed.
-/

namespace EntropySeal.Compression

/-! ## Prefix codes -/

/-- The leaves under one node of a code tree: their depths below it. -/
structure Subtree where
  weight : Nat
  depths : List Nat

/-- Two subtrees under a new node. -/
def Subtree.join (a b : Subtree) : Subtree where
  weight := a.weight + b.weight
  depths := (a.depths ++ b.depths).map (· + 1)

/-- Insert by weight, behind what weighs the same. -/
def insert (t : Subtree) : List Subtree → List Subtree
  | [] => [t]
  | u :: us => if t.weight < u.weight then t :: u :: us else u :: insert t us

@[simp]
theorem length_insert (t : Subtree) (us : List Subtree) :
    (insert t us).length = us.length + 1 := by
  induction us with
  | nil => rfl
  | cons u us ih =>
      simp only [insert]
      split <;> simp [ih]

/-- Join the two lightest subtrees until one is left. -/
def joinAll : List Subtree → List Nat
  | [] => []
  | [t] => t.depths
  | t :: u :: us => joinAll (insert (t.join u) us)
termination_by us => us.length
decreasing_by simp

/-- Take away one code word of the greatest length and lengthen the longest
other one to make two of it.  The lengths are in descending order. -/
def rebalance (limit : Nat) (lengths : List Nat) : List Nat :=
  match lengths.dropWhile (· = limit) with
  | [] => lengths
  | n :: rest => (lengths.takeWhile (· = limit)).tail ++ (n + 1) :: (n + 1) :: rest

/-- Lengths in descending order, cut down to a limit so that a prefix code still
has them. -/
def limited (limit : Nat) (lengths : List Nat) : List Nat :=
  let cut := lengths.map (min limit ·)
  let excess := (cut.map fun n => 1 <<< (limit - n)).foldl (· + ·) 0 - (1 <<< limit)
  Nat.repeat (rebalance limit) excess cut

/-- The length of the code word of each symbol; zero where the symbol does not
occur.  The rarer of two symbols has no shorter code word. -/
def codeLengths (limit : Nat) (counts : List Nat) : List Nat :=
  let symbols := (counts.zipIdx.filter (·.1 ≠ 0)).mergeSort fun a b => a.1 ≤ b.1
  let depths := joinAll (symbols.map fun (n, _) => ⟨n, [0]⟩)
  let lengths := limited limit ((depths.map (max 1 ·)).mergeSort fun a b => b ≤ a)
  let given := (symbols.zip lengths).foldl (fun (a : Array Nat) (s, n) => a.set! s.2 n)
    (Array.replicate counts.length 0)
  given.toList

/-- Bits that the occurring symbols take. -/
def codedBits (counts lengths : List Nat) : Nat :=
  (List.zipWith (· * ·) counts lengths).foldl (· + ·) 0

/-! ## Literals and copies -/

/-- The symbol of a number and the extra bits that tell it from the others of
its symbol; every doubling has `1 <<< k` symbols. -/
def bucket (k x : Nat) : Nat × Nat :=
  if x < 1 <<< k then (x, 0)
  else
    let extra := x.log2 - k
    ((extra <<< k) + (x >>> extra), extra)

/-- The shortest copy. -/
def minCopy : Nat := 3

/-- The longest copy. -/
def maxCopy : Nat := 258

/-- How far back a copy reaches. -/
def window : Nat := 32768

/-- The symbol that ends a block. -/
def endSymbol : Nat := 256

/-- The symbol of a copy length, and its extra bits. -/
def lengthSymbol (n : Nat) : Nat × Nat :=
  if n = maxCopy then (285, 0)
  else
    let (symbol, extra) := bucket 2 (n - minCopy)
    (endSymbol + 1 + symbol, extra)

/-- The symbol of a copy distance, and its extra bits. -/
def distanceSymbol (d : Nat) : Nat × Nat :=
  bucket 1 (d - 1)

/-- How often each symbol occurs, and all extra bits. -/
structure Tally where
  literals : Array Nat := (Array.replicate 286 0).set! endSymbol 1
  distances : Array Nat := Array.replicate 30 0
  extra : Nat := 0

/-- Count a literal. -/
def Tally.literal (t : Tally) (b : UInt8) : Tally :=
  { t with literals := t.literals.modify b.toNat (· + 1) }

/-- Count a copy. -/
def Tally.copy (t : Tally) (length distance : Nat) : Tally :=
  let (lengthCode, lengthExtra) := lengthSymbol length
  let (distanceCode, distanceExtra) := distanceSymbol distance
  { literals := t.literals.modify lengthCode (· + 1)
    distances := t.distances.modify distanceCode (· + 1)
    extra := t.extra + lengthExtra + distanceExtra }

/-- How many bytes from two places on agree, at most `limit`. -/
def agreement (data : Array UInt8) (i j : Nat) : Nat → Nat
  | 0 => 0
  | limit + 1 =>
      match data[i]?, data[j]? with
      | some a, some b => if a = b then agreement data (i + 1) (j + 1) limit + 1 else 0
      | _, _ => 0

/-- The three bytes from a place on. -/
def triple? (data : Array UInt8) (i : Nat) : Option (UInt8 × UInt8 × UInt8) := do
  let a ← data[i]?
  let b ← data[i + 1]?
  let c ← data[i + 2]?
  pure (a, b, c)

/-- The earlier places of each three bytes, the latest first. -/
abbrev Places : Type :=
  Std.HashMap (UInt8 × UInt8 × UInt8) (List Nat)

/-- Enter `n` places from `i` on.  Nothing is copied from the first place. -/
def enter (data : Array UInt8) (places : Places) (i : Nat) : Nat → Places
  | 0 => places
  | n + 1 =>
      match triple? data i with
      | none => places
      | some key =>
          let places := if i = 0 then places else places.insert key (i :: places.getD key [])
          enter data places (i + 1) n

/-- A copy of earlier bytes. -/
structure Copy where
  length : Nat
  distance : Nat

/-- The longest of a copy and those from earlier places; of two that are equally
long, the one that was there before. -/
def longest (data : Array UInt8) (i : Nat) : List Nat → Copy → Copy
  | [], best => best
  | earlier :: rest, best =>
      if maxCopy ≤ best.length then best
      else
        let length := agreement data earlier i maxCopy
        longest data i rest (if best.length < length then ⟨length, i - earlier⟩ else best)

/-- How many earlier places are tried. -/
def maxTrials : Nat := 768

/-- The shortest copies do not reach that far back. -/
def shortReach : Nat := 8192

/-- The copy that can stand at a place, if it is longer than `least`. -/
def copy? (data : Array UInt8) (places : Places) (i least : Nat) : Option Copy := do
  let key ← triple? data i
  let earlier := ((places.getD key []).take maxTrials).takeWhile fun j => i - j ≤ window
  let best := longest data i earlier ⟨least, 0⟩
  if least < best.length ∧ (minCopy < best.length ∨ best.distance < shortReach) then pure best
  else none

/-- A copy of this length stands at once. -/
def longCopy : Nat := 128

/-- Count the literals and copies from a place on.  A copy that could stand at
the place before is held back with the byte there: a longer one at this place
makes a literal of the byte. -/
def tally (data : Array UInt8) (places : Places) (held : Option (UInt8 × Copy)) (t : Tally)
    (i : Nat) : Tally :=
  if inside : i < data.size then
    let least := held.elim (minCopy - 1) fun h => h.2.length
    match copy? data places i least, held with
    | none, none => tally data (enter data places i 1) none (t.literal data[i]) (i + 1)
    | none, some (_, c) =>
        let step := max 1 (c.length - 1)
        tally data (enter data places i step) none (t.copy c.length c.distance) (i + step)
    | some c, held =>
        let t := held.elim t fun h => t.literal h.1
        if c.length < longCopy then
          tally data (enter data places i 1) (some (data[i], c)) t (i + 1)
        else
          let step := max 1 c.length
          tally data (enter data places i step) none (t.copy c.length c.distance) (i + step)
  else held.elim t fun h => t.copy h.2.length h.2.distance
termination_by data.size - i

/-! ## Descriptions of codes -/

/-- The code lengths up to the last one in use, but at least `least` of them. -/
def described (least : Nat) (lengths : List Nat) : List Nat :=
  let used := (lengths.reverse.dropWhile (· = 0)).length
  lengths.take (max least used)

/-- A run of unused symbols, as symbols of the description with their extra
bits. -/
def zeroRun (n : Nat) : List (Nat × Nat) :=
  if 11 ≤ n then (18, 7) :: zeroRun (n - min n 138)
  else if 3 ≤ n then (17, 3) :: zeroRun (n - min n 10)
  else List.replicate n (0, 0)
termination_by n
decreasing_by all_goals omega

/-- A run of a length that has just been given. -/
def repeatRun (length n : Nat) : List (Nat × Nat) :=
  if 3 ≤ n then (16, 2) :: repeatRun length (n - min n 6) else List.replicate n (length, 0)
termination_by n
decreasing_by omega

/-- A run of equal lengths. -/
def runSymbols (run : List Nat) : List (Nat × Nat) :=
  match run with
  | [] => []
  | length :: rest =>
      if length = 0 then zeroRun (rest.length + 1)
      else (length, 0) :: repeatRun length rest.length

/-- The order in which the lengths of the description's own code are given. -/
def descriptionOrder : List Nat :=
  [16, 17, 18, 0, 8, 7, 9, 6, 10, 5, 11, 4, 12, 3, 13, 2, 14, 1, 15]

/-- Bits that describe code lengths. -/
def descriptionBits (lengths : List Nat) : Nat :=
  let symbols := (lengths.splitBy (· == ·)).flatMap runSymbols
  let counts := symbols.foldl (fun (a : Array Nat) (symbol, _) => a.modify symbol (· + 1))
    (Array.replicate 19 0)
  let own := codeLengths 7 counts.toList
  let given := described 4 (descriptionOrder.map fun symbol => own.getD symbol 0)
  5 + 5 + 4 + 3 * given.length + codedBits counts.toList own +
    (symbols.map (·.2)).foldl (· + ·) 0

/-! ## Blocks -/

/-- The fixed code length of a literal or copy length. -/
def fixedLength (symbol : Nat) : Nat :=
  if symbol < 144 then 8 else if symbol < 256 then 9 else if symbol < 280 then 7 else 8

/-- Bits of the block with the fixed codes. -/
def fixedBits (t : Tally) : Nat :=
  codedBits t.literals.toList ((List.range t.literals.size).map fixedLength) +
    5 * t.distances.toList.foldl (· + ·) 0 + t.extra

/-- Bits of the block with codes made for it. -/
def fittedBits (t : Tally) : Nat :=
  let literals := codeLengths 15 t.literals.toList
  let distances := codeLengths 15 t.distances.toList
  descriptionBits (described 257 literals ++ described 1 distances) +
    codedBits t.literals.toList literals + codedBits t.distances.toList distances + t.extra

/-- Bytes in a piece of a stored block, at most. -/
def maxStored : Nat := 65535

/-- Bits that tell how a block is coded. -/
def kindBits : Nat := 3

/-- Bits of the stored block: every piece starts on a byte and has its length in
front. -/
def storedBits (n : Nat) : Nat :=
  8 * n + 40 * ((n - 1) / maxStored + 1)

/-- Shorter blocks have the fixed codes. -/
def minFitted : Nat := 48

/-- Bits of the block that `n` bytes become. -/
def blockBits (n : Nat) (t : Tally) : Nat :=
  let coded := kindBits + if n < minFitted then fixedBits t else fittedBits t
  if n ≤ coded / 8 + 1 then storedBits n else coded

/-- Bytes of the compressed form, with two before it and a checksum behind. -/
def size (data : Bytes) : Nat :=
  let bits := blockBits data.length (tally data.toArray ∅ none {} 0)
  2 + (bits + 7) / 8 + 4

end EntropySeal.Compression
