import EntropySeal.Sample.Compression

/-!
# Quality of samples

Quick statistics of a byte string: its entropies per byte, how far it can be
compressed, and a score and a grade made of them.  They find gross failures
and show no randomness.
-/

namespace EntropySeal.Quality

/-- How often each byte occurs. -/
def counts (data : Bytes) : List Nat :=
  let counted := data.foldl (fun (a : Array Nat) b => a.modify b.toNat (· + 1))
    (Array.replicate 256 0)
  counted.toList

/-- The bytes that occur, counted. -/
def occurring (data : Bytes) : List Nat :=
  (counts data).filter (· > 0)

/-- The share of so many out of so many. -/
def share (part whole : Nat) : Float :=
  Float.ofNat part / Float.ofNat whole

/-- What bytes of one value, with a given share, add to the entropy. -/
def surprise (share : Float) : Float :=
  -share * share.log2

/-- The entropy per byte, in bits. -/
def shannon (data : Bytes) : Float :=
  let terms := (occurring data).map fun n => surprise (share n data.length)
  terms.foldl (· + ·) 0

/-- The entropy per byte that the most frequent byte leaves, in bits. -/
def minEntropy (data : Bytes) : Float :=
  if data.isEmpty then 0 else -(share ((counts data).foldl max 0) data.length).log2

/-- How good a sample is. -/
inductive Grade where
  | a
  | b
  | c
  | d
  | f
  deriving DecidableEq, Repr

/-- The letter of a grade. -/
def Grade.letter : Grade → String
  | a => "A"
  | b => "B"
  | c => "C"
  | d => "D"
  | f => "F"

/-- The grade of a score out of a hundred. -/
def Grade.ofScore (score : Float) : Grade :=
  if score ≥ 80 then a
  else if score ≥ 60 then b
  else if score ≥ 40 then c
  else if score ≥ 20 then d
  else f

/-- The statistics of a sample. -/
structure Report where
  samples : Nat
  uniqueValues : Nat := 0
  shannon : Float := 0
  minEntropy : Float := 0
  /-- The size of the compressed sample in relation to the sample. -/
  compressionRatio : Float := 0
  /-- Out of a hundred. -/
  score : Float := 0
  grade : Grade := .f

/-- Shorter samples say nothing. -/
def minSamples : Nat := 16

/-- The lesser of two numbers. -/
def lesser (x y : Float) : Float :=
  if y < x then y else x

/-- The score of a sample: sixty parts for its entropy, twenty for what cannot
be compressed, and twenty for the values that occur. -/
def score (shannon compressionRatio : Float) (uniqueValues : Nat) : Float :=
  shannon / 8 * 60 + lesser compressionRatio 1 * 20 + lesser (share uniqueValues 256) 1 * 20

/-- The statistics of a byte string. -/
def report (data : Bytes) : Report :=
  if data.length < minSamples then { samples := data.length }
  else
    let entropy := shannon data
    let uniqueValues := (occurring data).length
    let compressionRatio := share (Compression.size data) data.length
    let total := score entropy compressionRatio uniqueValues
    { samples := data.length
      uniqueValues
      shannon := entropy
      minEntropy := minEntropy data
      compressionRatio
      score := total
      grade := .ofScore total }

end EntropySeal.Quality
