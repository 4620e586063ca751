import EntropySeal.Digest
import EntropySeal.Source

/-!
# Conditioned draws

A conditioner pairs a source with digests of one common size.  A draw takes
exactly that many raw bytes from the source, hashes them with every digest,
and combines the results by exclusive or.

The arrays that appear on the way are the draw's witnesses: the raw bytes, each
digest, and the combination where it is not itself one of the digests.
-/

namespace EntropySeal

/-- A source paired with digests of one positive size. -/
structure Conditioner (σ : Type) where
  source : Source σ
  digests : List Digest
  size : Nat
  size_pos : 0 < size
  digests_ne : digests ≠ []
  digest_size : ∀ d ∈ digests, d.size = size

/-- What a draw went through. -/
structure Conditioned where
  raw : Bytes
  /-- One result for each digest, in order. -/
  digests : List Bytes
  deriving DecidableEq

namespace Conditioned

/-- The exclusive or of byte strings of one size. -/
def combine (size : Nat) (arrays : List Bytes) : Bytes :=
  arrays.foldl Bytes.xor (Bytes.zeros size)

/-- What the draw gives. -/
def output (size : Nat) (c : Conditioned) : Bytes :=
  combine size c.digests

/-- The arrays of the draw that must differ from all others. -/
def witnesses (size : Nat) (c : Conditioned) : List Bytes :=
  c.raw :: c.digests ++ (if c.digests.length > 1 then [c.output size] else [])

end Conditioned

namespace Conditioner

/-- Pair a source with digests, which must exist, have one common size, and
announce at least one byte. -/
def make {σ : Type} (source : Source σ) (digests : List Digest) :
    Except Error (Conditioner σ) :=
  match digests with
  | [] => .error (.noDigests source.info.name)
  | first :: rest =>
      if empty : first.size = 0 then .error (.emptyDigest first.name)
      else
        match odd : (first :: rest).find? (fun d => d.size ≠ first.size) with
        | some d => .error (.unequalDigest d.name d.size first.size)
        | none => .ok {
            source
            digests := first :: rest
            size := first.size
            size_pos := Nat.pos_of_ne_zero empty
            digests_ne := by simp
            digest_size := by simpa using odd }

/-- Hash raw bytes with every digest; the first result of a wrong size is an
error. -/
def hashAll (size : Nat) (raw : Bytes) : List Digest → Except Error (List Bytes)
  | [] => .ok []
  | d :: ds => do
      let result := d.hash raw
      if result.length ≠ size then throw (.wrongDigest d.name result.length size)
      let results ← hashAll size raw ds
      pure (result :: results)

/-- One draw. -/
def draw {σ : Type} (c : Conditioner σ) : Attempt σ Conditioned := do
  let delivery ← Attempt.always (c.source.fill c.size)
  if let some e := delivery.failure then throw e
  let raw := delivery.writtenTo (Bytes.zeros c.size)
  match hashAll c.size raw c.digests with
  | .ok digests => pure ⟨raw, digests⟩
  | .error e => throw e

end Conditioner

end EntropySeal
