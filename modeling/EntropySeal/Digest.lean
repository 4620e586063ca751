import EntropySeal.Digest.Sha2
import EntropySeal.Digest.Keccak

/-!
# Digests

A digest is a hash function together with the name and the size that it
announces.  Nothing forces the function to return arrays of the announced
size: whoever needs that checks each result, or assumes `Honours`.
-/

namespace EntropySeal

/-- A hash function with the name and the size it announces. -/
structure Digest where
  /-- Short identifier. -/
  name : String
  /-- Announced size in bits. -/
  bits : Nat
  /-- The function itself. -/
  hash : Bytes → Bytes

namespace Digest

/-- The announced size in whole bytes. -/
def size (d : Digest) : Nat :=
  d.bits / 8

/-- Every array the function returns has the announced size. -/
def Honours (d : Digest) : Prop :=
  ∀ data, (d.hash data).length = d.size

/-- SHA-256. -/
def sha256 : Digest :=
  ⟨"sha256", 256, Sha2.sha256⟩

/-- SHA-512. -/
def sha512 : Digest :=
  ⟨"sha512", 512, Sha2.sha512⟩

/-- SHA3-512. -/
def sha3_512 : Digest :=
  ⟨"sha3_512", 512, Keccak.sha3_512⟩

theorem honours_sha256 : sha256.Honours :=
  Sha2.length_sha256

theorem honours_sha512 : sha512.Honours :=
  Sha2.length_sha512

theorem honours_sha3_512 : sha3_512.Honours :=
  Keccak.length_sha3_512

end Digest

end EntropySeal
