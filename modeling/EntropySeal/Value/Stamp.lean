import EntropySeal.Digest
import EntropySeal.Error
import EntropySeal.Value.Canonical
import EntropySeal.Value.TypeInfo

/-!
# Stamps

A stamp is a SHA-256 digest that stands for the state of a value or for the
code of its type.  The state stamp of a value is the digest of the canonical
encoding of its tree; the code stamp of a type is the digest of its
fingerprint, which dictionary types do not have.
-/

namespace EntropySeal

/-- A digest that stands for a state or for code. -/
structure Stamp where
  bytes : Bytes
  deriving DecidableEq

namespace Stamp

/-- The stamp of a byte string. -/
def of (b : Bytes) : Stamp :=
  ⟨Digest.Sha2.sha256 b⟩

/-- The beginning of a stamp, for people. -/
def summary (s : Stamp) : String :=
  "Stamp(" ++ Bytes.toHex (s.bytes.take 8) ++ "..)"

end Stamp

/-- A type whose values can be protected. -/
class Protectable (α : Type) where
  /-- What is known of the type. -/
  info : TypeInfo
  /-- A value's account of its structure. -/
  toTree : α → Tree

instance (s : Shape) : Protectable s.Value where
  info := s.info
  toTree := s.toTree

namespace Protectable

variable {α : Type} [Protectable α]

/-- The stamp of a tree as a value of the named type. -/
def stampTree (typeName : String) (t : Tree) : Except Error Stamp :=
  match Canonical.encode t with
  | .ok bytes => .ok (Stamp.of bytes)
  | .error reason => .error (.notEncodable typeName reason)

/-- The stamp of a value's state. -/
def stateStamp (v : α) : Except Error Stamp :=
  stampTree (info α).name (toTree v)

variable (α) in
/-- The stamp of the type's code. -/
def codeStamp : Except Error Stamp :=
  if (info α).isDictionary then .error (.dictionaryCode (info α).name)
  else .ok (Stamp.of (Bytes.ofText (info α).fingerprint))

end Protectable

end EntropySeal
