import EntropySeal.Value.Tree

/-!
# The canonical encoding

A tree is encoded as a tag byte and a payload of fixed width or with its
length in front, so no encoding is the start of another one.  Integers of all
widths are written in sixteen bytes, floating-point numbers by their bits.
The entries of a map are sorted by their encoded keys, so their order leaves no
trace.

The trees are walked in the order in which a value gives its parts: keys
before their values, elements and fields in sequence, skipped fields not at
all.  The first failure met on that walk is the failure of the whole.
-/

namespace EntropySeal.Canonical

/-! ## Tags -/

/-- One tag for each kind of node. -/
inductive Tag where
  | unit | bool | int | uint | float32 | float64 | char | text | bytes | none | some
  | unitStruct | unitVariant | newtypeStruct | newtypeVariant | seq | tuple | tupleStruct
  | tupleVariant | map | struct | structVariant
  deriving DecidableEq, Repr

/-- The byte of a tag. -/
def Tag.byte : Tag → UInt8
  | unit => 0x00
  | bool => 0x01
  | int => 0x02
  | uint => 0x03
  | float32 => 0x04
  | float64 => 0x05
  | char => 0x06
  | text => 0x07
  | bytes => 0x08
  | none => 0x09
  | some => 0x0A
  | unitStruct => 0x0B
  | unitVariant => 0x0C
  | newtypeStruct => 0x0D
  | newtypeVariant => 0x0E
  | seq => 0x0F
  | tuple => 0x10
  | tupleStruct => 0x11
  | tupleVariant => 0x12
  | map => 0x13
  | struct => 0x14
  | structVariant => 0x15

/-- Different tags have different bytes. -/
theorem Tag.byte_injective {s t : Tag} (h : s.byte = t.byte) : s = t := by
  cases s <;> cases t <;> simp_all [byte]

/-! ## Payloads -/

/-- A count, in eight bytes. -/
def putCount (n : Nat) : Bytes :=
  Bytes.toLe 8 n

/-- Bytes with their number in front. -/
def putBytes (b : Bytes) : Bytes :=
  putCount b.length ++ b

/-- The UTF-8 bytes of a text with their number in front. -/
def putText (s : String) : Bytes :=
  putBytes (Bytes.ofText s)

/-- A type's name, and the number and name of one of its variants. -/
def putVariant (v : VariantName) : Bytes :=
  putText v.type ++ Bytes.toLe 4 v.index.toNat ++ putText v.variant

/-- The number of parts, and the parts. -/
def putParts (parts : List Bytes) : Bytes :=
  putCount parts.length ++ parts.flatten

/-- An encoded key and its encoded value. -/
abbrev Entry : Type := Bytes × Bytes

/-- One key comes no later than another. -/
def Entry.keyLe (a b : Entry) : Bool :=
  (compare a.1 b.1).isLE

/-- Entries in the order of their keys. -/
def sortEntries (entries : List Entry) : List Entry :=
  entries.mergeSort Entry.keyLe

/-- The number of entries, and the entries in the order of their keys. -/
def putEntries (entries : List Entry) : Bytes :=
  putParts ((sortEntries entries).map fun entry => entry.1 ++ entry.2)

/-- What is said when a map gives a value that no key precedes. -/
def missingKey : String :=
  "map value serialised without a key"

/-! ## Trees -/

mutual

/-- The canonical encoding of a tree, or the first failure in it. -/
def encode : Tree → Except String Bytes
  | .unit => .ok [Tag.unit.byte]
  | .bool b => .ok [Tag.bool.byte, if b then 1 else 0]
  | .int _ v => .ok (Tag.int.byte :: Bytes.toLe 16 (v.signExtend 128).toNat)
  | .uint _ v => .ok (Tag.uint.byte :: Bytes.toLe 16 v.toNat)
  | .float32 bits => .ok (Tag.float32.byte :: Bytes.toLe 4 bits.toNat)
  | .float64 bits => .ok (Tag.float64.byte :: Bytes.toLe 8 bits.toNat)
  | .char c => .ok (Tag.char.byte :: Bytes.toLe 4 c.toNat)
  | .text s => .ok (Tag.text.byte :: putText s)
  | .bytes b => .ok (Tag.bytes.byte :: putBytes b)
  | .none => .ok [Tag.none.byte]
  | .some t => do
      let body ← encode t
      pure (Tag.some.byte :: body)
  | .unitStruct name => .ok (Tag.unitStruct.byte :: putText name)
  | .unitVariant name => .ok (Tag.unitVariant.byte :: putVariant name)
  | .newtypeStruct name t => do
      let body ← encode t
      pure (Tag.newtypeStruct.byte :: putText name ++ body)
  | .newtypeVariant name t => do
      let body ← encode t
      pure (Tag.newtypeVariant.byte :: putVariant name ++ body)
  | .seq _ items => do
      let parts ← encodeItems items
      pure (Tag.seq.byte :: putParts parts)
  | .tuple items => do
      let parts ← encodeItems items
      pure (Tag.tuple.byte :: putParts parts)
  | .tupleStruct name items => do
      let parts ← encodeItems items
      pure (Tag.tupleStruct.byte :: putText name ++ putParts parts)
  | .tupleVariant name items => do
      let parts ← encodeItems items
      pure (Tag.tupleVariant.byte :: putVariant name ++ putParts parts)
  | .map entries => do
      let entries ← encodeEntries entries
      pure (Tag.map.byte :: putEntries entries)
  | .mapParts parts => do
      let entries ← encodeMapParts Option.none parts
      pure (Tag.map.byte :: putEntries entries)
  | .struct name fields => do
      let parts ← encodeFields fields
      pure (Tag.struct.byte :: putText name ++ putParts parts)
  | .structVariant name fields => do
      let parts ← encodeFields fields
      pure (Tag.structVariant.byte :: putVariant name ++ putParts parts)
  | .display s => .ok (Tag.text.byte :: putText s)
  | .human readable _ => encode readable
  | .fail reason => .error reason

/-- The encodings of elements in order. -/
def encodeItems : List Tree → Except String (List Bytes)
  | [] => .ok []
  | t :: ts => do
      let part ← encode t
      let parts ← encodeItems ts
      pure (part :: parts)

/-- The names and encodings of the fields that are not skipped. -/
def encodeFields : List (String × Option Tree) → Except String (List Bytes)
  | [] => .ok []
  | (_, Option.none) :: fields => encodeFields fields
  | (name, Option.some t) :: fields => do
      let part ← encode t
      let parts ← encodeFields fields
      pure ((putText name ++ part) :: parts)

/-- The encodings of entries, each key before its value. -/
def encodeEntries : List (Tree × Tree) → Except String (List Entry)
  | [] => .ok []
  | (k, v) :: entries => do
      let key ← encode k
      let value ← encode v
      let entries ← encodeEntries entries
      pure ((key, value) :: entries)

/-- The entries that separate keys and values make up: a value belongs to the
last key before it, which it uses up; a key that is not used up is dropped. -/
def encodeMapParts (pending : Option Bytes) :
    List (MapPart × Tree) → Except String (List Entry)
  | [] => .ok []
  | (.key, t) :: parts => do
      let key ← encode t
      encodeMapParts (Option.some key) parts
  | (.value, t) :: parts =>
      match pending with
      | Option.none => .error missingKey
      | Option.some key => do
          let value ← encode t
          let entries ← encodeMapParts Option.none parts
          pure ((key, value) :: entries)

end

end EntropySeal.Canonical
