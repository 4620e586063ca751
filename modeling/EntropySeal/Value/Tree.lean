import EntropySeal.Bytes

/-!
# Value trees

What a value says of itself when it is asked for its structure: a tree of
scalars, optional values, named structures and variants, sequences, tuples and
maps.  A map can also be given as separate keys and values; a value can offer
two forms, one for readers and one for machines; and a value can fail to
describe itself.
-/

namespace EntropySeal

/-- The widths of integers. -/
inductive Width where
  | w8
  | w16
  | w32
  | w64
  | w128
  deriving DecidableEq, Repr

/-- The width in bits. -/
def Width.bits : Width → Nat
  | w8 => 8
  | w16 => 16
  | w32 => 32
  | w64 => 64
  | w128 => 128

theorem Width.bits_le (w : Width) : w.bits ≤ 128 := by
  cases w <;> decide

/-- The length that a sequence announces. -/
inductive LengthHint where
  /-- The length it has. -/
  | exact
  | unknown
  | announced (n : Nat)
  deriving DecidableEq, Repr

/-- What is given in one of the separate calls that make up a map. -/
inductive MapPart where
  | key
  | value
  deriving DecidableEq, Repr

/-- A type of variants, and one of them by number and name. -/
structure VariantName where
  type : String
  index : UInt32
  variant : String
  deriving DecidableEq, Repr

/-- A value's account of its structure. -/
inductive Tree where
  | unit
  | bool (b : Bool)
  | int (width : Width) (value : BitVec width.bits)
  | uint (width : Width) (value : BitVec width.bits)
  /-- A four-byte floating-point number, by its bits. -/
  | float32 (bits : UInt32)
  /-- An eight-byte floating-point number, by its bits. -/
  | float64 (bits : UInt64)
  | char (c : Char)
  | text (s : String)
  | bytes (b : Bytes)
  | none
  | some (t : Tree)
  | unitStruct (name : String)
  | unitVariant (name : VariantName)
  | newtypeStruct (name : String) (t : Tree)
  | newtypeVariant (name : VariantName) (t : Tree)
  | seq (hint : LengthHint) (items : List Tree)
  | tuple (items : List Tree)
  | tupleStruct (name : String) (items : List Tree)
  | tupleVariant (name : VariantName) (items : List Tree)
  | map (entries : List (Tree × Tree))
  /-- A map as the separate calls that give its keys and values. -/
  | mapParts (parts : List (MapPart × Tree))
  /-- Fields by name; a field without a tree is skipped. -/
  | struct (name : String) (fields : List (String × Option Tree))
  | structVariant (name : VariantName) (fields : List (String × Option Tree))
  /-- A text that is made when it is asked for. -/
  | display (s : String)
  /-- A form for readers and a form for machines. -/
  | human (readable compact : Tree)
  /-- The value cannot describe itself. -/
  | fail (reason : String)

instance : Inhabited Tree := ⟨.unit⟩

end EntropySeal
