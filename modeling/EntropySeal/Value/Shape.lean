import EntropySeal.Value.Tree
import Std.Data.ExtTreeMap
import Std.Data.ExtTreeSet

/-!
# Shapes of values

A shape says how the values of a type are built from scalars, sequences,
options, arrays, tuples, ordered sets and maps.  Each shape has a type of
values with a lawful order, which sets and maps of the shape are sorted by;
`Shape.toTree` gives a value's account of its structure.

A map is the same value whatever order its entries were put in, so maps with
and without an order of their own share one type of values.
-/

namespace EntropySeal

open Std

/-- How the values of a type are built. -/
inductive Shape where
  | bool
  | char
  | unit
  | text
  | float32
  | float64
  | int (width : Width)
  | uint (width : Width)
  /-- Signed integers as wide as an address. -/
  | intSize
  /-- Unsigned integers as wide as an address. -/
  | uintSize
  | list (item : Shape)
  | option (item : Shape)
  | box (item : Shape)
  | array (item : Shape) (length : Nat)
  | pair (first second : Shape)
  | triple (first second third : Shape)
  | set (item : Shape)
  | hashMap (key value : Shape)
  | treeMap (key value : Shape)
  deriving DecidableEq, Repr

/-- A type of values with a lawful order. -/
structure Ordered where
  type : Type
  ord : Ord type
  trans : TransOrd type
  lawful : LawfulEqOrd type

namespace Ordered

/-- A type whose order is found by its instance. -/
def of (α : Type) [ord : Ord α] [trans : TransOrd α] [lawful : LawfulEqOrd α] : Ordered :=
  ⟨α, ord, trans, lawful⟩

/-- A type ordered by a key that tells its values apart. -/
def byKey {α κ : Type} (key : α → κ) (injective : ∀ a b, key a = key b → a = b)
    [Ord κ] [TransOrd κ] [LawfulEqOrd κ] : Ordered :=
  { type := α
    ord := ⟨compareOn key⟩
    trans := inferInstanceAs (TransCmp (compareOn key))
    lawful :=
      { compare_self := fun {a} => ReflOrd.compare_self (a := key a)
        eq_of_compare := fun {a b} h => injective a b (LawfulEqOrd.eq_of_compare h) } }

section
variable (a b : Ordered)

/-- Lists, compared element by element. -/
def list : Ordered :=
  letI := a.ord
  haveI := a.trans
  haveI := a.lawful
  of (List a.type)

/-- Values that may be absent, the absent one first. -/
def option : Ordered :=
  letI := a.ord
  haveI := a.trans
  haveI := a.lawful
  of (Option a.type)

/-- Arrays of one length, compared as lists. -/
def array (n : Nat) : Ordered :=
  letI := a.ord
  haveI := a.trans
  haveI := a.lawful
  byKey (fun v : Vector a.type n => v.toList) fun _ _ h => Vector.toList_inj.mp h

/-- Pairs, the first component deciding first. -/
def pair : Ordered :=
  letI := a.ord
  haveI := a.trans
  haveI := a.lawful
  letI := b.ord
  haveI := b.trans
  haveI := b.lawful
  { type := a.type × b.type
    ord := lexOrd
    trans := inferInstance
    lawful := inferInstance }

/-- Sorted sets, compared by their elements in order. -/
def set : Ordered :=
  letI := a.ord
  haveI := a.trans
  haveI := a.lawful
  byKey (fun s : ExtTreeSet a.type => s.toList) fun _ _ h => ExtTreeSet.toList_inj.mp h

/-- Sorted maps, compared by their entries in order. -/
def map : Ordered :=
  letI := a.ord
  haveI := a.trans
  haveI := a.lawful
  letI : Ord (a.type × b.type) := (pair a b).ord
  haveI : TransOrd (a.type × b.type) := (pair a b).trans
  haveI : LawfulEqOrd (a.type × b.type) := (pair a b).lawful
  byKey (fun m : ExtTreeMap a.type b.type => m.toList)
    fun _ _ h => ExtTreeMap.toList_inj.mp h

end

end Ordered

namespace Shape

/-- The values of a shape with their order. -/
def ordered : Shape → Ordered
  | bool => .of Bool
  | char => .of Char
  | unit => .byKey (fun _ : Unit => false) fun _ _ _ => rfl
  | text => .of String
  | float32 => .of UInt32
  | float64 => .of UInt64
  | int w => .byKey (fun v : BitVec w.bits => v.toInt) fun _ _ h => BitVec.eq_of_toInt_eq h
  | uint w => .of (BitVec w.bits)
  | intSize => .byKey (fun v : BitVec 64 => v.toInt) fun _ _ h => BitVec.eq_of_toInt_eq h
  | uintSize => .of (BitVec 64)
  | list s => s.ordered.list
  | option s => s.ordered.option
  | box s => s.ordered
  | array s n => s.ordered.array n
  | pair s t => s.ordered.pair t.ordered
  | triple s t u => s.ordered.pair (t.ordered.pair u.ordered)
  | set s => s.ordered.set
  | hashMap k v => k.ordered.map v.ordered
  | treeMap k v => k.ordered.map v.ordered

/-- The values of a shape. -/
abbrev Value (s : Shape) : Type :=
  s.ordered.type

instance (s : Shape) : Ord s.Value := s.ordered.ord

instance (s : Shape) : TransOrd s.Value := s.ordered.trans

instance (s : Shape) : LawfulEqOrd s.Value := s.ordered.lawful

/-- A value's account of its structure. -/
def toTree : (s : Shape) → s.Value → Tree
  | bool, (b : Bool) => .bool b
  | char, (c : Char) => .char c
  | unit, _ => .unit
  | text, (s : String) => .text s
  | float32, (bits : UInt32) => .float32 bits
  | float64, (bits : UInt64) => .float64 bits
  | int w, (v : BitVec w.bits) => .int w v
  | uint w, (v : BitVec w.bits) => .uint w v
  | intSize, (v : BitVec 64) => .int .w64 v
  | uintSize, (v : BitVec 64) => .uint .w64 v
  | list s, (vs : List s.Value) => .seq .exact (vs.map s.toTree)
  | option s, (v : Option s.Value) =>
      match v with
      | none => .none
      | some v => .some (s.toTree v)
  | box s, v => s.toTree v
  | array s _, vs => .tuple ((Vector.toList vs).map s.toTree)
  | pair s t, (v : s.Value × t.Value) => .tuple [s.toTree v.1, t.toTree v.2]
  | triple s t u, (v : s.Value × t.Value × u.Value) =>
      .tuple [s.toTree v.1, t.toTree v.2.1, u.toTree v.2.2]
  | set s, (vs : ExtTreeSet s.Value compare) => .seq .exact (vs.toList.map s.toTree)
  | hashMap k v, (m : ExtTreeMap k.Value v.Value compare) =>
      .map (m.toList.map fun entry => (k.toTree entry.1, v.toTree entry.2))
  | treeMap k v, (m : ExtTreeMap k.Value v.Value compare) =>
      .map (m.toList.map fun entry => (k.toTree entry.1, v.toTree entry.2))

/-- The shape is that of a dictionary itself, not of something that holds one. -/
def isDictionary : Shape → Bool
  | hashMap _ _ | treeMap _ _ => true
  | _ => false

end Shape

end EntropySeal
