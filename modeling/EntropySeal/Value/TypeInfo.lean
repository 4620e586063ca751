import EntropySeal.Value.Shape

/-!
# Types and their layout

What is known of a type: its full name, its size and alignment in memory,
whether its values own something that must be released, and whether it is a
dictionary.  Together the first four identify the code of the type.

For shapes all of this is computed.  A product places its fields by falling
alignment, so only its end is padded.  An option needs no room of its own where
its content leaves some bit pattern unused, a niche; else it puts a tag beside
the content.
-/

namespace EntropySeal

/-- What is known of a type. -/
structure TypeInfo where
  name : String
  size : Nat
  align : Nat
  needsDrop : Bool
  isDictionary : Bool := false
  deriving DecidableEq, Repr

/-- The text that identifies the code of a type: its name and layout, separated
by zero bytes. -/
def TypeInfo.fingerprint (t : TypeInfo) : String :=
  let separator := "\x00"
  t.name ++ separator ++ toString t.size ++ separator ++ toString t.align ++ separator ++
    (if t.needsDrop then "true" else "false")

/-- How values lie in memory. -/
structure Layout where
  size : Nat
  align : Nat
  /-- Bit patterns that no value has, in the part with the most of them. -/
  niches : Nat
  deriving DecidableEq, Repr

namespace Layout

/-- The least multiple of `align` that is no less than `size`. -/
def roundUp (size align : Nat) : Nat :=
  (size + align - 1) / align * align

/-- The layout of a number without unused patterns. -/
def number (bytes : Nat) : Layout :=
  ⟨bytes, bytes, 0⟩

/-- The layout of several fields side by side. -/
def product (fields : List Layout) : Layout :=
  let align := (fields.map Layout.align).foldl max 1
  { size := roundUp ((fields.map Layout.size).foldl (· + ·) 0) align
    align
    niches := (fields.map Layout.niches).foldl max 0 }

/-- The layout of a content that may be absent. -/
def optional (content : Layout) : Layout :=
  if content.niches > 0 then { content with niches := content.niches - 1 }
  else
    { size := roundUp (content.size + 1) content.align
      align := content.align
      niches := 254 }

/-- The layout of a growing buffer: its address, capacity and length.  A
capacity uses half of its patterns. -/
def buffer : Layout :=
  ⟨24, 8, UInt64.size / 2⟩

/-- The layout of an address, which is never zero. -/
def pointer : Layout :=
  ⟨8, 8, 1⟩

end Layout

namespace Width

/-- The width as the name of a type ends in it. -/
def label (w : Width) : String :=
  toString w.bits

/-- The layout of an integer. -/
def layout (w : Width) : Layout :=
  .number (w.bits / 8)

end Width

namespace Shape

/-- The full name of a type of the shape. -/
def name : Shape → String
  | bool => "bool"
  | char => "char"
  | unit => "()"
  | text => "alloc::string::String"
  | float32 => "f32"
  | float64 => "f64"
  | int w => "i" ++ w.label
  | uint w => "u" ++ w.label
  | intSize => "isize"
  | uintSize => "usize"
  | list s => "alloc::vec::Vec<" ++ s.name ++ ">"
  | option s => "core::option::Option<" ++ s.name ++ ">"
  | box s => "alloc::boxed::Box<" ++ s.name ++ ">"
  | array s n => "[" ++ s.name ++ "; " ++ toString n ++ "]"
  | pair s t => "(" ++ s.name ++ ", " ++ t.name ++ ")"
  | triple s t u => "(" ++ s.name ++ ", " ++ t.name ++ ", " ++ u.name ++ ")"
  | set s => "alloc::collections::btree::set::BTreeSet<" ++ s.name ++ ">"
  | hashMap k v => "std::collections::hash::map::HashMap<" ++ k.name ++ ", " ++ v.name ++ ">"
  | treeMap k v => "alloc::collections::btree::map::BTreeMap<" ++ k.name ++ ", " ++ v.name ++ ">"

/-- How values of the shape lie in memory. -/
def layout : Shape → Layout
  | bool => ⟨1, 1, 254⟩
  | char => ⟨4, 4, UInt32.size - 0x110000⟩
  | unit => ⟨0, 1, 0⟩
  | text | list _ => .buffer
  | float32 => .number 4
  | float64 | intSize | uintSize => .number 8
  | int w | uint w => w.layout
  | option s => s.layout.optional
  | box _ => .pointer
  | array s n => ⟨s.layout.size * n, s.layout.align, if n = 0 then 0 else s.layout.niches⟩
  | pair s t => .product [s.layout, t.layout]
  | triple s t u => .product [s.layout, t.layout, u.layout]
  | set _ | treeMap _ _ => ⟨24, 8, 0⟩
  | hashMap _ _ => ⟨48, 8, 1⟩

/-- Values of the shape own something that must be released. -/
def needsDrop : Shape → Bool
  | bool | char | unit | float32 | float64 | int _ | uint _ | intSize | uintSize => false
  | text | list _ | box _ | set _ | hashMap _ _ | treeMap _ _ => true
  | option s => s.needsDrop
  | array s n => n ≠ 0 && s.needsDrop
  | pair s t => s.needsDrop || t.needsDrop
  | triple s t u => s.needsDrop || t.needsDrop || u.needsDrop

/-- What is known of the type of the shape. -/
def info (s : Shape) : TypeInfo where
  name := s.name
  size := s.layout.size
  align := s.layout.align
  needsDrop := s.needsDrop
  isDictionary := s.isDictionary

end Shape

end EntropySeal
