import EntropySeal.Value.Canonical
import Mathlib.Data.List.Forall2

/-!
# The data of a tree

A tree says more than the data it stands for: how wide an integer was before it
was widened, which length a sequence announced, which fields were skipped,
which form of a value was not taken, whether a text was at hand or had to be
made, and in which order a map gave its entries.  `Tree.datum` drops all of this
but the last, and fails where the tree does; `Datum.Same` also forgets the
order of entries.

The canonical encoding of a tree is a function of its datum (`encode_eq`), so
everything that is dropped here leaves no trace in the encoding.
-/

namespace EntropySeal

/-! ## Data -/

/-- A datum without parts.  Integers keep their value and their signedness. -/
inductive Datum.Scalar where
  | unit
  | bool (b : Bool)
  | int (value : BitVec 128)
  | uint (value : BitVec 128)
  | float32 (bits : UInt32)
  | float64 (bits : UInt64)
  | char (c : Char)
  | text (s : String)
  | bytes (b : Bytes)
  | none
  | unitStruct (name : String)
  | unitVariant (name : VariantName)

/-- The ways in which a datum holds its parts, maps apart. -/
inductive Datum.Form where
  /-- A single part. -/
  | single
  /-- Elements in order. -/
  | row
  /-- Named fields in order. -/
  | record

/-- What stands before the parts of a datum. -/
inductive Datum.Head : Datum.Form → Type where
  | some : Head .single
  | newtypeStruct (name : String) : Head .single
  | newtypeVariant (name : VariantName) : Head .single
  | seq : Head .row
  | tuple : Head .row
  | tupleStruct (name : String) : Head .row
  | tupleVariant (name : VariantName) : Head .row
  | struct (name : String) : Head .record
  | structVariant (name : VariantName) : Head .record

/-- What a tree stands for. -/
inductive Datum where
  | scalar (value : Datum.Scalar)
  | single (head : Datum.Head .single) (content : Datum)
  | row (head : Datum.Head .row) (items : List Datum)
  | record (head : Datum.Head .record) (fields : List (String × Datum))
  | map (entries : List (Datum × Datum))

namespace Datum

/-- Two data differ at most in the order in which maps, at any depth, list
their entries. -/
inductive Same : Datum → Datum → Prop where
  | scalar (value : Scalar) : Same (.scalar value) (.scalar value)
  | single (head : Head .single) {d e : Datum} :
      Same d e → Same (.single head d) (.single head e)
  | row (head : Head .row) {ds es : List Datum} :
      List.Forall₂ Same ds es → Same (.row head ds) (.row head es)
  | record (head : Head .record) {ds es : List (String × Datum)} :
      ds.map Prod.fst = es.map Prod.fst →
      List.Forall₂ Same (ds.map Prod.snd) (es.map Prod.snd) →
      Same (.record head ds) (.record head es)
  | map {ds es ds' es' : List (Datum × Datum)} :
      ds'.Perm ds → es'.Perm es →
      List.Forall₂ Same (ds'.map Prod.fst) (es'.map Prod.fst) →
      List.Forall₂ Same (ds'.map Prod.snd) (es'.map Prod.snd) →
      Same (.map ds) (.map es)

theorem sizeOf_snd_lt {α β : Type} [SizeOf α] [SizeOf β] {p : α × β} {l : List (α × β)}
    (member : p ∈ l) : sizeOf p.2 < sizeOf l := by
  have smaller := List.sizeOf_lt_of_mem member
  rcases p with ⟨a, b⟩
  simp only [Prod.mk.sizeOf_spec] at smaller ⊢
  omega

theorem sizeOf_fst_lt {α β : Type} [SizeOf α] [SizeOf β] {p : α × β} {l : List (α × β)}
    (member : p ∈ l) : sizeOf p.1 < sizeOf l := by
  have smaller := List.sizeOf_lt_of_mem member
  rcases p with ⟨a, b⟩
  simp only [Prod.mk.sizeOf_spec] at smaller ⊢
  omega

/-- What holds of a datum whenever it holds of its parts holds of all data. -/
theorem inductionOnParts {P : Datum → Prop}
    (scalar : ∀ value, P (.scalar value))
    (single : ∀ head d, P d → P (.single head d))
    (row : ∀ head items, (∀ d ∈ items, P d) → P (.row head items))
    (record : ∀ head fields, (∀ f ∈ fields, P f.2) → P (.record head fields))
    (map : ∀ entries, (∀ e ∈ entries, P e.1 ∧ P e.2) → P (.map entries)) :
    ∀ d, P d
  | .scalar value => scalar value
  | .single head d =>
      single head d (inductionOnParts scalar single row record map d)
  | .row head items =>
      row head items fun d _ => inductionOnParts scalar single row record map d
  | .record head fields =>
      record head fields fun f member =>
        have := sizeOf_snd_lt member
        inductionOnParts scalar single row record map f.2
  | .map entries =>
      map entries fun e member =>
        have := sizeOf_fst_lt member
        have := sizeOf_snd_lt member
        ⟨inductionOnParts scalar single row record map e.1,
          inductionOnParts scalar single row record map e.2⟩
termination_by d => sizeOf d

end Datum

namespace Tree

mutual

/-- What a tree stands for, or the first failure in it. -/
def datum : Tree → Except String Datum
  | .unit => .ok (.scalar .unit)
  | .bool b => .ok (.scalar (.bool b))
  | .int _ v => .ok (.scalar (.int (v.signExtend 128)))
  | .uint _ v => .ok (.scalar (.uint (v.setWidth 128)))
  | .float32 bits => .ok (.scalar (.float32 bits))
  | .float64 bits => .ok (.scalar (.float64 bits))
  | .char c => .ok (.scalar (.char c))
  | .text s => .ok (.scalar (.text s))
  | .bytes b => .ok (.scalar (.bytes b))
  | .none => .ok (.scalar .none)
  | .some t => do pure (.single .some (← datum t))
  | .unitStruct name => .ok (.scalar (.unitStruct name))
  | .unitVariant name => .ok (.scalar (.unitVariant name))
  | .newtypeStruct name t => do pure (.single (.newtypeStruct name) (← datum t))
  | .newtypeVariant name t => do pure (.single (.newtypeVariant name) (← datum t))
  | .seq _ items => do pure (.row .seq (← datumItems items))
  | .tuple items => do pure (.row .tuple (← datumItems items))
  | .tupleStruct name items => do pure (.row (.tupleStruct name) (← datumItems items))
  | .tupleVariant name items => do pure (.row (.tupleVariant name) (← datumItems items))
  | .map entries => do pure (.map (← datumEntries entries))
  | .mapParts parts => do pure (.map (← datumMapParts Option.none parts))
  | .struct name fields => do pure (.record (.struct name) (← datumFields fields))
  | .structVariant name fields => do pure (.record (.structVariant name) (← datumFields fields))
  | .display s => .ok (.scalar (.text s))
  | .human readable _ => datum readable
  | .fail reason => .error reason

/-- What elements stand for, in order. -/
def datumItems : List Tree → Except String (List Datum)
  | [] => .ok []
  | t :: ts => do
      let d ← datum t
      let ds ← datumItems ts
      pure (d :: ds)

/-- The names of the fields that are not skipped, with what they stand for. -/
def datumFields : List (String × Option Tree) → Except String (List (String × Datum))
  | [] => .ok []
  | (_, Option.none) :: fields => datumFields fields
  | (name, Option.some t) :: fields => do
      let d ← datum t
      let ds ← datumFields fields
      pure ((name, d) :: ds)

/-- What entries stand for, in order. -/
def datumEntries : List (Tree × Tree) → Except String (List (Datum × Datum))
  | [] => .ok []
  | (k, v) :: entries => do
      let key ← datum k
      let value ← datum v
      let ds ← datumEntries entries
      pure ((key, value) :: ds)

/-- The entries that separate keys and values make up. -/
def datumMapParts (pending : Option Datum) :
    List (MapPart × Tree) → Except String (List (Datum × Datum))
  | [] => .ok []
  | (.key, t) :: parts => do
      let key ← datum t
      datumMapParts (Option.some key) parts
  | (.value, t) :: parts =>
      match pending with
      | Option.none => .error Canonical.missingKey
      | Option.some key => do
          let value ← datum t
          let ds ← datumMapParts Option.none parts
          pure ((key, value) :: ds)

end

/-- Signed integers stand for the same datum exactly when they have the same
value, whatever their widths. -/
theorem datum_int_eq_iff {m n : Width} (v : BitVec m.bits) (w : BitVec n.bits) :
    (int m v).datum = (int n w).datum ↔ v.toInt = w.toInt := by
  simp only [datum, Except.ok.injEq, Datum.scalar.injEq, Datum.Scalar.int.injEq]
  rw [← BitVec.toInt_inj, BitVec.toInt_signExtend_of_le m.bits_le,
    BitVec.toInt_signExtend_of_le n.bits_le]

/-- Unsigned integers stand for the same datum exactly when they have the same
value, whatever their widths. -/
theorem datum_uint_eq_iff {m n : Width} (v : BitVec m.bits) (w : BitVec n.bits) :
    (uint m v).datum = (uint n w).datum ↔ v.toNat = w.toNat := by
  simp only [datum, Except.ok.injEq, Datum.scalar.injEq, Datum.Scalar.uint.injEq]
  rw [← BitVec.toNat_inj, BitVec.toNat_setWidth_of_le m.bits_le,
    BitVec.toNat_setWidth_of_le n.bits_le]

end Tree

/-! ## The encoding of a datum -/

namespace Datum

open Canonical

/-- The tag of a datum without parts. -/
def Scalar.tag : Scalar → Tag
  | unit => .unit
  | bool _ => .bool
  | int _ => .int
  | uint _ => .uint
  | float32 _ => .float32
  | float64 _ => .float64
  | char _ => .char
  | text _ => .text
  | bytes _ => .bytes
  | none => .none
  | unitStruct _ => .unitStruct
  | unitVariant _ => .unitVariant

/-- What follows the tag of a datum without parts. -/
def Scalar.payload : Scalar → Bytes
  | unit | none => []
  | bool b => [if b then 1 else 0]
  | int v | uint v => Bytes.toLe 16 v.toNat
  | float32 bits => Bytes.toLe 4 bits.toNat
  | float64 bits => Bytes.toLe 8 bits.toNat
  | char c => Bytes.toLe 4 c.toNat
  | text s | unitStruct s => putText s
  | bytes b => putBytes b
  | unitVariant name => putVariant name

/-- The tag that stands before parts. -/
def Head.tag {form : Form} : Head form → Tag
  | some => .some
  | newtypeStruct _ => .newtypeStruct
  | newtypeVariant _ => .newtypeVariant
  | seq => .seq
  | tuple => .tuple
  | tupleStruct _ => .tupleStruct
  | tupleVariant _ => .tupleVariant
  | struct _ => .struct
  | structVariant _ => .structVariant

/-- The names that stand between the tag and the parts. -/
def Head.names {form : Form} : Head form → Bytes
  | some | seq | tuple => []
  | newtypeStruct name | tupleStruct name | struct name => putText name
  | newtypeVariant name | tupleVariant name | structVariant name => putVariant name

/-- The tag of a datum. -/
def tag : Datum → Tag
  | scalar value => value.tag
  | single head _ => head.tag
  | row head _ => head.tag
  | record head _ => head.tag
  | map _ => .map

/-- The canonical encoding of a datum. -/
def bytes : Datum → Bytes
  | scalar value => value.tag.byte :: value.payload
  | single head d => head.tag.byte :: (head.names ++ bytes d)
  | row head items => head.tag.byte :: (head.names ++ putParts (items.map bytes))
  | record head fields =>
      head.tag.byte :: (head.names ++ putParts (fields.map fun f => putText f.1 ++ bytes f.2))
  | map entries => Tag.map.byte :: putEntries (entries.map fun e => (bytes e.1, bytes e.2))
termination_by d => sizeOf d
decreasing_by
  · decreasing_tactic
  · decreasing_tactic
  · have := sizeOf_snd_lt ‹f ∈ fields›
    decreasing_tactic
  · have := sizeOf_fst_lt ‹e ∈ entries›
    decreasing_tactic
  · have := sizeOf_snd_lt ‹e ∈ entries›
    decreasing_tactic

/-- An encoding starts with the tag of its datum. -/
theorem exists_bytes_eq_cons (d : Datum) : ∃ body, d.bytes = d.tag.byte :: body := by
  cases d <;> simp [bytes, tag]

end Datum

namespace Canonical

open Datum

mutual

/-- A tree is encoded as what it stands for, and fails where that fails. -/
theorem encode_eq : ∀ t : Tree, encode t = t.datum.map Datum.bytes
  | .unit | .bool _ | .float32 _ | .float64 _ | .char _ | .text _ | .bytes _ | .none
  | .unitStruct _ | .unitVariant _ | .int _ _ | .display _ => by
      simp [encode, Tree.datum, Except.map, Datum.bytes, Scalar.tag, Scalar.payload]
  | .uint w v => by
      have widened : (v.setWidth 128).toNat = v.toNat := by
        simp [BitVec.toNat_setWidth_of_le w.bits_le]
      simp [encode, Tree.datum, Except.map, Datum.bytes, Scalar.tag, Scalar.payload, widened]
  | .some t | .newtypeStruct _ t | .newtypeVariant _ t => by
      rw [encode, Tree.datum, encode_eq t]
      cases t.datum <;>
        simp [Except.map, bind, Except.bind, pure, Except.pure, Datum.bytes, Head.tag,
          Head.names]
  | .seq _ items | .tuple items | .tupleStruct _ items | .tupleVariant _ items => by
      rw [encode, Tree.datum, encodeItems_eq items]
      cases Tree.datumItems items <;>
        simp [Except.map, bind, Except.bind, pure, Except.pure, Datum.bytes, Head.tag, Head.names]
  | .map entries => by
      rw [encode, Tree.datum, encodeEntries_eq entries]
      cases Tree.datumEntries entries <;>
        simp [Except.map, bind, Except.bind, pure, Except.pure, Datum.bytes]
  | .mapParts parts => by
      have entries := encodeMapParts_eq Option.none parts
      rw [Option.map_none] at entries
      rw [encode, Tree.datum, entries]
      cases Tree.datumMapParts Option.none parts <;>
        simp [Except.map, bind, Except.bind, pure, Except.pure, Datum.bytes]
  | .struct _ fields | .structVariant _ fields => by
      rw [encode, Tree.datum, encodeFields_eq fields]
      cases Tree.datumFields fields <;>
        simp [Except.map, bind, Except.bind, pure, Except.pure, Datum.bytes, Head.tag,
          Head.names]
  | .human readable _ => by
      rw [encode, Tree.datum, encode_eq readable]
  | .fail _ => rfl

/-- Elements are encoded as what they stand for. -/
theorem encodeItems_eq : ∀ ts : List Tree,
    encodeItems ts = (Tree.datumItems ts).map (List.map Datum.bytes)
  | [] => rfl
  | t :: ts => by
      rw [encodeItems, Tree.datumItems, encode_eq t, encodeItems_eq ts]
      cases t.datum <;> cases Tree.datumItems ts <;> rfl

/-- Fields are encoded as what they stand for. -/
theorem encodeFields_eq : ∀ fields : List (String × Option Tree),
    encodeFields fields =
      (Tree.datumFields fields).map (List.map fun f => putText f.1 ++ f.2.bytes)
  | [] => rfl
  | (_, Option.none) :: fields => by
      rw [encodeFields, Tree.datumFields, encodeFields_eq fields]
  | (name, Option.some t) :: fields => by
      rw [encodeFields, Tree.datumFields, encode_eq t, encodeFields_eq fields]
      cases t.datum <;> cases Tree.datumFields fields <;> rfl

/-- Entries are encoded as what they stand for. -/
theorem encodeEntries_eq : ∀ entries : List (Tree × Tree),
    encodeEntries entries =
      (Tree.datumEntries entries).map (List.map fun e => (e.1.bytes, e.2.bytes))
  | [] => rfl
  | (k, v) :: entries => by
      rw [encodeEntries, Tree.datumEntries, encode_eq k, encode_eq v, encodeEntries_eq entries]
      cases k.datum <;> cases v.datum <;> cases Tree.datumEntries entries <;> rfl

/-- Separate keys and values are encoded as the entries they make up. -/
theorem encodeMapParts_eq (pending : Option Datum) : ∀ parts : List (MapPart × Tree),
    encodeMapParts (pending.map Datum.bytes) parts =
      (Tree.datumMapParts pending parts).map (List.map fun e => (e.1.bytes, e.2.bytes))
  | [] => rfl
  | (.key, t) :: parts => by
      rw [encodeMapParts, Tree.datumMapParts, encode_eq t]
      cases t.datum with
      | error reason => rfl
      | ok key => exact encodeMapParts_eq (Option.some key) parts
  | (.value, t) :: parts => by
      rw [encodeMapParts.eq_def, Tree.datumMapParts.eq_def]
      cases pending with
      | none => rfl
      | some key =>
          have rest := encodeMapParts_eq Option.none parts
          simp only [Option.map_some, Option.map_none, encode_eq t] at rest ⊢
          rw [rest]
          cases t.datum <;> cases Tree.datumMapParts Option.none parts <;> rfl

end

/-- A tree has an encoding exactly when it stands for something. -/
theorem encode_eq_ok_iff {t : Tree} {x : Bytes} :
    encode t = .ok x ↔ ∃ d, t.datum = .ok d ∧ d.bytes = x := by
  rw [encode_eq]
  cases t.datum <;> simp [Except.map]

end Canonical

end EntropySeal
