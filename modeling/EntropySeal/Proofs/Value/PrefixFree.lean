import EntropySeal.Proofs.Value.Datum
import EntropySeal.Proofs.Value.Framing
import Mathlib.Data.List.Nodup

/-!
# The canonical encoding is prefix-free

The encoding of a datum, in front of any bytes, determines the datum up to the
order of map entries, and where it ends.  The tag tells which kind of datum
follows; names and payloads delimit themselves; the parts do so by induction,
each being delimited without a length of its own, and their number stands in
front of them.  Sorting the entries of a map loses nothing, because it only
reorders them.
-/

namespace EntropySeal

namespace Canonical

/-! ## Entries in the order of their keys -/

theorem Entry.keyLe_trans (a b c : Entry) (ab : a.keyLe b) (bc : b.keyLe c) : a.keyLe c :=
  Std.TransCmp.isLE_trans ab bc

theorem Entry.keyLe_total (a b : Entry) : a.keyLe b || b.keyLe a := by
  have turned : b.keyLe a = (compare a.1 b.1).isGE := Std.OrientedCmp.isGE_eq_isLE.symm
  rw [turned, Entry.keyLe]
  cases compare a.1 b.1 <;> rfl

/-- Entries under different keys are sorted in one way, whichever order they come in. -/
theorem sortEntries_eq_of_perm {entries reordered : List Entry}
    (permuted : entries.Perm reordered) (distinct : (entries.map Prod.fst).Nodup) :
    sortEntries entries = sortEntries reordered := by
  have sorted : (sortEntries entries).Perm (sortEntries reordered) :=
    ((List.mergeSort_perm _ _).trans permuted).trans (List.mergeSort_perm _ _).symm
  apply List.Perm.eq_of_pairwise _
    (List.pairwise_mergeSort Entry.keyLe_trans Entry.keyLe_total _)
    (List.pairwise_mergeSort Entry.keyLe_trans Entry.keyLe_total _) sorted
  intro a b memA memB ab ba
  have keys : a.1 = b.1 := Std.LawfulEqCmp.eq_of_compare (Std.OrientedCmp.isLE_antisymm ab ba)
  have here : a ∈ entries := List.mem_mergeSort.mp memA
  have there : b ∈ entries := permuted.mem_iff.mpr (List.mem_mergeSort.mp memB)
  exact List.inj_on_of_nodup_map distinct here there keys

end Canonical

namespace Datum

open Bytes Canonical

/-! ## Sizes -/

/-- The texts and byte strings of a scalar are short enough to be counted. -/
def Scalar.Fits : Scalar → Prop
  | text s | unitStruct s => TextFits s
  | bytes b => CountFits b.length
  | unitVariant name => VariantFits name
  | unit | none | bool _ | int _ | uint _ | float32 _ | float64 _ | char _ => True

/-- The names before parts are short enough to be counted. -/
def Head.Fits {form : Form} : Head form → Prop
  | some | seq | tuple => True
  | newtypeStruct name | tupleStruct name | struct name => TextFits name
  | newtypeVariant name | tupleVariant name | structVariant name => VariantFits name

/-- Every text and byte string in a datum is shorter than `2 ^ 64` bytes, and it
has fewer than `2 ^ 64` elements, fields or entries at every place. -/
inductive Fits : Datum → Prop where
  | scalar {value : Scalar} : value.Fits → Fits (.scalar value)
  | single {head : Head .single} {d : Datum} :
      head.Fits → Fits d → Fits (.single head d)
  | row {head : Head .row} {items : List Datum} :
      head.Fits → CountFits items.length → (∀ d ∈ items, Fits d) → Fits (.row head items)
  | record {head : Head .record} {fields : List (String × Datum)} :
      head.Fits → CountFits fields.length → (∀ f ∈ fields, TextFits f.1) →
      (∀ f ∈ fields, Fits f.2) → Fits (.record head fields)
  | map {entries : List (Datum × Datum)} :
      CountFits entries.length → (∀ e ∈ entries, Fits e.1) → (∀ e ∈ entries, Fits e.2) →
      Fits (.map entries)

/-! ## Names and payloads -/

theorem Scalar.eq_of_payload {a b : Scalar} (tags : a.tag = b.tag) (fitsA : a.Fits)
    (fitsB : b.Fits) {r s : Bytes} (equal : a.payload ++ r = b.payload ++ s) :
    a = b ∧ r = s := by
  cases a <;> cases b <;> simp only [Scalar.tag, reduceCtorEq] at tags
  case unit.unit => exact ⟨rfl, equal⟩
  case none.none => exact ⟨rfl, equal⟩
  case bool.bool x y =>
    cases x <;> cases y <;> simp_all [Scalar.payload]
  case int.int x y =>
    rcases toLe_selfDelimiting 16 x.isLt y.isLt equal with ⟨numbers, rests⟩
    exact ⟨congrArg Scalar.int (BitVec.eq_of_toNat_eq numbers), rests⟩
  case uint.uint x y =>
    rcases toLe_selfDelimiting 16 x.isLt y.isLt equal with ⟨numbers, rests⟩
    exact ⟨congrArg Scalar.uint (BitVec.eq_of_toNat_eq numbers), rests⟩
  case float32.float32 x y =>
    rcases toLe_selfDelimiting 4 x.toNat_lt y.toNat_lt equal with ⟨numbers, rests⟩
    exact ⟨congrArg Scalar.float32 (UInt32.toNat_inj.mp numbers), rests⟩
  case float64.float64 x y =>
    rcases toLe_selfDelimiting 8 x.toNat_lt y.toNat_lt equal with ⟨numbers, rests⟩
    exact ⟨congrArg Scalar.float64 (UInt64.toNat_inj.mp numbers), rests⟩
  case char.char x y =>
    rcases toLe_selfDelimiting 4 x.val.toNat_lt y.val.toNat_lt equal with ⟨numbers, rests⟩
    exact ⟨congrArg Scalar.char (Char.toNat_inj.mp numbers), rests⟩
  case text.text x y =>
    rcases putText_selfDelimiting fitsA fitsB equal with ⟨rfl, rests⟩
    exact ⟨rfl, rests⟩
  case bytes.bytes x y =>
    rcases putBytes_selfDelimiting fitsA fitsB equal with ⟨rfl, rests⟩
    exact ⟨rfl, rests⟩
  case unitStruct.unitStruct x y =>
    rcases putText_selfDelimiting fitsA fitsB equal with ⟨rfl, rests⟩
    exact ⟨rfl, rests⟩
  case unitVariant.unitVariant x y =>
    rcases putVariant_selfDelimiting fitsA fitsB equal with ⟨rfl, rests⟩
    exact ⟨rfl, rests⟩

theorem Head.eq_of_names {form : Form} {h k : Head form} (tags : h.tag = k.tag)
    (fitsH : h.Fits) (fitsK : k.Fits) {r s : Bytes} (equal : h.names ++ r = k.names ++ s) :
    h = k ∧ r = s := by
  cases h <;> cases k <;> simp only [Head.tag, reduceCtorEq] at tags
  case some.some => exact ⟨rfl, equal⟩
  case seq.seq => exact ⟨rfl, equal⟩
  case tuple.tuple => exact ⟨rfl, equal⟩
  case newtypeStruct.newtypeStruct | tupleStruct.tupleStruct | struct.struct =>
    rcases putText_selfDelimiting fitsH fitsK equal with ⟨rfl, rests⟩
    exact ⟨rfl, rests⟩
  case newtypeVariant.newtypeVariant | tupleVariant.tupleVariant
      | structVariant.structVariant =>
    rcases putVariant_selfDelimiting fitsH fitsK equal with ⟨rfl, rests⟩
    exact ⟨rfl, rests⟩

/-! ## Tags tell the kinds of data apart -/

theorem Scalar.tag_ne_head (value : Scalar) {form : Form} (head : Head form) :
    value.tag ≠ head.tag := by
  cases value <;> cases head <;> simp [Scalar.tag, Head.tag]

theorem Scalar.tag_ne_map (value : Scalar) : value.tag ≠ .map := by
  cases value <;> simp [Scalar.tag]

theorem Head.tag_ne_map {form : Form} (head : Head form) : head.tag ≠ .map := by
  cases head <;> simp [Head.tag]

theorem Head.form_eq {f g : Form} {h : Head f} {k : Head g} (tags : h.tag = k.tag) : f = g := by
  cases h <;> cases k <;> simp [Head.tag] at tags ⊢

/-- Two data are built in the same way. -/
inductive Alike : Datum → Datum → Prop where
  | scalar (v w : Scalar) : Alike (.scalar v) (.scalar w)
  | single (h k : Head .single) (d e : Datum) : Alike (.single h d) (.single k e)
  | row (h k : Head .row) (ds es : List Datum) : Alike (.row h ds) (.row k es)
  | record (h k : Head .record) (ds es : List (String × Datum)) :
      Alike (.record h ds) (.record k es)
  | map (ds es : List (Datum × Datum)) : Alike (.map ds) (.map es)

theorem alike_of_tag {d e : Datum} (tags : d.tag = e.tag) : Alike d e := by
  cases d <;> cases e
  case scalar.scalar v w => exact .scalar v w
  case single.single h d k e => exact .single h k d e
  case row.row h ds k es => exact .row h k ds es
  case record.record h ds k es => exact .record h k ds es
  case map.map ds es => exact .map ds es
  case scalar.single v k _ | scalar.row v k _ | scalar.record v k _ =>
    exact absurd tags (v.tag_ne_head k)
  case single.scalar k _ v | row.scalar k _ v | record.scalar k _ v =>
    exact absurd tags.symm (v.tag_ne_head k)
  case scalar.map v _ => exact absurd tags v.tag_ne_map
  case map.scalar _ v => exact absurd tags.symm v.tag_ne_map
  case single.map h _ _ | row.map h _ _ | record.map h _ _ => exact absurd tags h.tag_ne_map
  case map.single _ k _ | map.row _ k _ | map.record _ k _ => exact absurd tags.symm k.tag_ne_map
  all_goals exact absurd (Head.form_eq tags) (by simp)

theorem tag_eq_of_append {d e : Datum} {r s : Bytes} (equal : d.bytes ++ r = e.bytes ++ s) :
    d.tag = e.tag := by
  rcases d.exists_bytes_eq_cons with ⟨body, left⟩
  rcases e.exists_bytes_eq_cons with ⟨body', right⟩
  rw [left, right] at equal
  exact Tag.byte_injective (List.cons.inj equal).1

/-! ## Whole data -/

/-- Sorting the encoded entries of a map is sorting the entries by their encoded
keys. -/
theorem exists_perm_of_sortEntries (entries : List (Datum × Datum)) :
    ∃ sorted : List (Datum × Datum), sorted.Perm entries ∧
      sortEntries (entries.map fun e => (e.1.bytes, e.2.bytes)) =
        sorted.map fun e => (e.1.bytes, e.2.bytes) := by
  have sorted : sortEntries (entries.map fun e => (e.1.bytes, e.2.bytes)) =
      (entries.mergeSort fun e f => Entry.keyLe (e.1.bytes, e.2.bytes)
        (f.1.bytes, f.2.bytes)).map fun e => (e.1.bytes, e.2.bytes) := by
    rw [sortEntries, List.map_mergeSort]
    intro _ _ _ _
    rfl
  exact ⟨_, List.mergeSort_perm _ _, sorted⟩

/-- Pairs that are related in both components are related component by
component. -/
theorem forall₂_components {α β : Type} {R : α → α → Prop} {S : β → β → Prop}
    {ps qs : List (α × β)} (related : List.Forall₂ (fun p q => R p.1 q.1 ∧ S p.2 q.2) ps qs) :
    List.Forall₂ R (ps.map Prod.fst) (qs.map Prod.fst) ∧
      List.Forall₂ S (ps.map Prod.snd) (qs.map Prod.snd) := by
  rw [List.forall₂_map_left_iff, List.forall₂_map_right_iff, List.forall₂_map_left_iff,
    List.forall₂_map_right_iff]
  constructor
  · exact related.imp fun _ _ both => both.1
  · exact related.imp fun _ _ both => both.2

/-- Whatever starts with the encoding of this datum is the encoding of the same
data with the same rest behind it. -/
def Delimited (d : Datum) : Prop :=
  ∀ {e : Datum}, d.Fits → e.Fits →
    ∀ {r s : Bytes}, d.bytes ++ r = e.bytes ++ s → d.Same e ∧ r = s

theorem delimited_scalar (v : Scalar) : Delimited (.scalar v) := by
  intro e fitsD fitsE r s equal
  have tags := tag_eq_of_append equal
  cases alike_of_tag tags with
  | scalar _ w =>
      cases fitsD with | scalar fitsV =>
      cases fitsE with | scalar fitsW =>
      simp only [bytes, List.cons_append, List.cons.injEq] at equal
      rcases Scalar.eq_of_payload tags fitsV fitsW equal.2 with ⟨rfl, rests⟩
      exact ⟨.scalar v, rests⟩

theorem delimited_single (h : Head .single) {d : Datum} (part : Delimited d) :
    Delimited (.single h d) := by
  intro e fitsD fitsE r s equal
  have tags := tag_eq_of_append equal
  cases alike_of_tag tags with
  | single _ k _ e =>
      cases fitsD with | single fitsH fitsD =>
      cases fitsE with | single fitsK fitsE =>
      simp only [bytes, List.cons_append, List.cons.injEq, List.append_assoc] at equal
      rcases Head.eq_of_names tags fitsH fitsK equal.2 with ⟨rfl, bodies⟩
      rcases part fitsD fitsE bodies with ⟨same, rests⟩
      exact ⟨.single h same, rests⟩

theorem delimited_row (h : Head .row) {ds : List Datum} (parts : ∀ d ∈ ds, Delimited d) :
    Delimited (.row h ds) := by
  intro e fitsD fitsE r s equal
  have tags := tag_eq_of_append equal
  cases alike_of_tag tags with
  | row _ k _ es =>
      cases fitsD with | row fitsH countD fitsD =>
      cases fitsE with | row fitsK countE fitsE =>
      simp only [bytes, List.cons_append, List.cons.injEq, List.append_assoc] at equal
      rcases Head.eq_of_names tags fitsH fitsK equal.2 with ⟨rfl, bodies⟩
      have delimits : ∀ d ∈ ds, ∀ e ∈ es, ∀ {r s : Bytes},
          d.bytes ++ r = e.bytes ++ s → d.Same e ∧ r = s :=
        fun d memD e memE => parts d memD (fitsD d memD) (fitsE e memE)
      rcases putParts_delimited countD countE delimits bodies with ⟨same, rests⟩
      exact ⟨.row h same, rests⟩

theorem delimited_record (h : Head .record) {ds : List (String × Datum)}
    (parts : ∀ f ∈ ds, Delimited f.2) : Delimited (.record h ds) := by
  intro e fitsD fitsE r s equal
  have tags := tag_eq_of_append equal
  cases alike_of_tag tags with
  | record _ k _ es =>
      cases fitsD with | record fitsH countD namesD fitsD =>
      cases fitsE with | record fitsK countE namesE fitsE =>
      simp only [bytes, List.cons_append, List.cons.injEq, List.append_assoc] at equal
      rcases Head.eq_of_names tags fitsH fitsK equal.2 with ⟨rfl, bodies⟩
      have delimits : ∀ f ∈ ds, ∀ g ∈ es, ∀ {r s : Bytes},
          (putText f.1 ++ f.2.bytes) ++ r = (putText g.1 ++ g.2.bytes) ++ s →
            (f.1 = g.1 ∧ f.2.Same g.2) ∧ r = s := by
        intro f memF g memG r s fields
        simp only [List.append_assoc] at fields
        rcases putText_selfDelimiting (namesD f memF) (namesE g memG) fields with
          ⟨names, values⟩
        rcases parts f memF (fitsD f memF) (fitsE g memG) values with ⟨same, rests⟩
        exact ⟨⟨names, same⟩, rests⟩
      rcases putParts_delimited countD countE delimits bodies with ⟨same, rests⟩
      rcases forall₂_components same with ⟨names, values⟩
      rw [List.forall₂_eq_eq_eq] at names
      exact ⟨.record h names values, rests⟩

theorem delimited_map {ds : List (Datum × Datum)}
    (parts : ∀ e ∈ ds, Delimited e.1 ∧ Delimited e.2) : Delimited (.map ds) := by
  intro e fitsD fitsE r s equal
  cases alike_of_tag (tag_eq_of_append equal) with
  | map _ es =>
      cases fitsD with | map countD keysD valuesD =>
      cases fitsE with | map countE keysE valuesE =>
      rcases exists_perm_of_sortEntries ds with ⟨ds', permD, sortedD⟩
      rcases exists_perm_of_sortEntries es with ⟨es', permE, sortedE⟩
      simp only [bytes, putEntries, sortedD, sortedE, List.map_map, List.cons_append,
        List.cons.injEq] at equal
      have delimits : ∀ f ∈ ds', ∀ g ∈ es', ∀ {r s : Bytes},
          (f.1.bytes ++ f.2.bytes) ++ r = (g.1.bytes ++ g.2.bytes) ++ s →
            (f.1.Same g.1 ∧ f.2.Same g.2) ∧ r = s := by
        intro f memF g memG r s entries
        simp only [List.append_assoc] at entries
        have inD := permD.mem_iff.mp memF
        have inE := permE.mem_iff.mp memG
        rcases (parts f inD).1 (keysD f inD) (keysE g inE) entries with ⟨keys, values⟩
        rcases (parts f inD).2 (valuesD f inD) (valuesE g inE) values with ⟨same, rests⟩
        exact ⟨⟨keys, same⟩, rests⟩
      have countD' : CountFits ds'.length := permD.length_eq ▸ countD
      have countE' : CountFits es'.length := permE.length_eq ▸ countE
      rcases putParts_delimited countD' countE' delimits equal.2 with ⟨same, rests⟩
      rcases forall₂_components same with ⟨keys, values⟩
      exact ⟨.map permD permE keys values, rests⟩

/-- Every encoding delimits its datum, up to the order of map entries. -/
theorem delimited (d : Datum) : Delimited d := by
  induction d using inductionOnParts with
  | scalar v => exact delimited_scalar v
  | single h d ih => exact delimited_single h ih
  | row h ds ih => exact delimited_row h ih
  | record h ds ih => exact delimited_record h ih
  | map ds ih => exact delimited_map ih

end Datum

/-! ## Trees -/

/-- Every text and byte string that a tree gives is shorter than `2 ^ 64` bytes,
and so is every number of parts. -/
def Tree.Fits (t : Tree) : Prop :=
  ∀ d, t.datum = .ok d → d.Fits

/-- Two trees stand for data that differ at most in the order of map entries. -/
def Tree.SameData (a b : Tree) : Prop :=
  ∃ d e, a.datum = .ok d ∧ b.datum = .ok e ∧ d.Same e

namespace Canonical

/-- An encoding in front of any bytes determines where it ends and which data it
encodes. -/
theorem sameData_of_append {a b : Tree} {x y r s : Bytes} (encodedA : encode a = .ok x)
    (encodedB : encode b = .ok y) (fitsA : a.Fits) (fitsB : b.Fits)
    (equal : x ++ r = y ++ s) : r = s ∧ a.SameData b := by
  rcases encode_eq_ok_iff.mp encodedA with ⟨d, datumA, rfl⟩
  rcases encode_eq_ok_iff.mp encodedB with ⟨e, datumB, rfl⟩
  rcases d.delimited (fitsA d datumA) (fitsB e datumB) equal with ⟨same, rests⟩
  exact ⟨rests, d, e, datumA, datumB, same⟩

/-- A map with its entries in another order, one integer wider and another
length announced. -/
theorem sameData_of_reordered_entries :
    ∃ x : Bytes,
      encode (.map [(.char 'a', .int .w8 1), (.text "b", .seq .unknown [.some .none])]) =
        .ok x ∧
      encode (.map [(.text "b", .seq .exact [.some .none]), (.char 'a', .int .w64 1)]) =
        .ok x ∧
      Tree.SameData (.map [(.char 'a', .int .w8 1), (.text "b", .seq .unknown [.some .none])])
        (.map [(.text "b", .seq .exact [.some .none]), (.char 'a', .int .w64 1)]) := by
  have reordered :
      encode (.map [(.text "b", .seq .exact [.some .none]), (.char 'a', .int .w64 1)]) =
        encode (.map [(.char 'a', .int .w8 1), (.text "b", .seq .unknown [.some .none])]) := by
    have sorted := sortEntries_eq_of_perm
      (.swap (Tag.char.byte :: Bytes.toLe 4 97, Tag.int.byte :: Bytes.toLe 16 1)
        (Tag.text.byte :: putText "b", Tag.seq.byte :: putParts [[Tag.some.byte, Tag.none.byte]]) [])
      (by decide +kernel)
    exact congrArg (fun entries =>
      Except.ok (Tag.map.byte :: putParts (entries.map fun e => e.1 ++ e.2))) sorted
  have short : TextFits "b" := by decide +kernel
  have key : Datum.Fits (.scalar (.text "b")) := .scalar short
  have items : Datum.Fits (.row .seq [.single .some (.scalar .none)]) :=
    .row trivial (by decide) (by simpa using .single trivial (.scalar trivial))
  have letter : Datum.Fits (.scalar (.char 'a')) := .scalar trivial
  have number (n : BitVec 128) : Datum.Fits (.scalar (.int n)) := .scalar trivial
  refine ⟨_, rfl, reordered,
    (sameData_of_append (r := [7]) (s := [7]) rfl reordered ?_ ?_ rfl).2⟩
  · rintro _ ⟨⟩
    exact .map (by decide) (by simp [letter, key]) (by simp [items, number])
  · rintro _ ⟨⟩
    exact .map (by decide) (by simp [letter, key]) (by simp [items, number])

end Canonical

end EntropySeal
