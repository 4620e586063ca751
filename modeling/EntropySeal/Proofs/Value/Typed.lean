import EntropySeal.Proofs.Value.Reordering
import EntropySeal.Value.Stamp

/-!
# Values and their encodings

Every value of a shape has an encoding, because it stands for a datum
(`Shape.datum`), and values that stand for the same data are equal
(`Shape.eq_of_same`).  So equal encodings mean equal values, in whatever order
maps give their entries, and the encoded keys of a map always differ.
-/

namespace EntropySeal

open Std

/-- Data that fit and have one encoding are the same. -/
theorem Datum.same_of_bytes_eq {d e : Datum} (fitsD : d.Fits) (fitsE : e.Fits)
    (equal : d.bytes = e.bytes) : d.Same e :=
  (d.delimited fitsD fitsE (r := []) (s := []) (by rw [equal])).1

namespace Shape

/-! ## What values stand for -/

/-- What a value of a shape stands for. -/
def datum : (s : Shape) → s.Value → Datum
  | bool, (b : Bool) => .scalar (.bool b)
  | char, (c : Char) => .scalar (.char c)
  | unit, _ => .scalar .unit
  | text, (s : String) => .scalar (.text s)
  | float32, (bits : UInt32) => .scalar (.float32 bits)
  | float64, (bits : UInt64) => .scalar (.float64 bits)
  | int _, v => .scalar (.int (BitVec.signExtend 128 v))
  | uint _, v => .scalar (.uint (BitVec.setWidth 128 v))
  | intSize, (v : BitVec 64) => .scalar (.int (v.signExtend 128))
  | uintSize, (v : BitVec 64) => .scalar (.uint (v.setWidth 128))
  | list s, (vs : List s.Value) => .row .seq (vs.map s.datum)
  | option s, (v : Option s.Value) =>
      match v with
      | none => .scalar .none
      | some v => .single .some (s.datum v)
  | box s, v => s.datum v
  | array s _, vs => .row .tuple ((Vector.toList vs).map s.datum)
  | pair s t, (v : s.Value × t.Value) => .row .tuple [s.datum v.1, t.datum v.2]
  | triple s t u, (v : s.Value × t.Value × u.Value) =>
      .row .tuple [s.datum v.1, t.datum v.2.1, u.datum v.2.2]
  | set s, (vs : ExtTreeSet s.Value compare) => .row .seq (vs.toList.map s.datum)
  | hashMap k v, (m : ExtTreeMap k.Value v.Value compare) =>
      .map (m.toList.map fun entry => (k.datum entry.1, v.datum entry.2))
  | treeMap k v, (m : ExtTreeMap k.Value v.Value compare) =>
      .map (m.toList.map fun entry => (k.datum entry.1, v.datum entry.2))

section

variable {α β : Type} {tree : α → Tree} {datum : α → Datum} {tree' : β → Tree}
  {datum' : β → Datum}

theorem datumItems_map (given : ∀ a, (tree a).datum = .ok (datum a)) (as : List α) :
    Tree.datumItems (as.map tree) = .ok (as.map datum) := by
  induction as with
  | nil => rfl
  | cons a as ih =>
      rw [List.map_cons, Tree.datumItems, given, ih]
      rfl

theorem datum_seq (given : ∀ a, (tree a).datum = .ok (datum a)) (as : List α) :
    (Tree.seq .exact (as.map tree)).datum = .ok (.row .seq (as.map datum)) := by
  rw [Tree.datum, datumItems_map given]
  rfl

theorem datum_tuple (given : ∀ a, (tree a).datum = .ok (datum a)) (as : List α) :
    (Tree.tuple (as.map tree)).datum = .ok (.row .tuple (as.map datum)) := by
  rw [Tree.datum, datumItems_map given]
  rfl

theorem datum_map (keys : ∀ a, (tree a).datum = .ok (datum a))
    (values : ∀ b, (tree' b).datum = .ok (datum' b)) (entries : List (α × β)) :
    (Tree.map (entries.map fun e => (tree e.1, tree' e.2))).datum =
      .ok (.map (entries.map fun e => (datum e.1, datum' e.2))) := by
  have together : Tree.datumEntries (entries.map fun e => (tree e.1, tree' e.2)) =
      .ok (entries.map fun e => (datum e.1, datum' e.2)) := by
    induction entries with
    | nil => rfl
    | cons e entries ih =>
        rw [List.map_cons, Tree.datumEntries, keys, values, ih]
        rfl
  rw [Tree.datum, together]
  rfl

end

/-- A value's account of its structure stands for what the value does. -/
theorem datum_toTree (s : Shape) : ∀ v : s.Value, (s.toTree v).datum = .ok (s.datum v) := by
  induction s with
  | bool | char | unit | text | float32 | float64 | int | uint | intSize | uintSize =>
      intro v
      rfl
  | list s ih => exact datum_seq ih
  | option s ih =>
      rintro (_ | v)
      · rfl
      · change (Tree.some (s.toTree v)).datum = _
        rw [Tree.datum, ih]
        rfl
  | box s ih => exact ih
  | array s n ih => exact fun v => datum_tuple ih (Vector.toList v)
  | pair s t ihS ihT =>
      rintro ⟨v, w⟩
      change (Tree.tuple [s.toTree v, t.toTree w]).datum = _
      rw [Tree.datum, Tree.datumItems, Tree.datumItems, ihS, ihT]
      rfl
  | triple s t u ihS ihT ihU =>
      rintro ⟨v, w, x⟩
      change (Tree.tuple [s.toTree v, t.toTree w, u.toTree x]).datum = _
      rw [Tree.datum, Tree.datumItems, Tree.datumItems, Tree.datumItems, ihS, ihT, ihU]
      rfl
  | set s ih => exact fun v => datum_seq ih (ExtTreeSet.toList v)
  | hashMap k t ihK ihT | treeMap k t ihK ihT =>
      exact fun m => datum_map ihK ihT (ExtTreeMap.toList m)

/-! ## Values that stand for the same -/

section

variable {α β : Type} {datum : α → Datum} {datum' : β → Datum}

theorem eq_of_same_scalar {x y : Datum.Scalar} (same : Datum.Same (.scalar x) (.scalar y)) :
    (.ok (.scalar x) : Except String Datum) = .ok (.scalar y) := by
  cases same
  rfl

/-- Lists that stand for the same data are equal if their elements are. -/
theorem eq_of_same_items (injective : ∀ a b, Datum.Same (datum a) (datum b) → a = b)
    {as bs : List α} (same : List.Forall₂ Datum.Same (as.map datum) (bs.map datum)) :
    as = bs := by
  rw [List.forall₂_map_left_iff, List.forall₂_map_right_iff] at same
  have equal : List.Forall₂ (· = ·) as bs := same.imp injective
  rwa [List.forall₂_eq_eq_eq] at equal

theorem eq_of_same_row (injective : ∀ a b, Datum.Same (datum a) (datum b) → a = b)
    {head : Datum.Head .row} {as bs : List α}
    (same : Datum.Same (.row head (as.map datum)) (.row head (bs.map datum))) : as = bs := by
  cases same with
  | row _ items => exact eq_of_same_items injective items

/-- Entries that stand for the same map are the same entries in some order. -/
theorem perm_of_same_map (injective : ∀ a b, Datum.Same (datum a) (datum b) → a = b)
    (injective' : ∀ a b, Datum.Same (datum' a) (datum' b) → a = b) {es fs : List (α × β)}
    (same : Datum.Same (.map (es.map fun e => (datum e.1, datum' e.2)))
      (.map (fs.map fun e => (datum e.1, datum' e.2)))) : es.Perm fs := by
  cases same with
  | map permE permF keys values =>
      -- A reordering of images is the image of a reordering.
      rcases (congrFun₂ (List.eq_map_comp_perm _) _ _).mpr permE with ⟨es', rfl, permE'⟩
      rcases (congrFun₂ (List.eq_map_comp_perm _) _ _).mpr permF with ⟨fs', rfl, permF'⟩
      have firsts : es'.map Prod.fst = fs'.map Prod.fst := by
        apply eq_of_same_items injective
        simpa [Function.comp_def] using keys
      have seconds : es'.map Prod.snd = fs'.map Prod.snd := by
        apply eq_of_same_items injective'
        simpa [Function.comp_def] using values
      rw [Datum.eq_of_components firsts seconds] at permE'
      exact permE'.symm.trans permF'

end

/-- Values that stand for the same data are equal. -/
theorem eq_of_same (s : Shape) : ∀ v w : s.Value, Datum.Same (s.datum v) (s.datum w) → v = w := by
  induction s with
  | bool | char | text | float32 | float64 =>
      rintro v w ⟨⟩
      rfl
  | unit => exact fun _ _ _ => rfl
  | int =>
      exact fun v w same =>
        BitVec.eq_of_toInt_eq ((Tree.datum_int_eq_iff v w).mp (eq_of_same_scalar same))
  | uint =>
      exact fun v w same =>
        BitVec.eq_of_toNat_eq ((Tree.datum_uint_eq_iff v w).mp (eq_of_same_scalar same))
  | intSize =>
      exact fun v w same => BitVec.eq_of_toInt_eq
        ((Tree.datum_int_eq_iff (m := .w64) (n := .w64) v w).mp (eq_of_same_scalar same))
  | uintSize =>
      exact fun v w same => BitVec.eq_of_toNat_eq
        ((Tree.datum_uint_eq_iff (m := .w64) (n := .w64) v w).mp (eq_of_same_scalar same))
  | list s ih => exact fun _ _ => eq_of_same_row ih
  | option s ih =>
      rintro (_ | v) (_ | w) same
      · rfl
      · cases same
      · cases same
      · cases same with
        | single _ part => rw [ih v w part]
  | box s ih => exact ih
  | array s n ih => exact fun _ _ same => Vector.toList_inj.mp (eq_of_same_row ih same)
  | pair s t ihS ihT =>
      rintro ⟨v, w⟩ ⟨v', w'⟩ same
      cases same with
      | row _ items =>
          cases items with
          | cons first items =>
              cases items with
              | cons second _ => rw [ihS v v' first, ihT w w' second]
  | triple s t u ihS ihT ihU =>
      rintro ⟨v, w, x⟩ ⟨v', w', x'⟩ same
      cases same with
      | row _ items =>
          cases items with
          | cons first items =>
              cases items with
              | cons second items =>
                  cases items with
                  | cons third _ => rw [ihS v v' first, ihT w w' second, ihU x x' third]
  | set s ih => exact fun _ _ same => ExtTreeSet.toList_inj.mp (eq_of_same_row ih same)
  | hashMap k t ihK ihT | treeMap k t ihK ihT =>
      exact fun _ _ same => ExtTreeMap.ext_toList (perm_of_same_map ihK ihT same)

/-! ## Keys -/

section

variable {α β : Type} {datum : α → Datum} {datum' : β → Datum}

theorem keysDistinct_row {head : Datum.Head .row} {as : List α}
    (distinct : ∀ a, (datum a).Fits → (datum a).KeysDistinct)
    (fits : Datum.Fits (.row head (as.map datum))) :
    Datum.KeysDistinct (.row head (as.map datum)) := by
  cases fits with
  | row _ _ parts =>
      apply Datum.KeysDistinct.row
      intro d member
      obtain ⟨a, _, rfl⟩ := List.mem_map.mp member
      exact distinct a (parts _ member)

/-- Different keys that fit have different encodings. -/
theorem keysDistinct_map {es : List (α × β)}
    (distinct : ∀ a, (datum a).Fits → (datum a).KeysDistinct)
    (distinct' : ∀ b, (datum' b).Fits → (datum' b).KeysDistinct)
    (injective : ∀ a b, Datum.Same (datum a) (datum b) → a = b) (keys : (es.map Prod.fst).Nodup)
    (fits : Datum.Fits (.map (es.map fun e => (datum e.1, datum' e.2)))) :
    Datum.KeysDistinct (.map (es.map fun e => (datum e.1, datum' e.2))) := by
  cases fits with
  | map _ keysFit valuesFit =>
      have keyFits : ∀ a ∈ es.map Prod.fst, (datum a).Fits := by
        intro a member
        obtain ⟨e, within, rfl⟩ := List.mem_map.mp member
        exact keysFit _ (List.mem_map_of_mem within)
      apply Datum.KeysDistinct.map
      · have encoded : ((es.map Prod.fst).map fun a => (datum a).bytes).Nodup := by
          apply List.Nodup.map_on _ keys
          intro a memA b memB equal
          exact injective a b (Datum.same_of_bytes_eq (keyFits a memA) (keyFits b memB) equal)
        simpa [Function.comp_def] using encoded
      · intro d member
        obtain ⟨e, _, rfl⟩ := List.mem_map.mp member
        exact distinct e.1 (keysFit _ member)
      · intro d member
        obtain ⟨e, _, rfl⟩ := List.mem_map.mp member
        exact distinct' e.2 (valuesFit _ member)

end

theorem nodup_fst_toList {k t : Shape} (m : ExtTreeMap k.Value t.Value compare) :
    (m.toList.map Prod.fst).Nodup := by
  rw [ExtTreeMap.map_fst_toList_eq_keys]
  exact ExtTreeMap.nodup_keys

/-- The maps in a value give entries with different encoded keys. -/
theorem keysDistinct (s : Shape) : ∀ v : s.Value, (s.datum v).Fits → (s.datum v).KeysDistinct := by
  induction s with
  | bool | char | unit | text | float32 | float64 | int | uint | intSize | uintSize =>
      intro v _
      exact .scalar _
  | list s ih => exact fun _ => keysDistinct_row ih
  | option s ih =>
      rintro (_ | v) fits
      · exact .scalar _
      · cases fits with
        | single _ part => exact .single _ (ih v part)
  | box s ih => exact ih
  | array s n ih => exact fun _ => keysDistinct_row ih
  | pair s t ihS ihT =>
      rintro ⟨v, w⟩ fits
      cases fits with
      | row _ _ parts =>
          rcases List.forall_mem_cons.mp parts with ⟨first, parts⟩
          have second := List.forall_mem_singleton.mp parts
          exact .row _ (List.forall_mem_cons.mpr
            ⟨ihS v first, List.forall_mem_singleton.mpr (ihT w second)⟩)
  | triple s t u ihS ihT ihU =>
      rintro ⟨v, w, x⟩ fits
      cases fits with
      | row _ _ parts =>
          rcases List.forall_mem_cons.mp parts with ⟨first, parts⟩
          rcases List.forall_mem_cons.mp parts with ⟨second, parts⟩
          have third := List.forall_mem_singleton.mp parts
          exact .row _ (List.forall_mem_cons.mpr ⟨ihS v first,
            List.forall_mem_cons.mpr
              ⟨ihT w second, List.forall_mem_singleton.mpr (ihU x third)⟩⟩)
  | set s ih => exact fun _ => keysDistinct_row ih
  | hashMap k t ihK ihT | treeMap k t ihK ihT =>
      exact fun m => keysDistinct_map ihK ihT k.eq_of_same (nodup_fst_toList m)

/-! ## Encodings -/

theorem encode_toTree (s : Shape) (v : s.Value) :
    Canonical.encode (s.toTree v) = .ok (s.datum v).bytes :=
  Canonical.encode_eq_ok_iff.mpr ⟨s.datum v, s.datum_toTree v, rfl⟩

theorem fits_datum {s : Shape} {v : s.Value} (fits : (s.toTree v).Fits) : (s.datum v).Fits :=
  fits (s.datum v) (s.datum_toTree v)

theorem keysDistinct_toTree {s : Shape} {v : s.Value} (fits : (s.toTree v).Fits) :
    (s.toTree v).KeysDistinct := by
  intro d given
  rw [s.datum_toTree v] at given
  cases given
  exact s.keysDistinct v (fits_datum fits)

/-- In whatever order the maps in a value give their entries, the encoding is the
same. -/
theorem encode_of_reordered {s : Shape} {v : s.Value} {t : Tree} (fits : (s.toTree v).Fits)
    (reordered : (s.toTree v).Reordered t) :
    Canonical.encode t = .ok (s.datum v).bytes :=
  (reordered.encode_eq_ok_iff (keysDistinct_toTree fits) _).mp (s.encode_toTree v)

/-- In whatever order maps give their entries, equal encodings are those of equal
values. -/
theorem encode_eq_iff {s : Shape} {v w : s.Value} {t u : Tree} (fitsV : (s.toTree v).Fits)
    (fitsW : (s.toTree w).Fits) (reorderedV : (s.toTree v).Reordered t)
    (reorderedW : (s.toTree w).Reordered u) :
    Canonical.encode t = Canonical.encode u ↔ v = w := by
  rw [encode_of_reordered fitsV reorderedV, encode_of_reordered fitsW reorderedW]
  constructor
  · intro equal
    have bytes : (s.datum v).bytes = (s.datum w).bytes := Except.ok.inj equal
    exact s.eq_of_same v w (Datum.same_of_bytes_eq (fits_datum fitsV) (fits_datum fitsW) bytes)
  · rintro rfl
    rfl

end Shape

namespace Protectable

/-- A tree with an encoding has its digest as stamp. -/
theorem stampTree_eq_ok_iff {name : String} {t : Tree} {stamp : Stamp} :
    stampTree name t = .ok stamp ↔ ∃ x, Canonical.encode t = .ok x ∧ Stamp.of x = stamp := by
  unfold stampTree
  cases Canonical.encode t <;> simp

/-- A tree without an encoding has no stamp, for the same reason. -/
theorem stampTree_eq_error_iff {name : String} {t : Tree} {e : Error} :
    stampTree name t = .error e ↔
      ∃ reason, Canonical.encode t = .error reason ∧ e = .notEncodable name reason := by
  unfold stampTree
  cases Canonical.encode t <;> simp [eq_comm]

/-- Every value of a shape has a stamp. -/
theorem stateStamp_value {s : Shape} (v : s.Value) :
    stateStamp v = .ok (Stamp.of (s.datum v).bytes) :=
  stampTree_eq_ok_iff.mpr ⟨_, s.encode_toTree v, rfl⟩

end Protectable

/-! ## The order of entries leaves no trace -/

namespace Canonical

open Protectable (toTree stateStamp stampTree_eq_ok_iff)

/-- Trees that differ only in the order of map entries, at any depth, have the same
encoding, or none, and so do their stamps, as long as the encoded keys of each
map differ.  In a map of typed keys they always do: walked in any order, it is
encoded as the map that is walked in the order of its keys. -/
theorem encode_ignores_order :
    (∀ {a b : Tree}, a.Reordered b → a.KeysDistinct →
      (∀ x, encode a = .ok x ↔ encode b = .ok x) ∧
      ∀ {α β : Type} [Protectable α] [Protectable β] {v : α} {w : β},
        toTree v = a → toTree w = b →
        ∀ stamp, stateStamp v = .ok stamp ↔ stateStamp w = .ok stamp) ∧
    ∀ {k t : Shape} {m : ExtTreeMap k.Value t.Value compare} {walk : List (k.Value × t.Value)},
      ((Shape.hashMap k t).toTree m).Fits → walk.Perm m.toList →
      encode (.map (walk.map fun e => (k.toTree e.1, t.toTree e.2))) =
        encode ((Shape.treeMap k t).toTree m) := by
  constructor
  · intro a b reordered distinct
    have encodings := reordered.encode_eq_ok_iff distinct
    constructor
    · exact encodings
    · rintro α β _ _ v w rfl rfl stamp
      rw [stateStamp, stateStamp, stampTree_eq_ok_iff, stampTree_eq_ok_iff]
      simp only [encodings]
  · intro k t m walk fits permuted
    have reordered : ((Shape.hashMap k t).toTree m).Reordered
        (.map (walk.map fun e => (k.toTree e.1, t.toTree e.2))) :=
      .of_perm (permuted.symm.map _)
    rw [Shape.encode_of_reordered fits reordered]
    exact (Shape.encode_toTree (.treeMap k t) m).symm

/-- Two switches, off and on. -/
def switches : ExtTreeMap Shape.bool.Value Shape.unit.Value compare :=
  .insert (.insert ∅ false ()) true ()

/-- Entries in another order: in a map and in the map that is one of its keys, and
in a map of switches. -/
theorem encode_ignores_order_nested :
    (∃ x, encode (.map [(.map [(.char 'a', .unit), (.char 'b', .unit)], .text "both"),
          (.bool true, .seq .exact [.none])]) = .ok x ∧
        encode (.map [(.bool true, .seq .exact [.none]),
          (.map [(.char 'b', .unit), (.char 'a', .unit)], .text "both")]) = .ok x) ∧
      encode (.map [(.bool true, .unit), (.bool false, .unit)]) =
        encode ((Shape.treeMap .bool .unit).toTree switches) := by
  have reordered : Tree.Reordered
      (.map [(.map [(.char 'a', .unit), (.char 'b', .unit)], .text "both"),
        (.bool true, .seq .exact [.none])])
      (.map [(.bool true, .seq .exact [.none]),
        (.map [(.char 'b', .unit), (.char 'a', .unit)], .text "both")]) :=
    .map (.cons (.of_perm (.swap _ _ [])) (.same _) (.refl _)) (.swap _ _ [])
  have letters : Datum.KeysDistinct
      (.map [(.scalar (.char 'a'), .scalar .unit), (.scalar (.char 'b'), .scalar .unit)]) := by
    apply Datum.KeysDistinct.map
    · simp [Datum.bytes, Datum.Scalar.tag, Tag.byte, Datum.Scalar.payload, Bytes.toLe]
    · simp [Datum.KeysDistinct.scalar]
    · simp [Datum.KeysDistinct.scalar]
  have distinct : Tree.KeysDistinct
      (.map [(.map [(.char 'a', .unit), (.char 'b', .unit)], .text "both"),
        (.bool true, .seq .exact [.none])]) := by
    rintro _ ⟨⟩
    apply Datum.KeysDistinct.map
    · simp [Datum.bytes, Datum.Scalar.tag, Tag.byte]
    · simp [Datum.KeysDistinct.scalar, letters]
    · simp [Datum.KeysDistinct.scalar, Datum.KeysDistinct.row]
  have switch (on : Bool) : Datum.Fits (.scalar (.bool on)) := .scalar trivial
  have nothing : Datum.Fits (.scalar .unit) := .scalar trivial
  have fits : ((Shape.hashMap .bool .unit).toTree switches).Fits := by
    rintro _ ⟨⟩
    apply Datum.Fits.map
    · decide
    · simp [switch]
    · simp [nothing]
  constructor
  · exact ⟨_, rfl, ((encode_ignores_order.1 reordered distinct).1 _).mp rfl⟩
  · exact encode_ignores_order.2 fits (.swap (false, ()) (true, ()) [])

end Canonical

end EntropySeal
