import EntropySeal.Proofs.Value.PrefixFree
import Mathlib.Data.List.Perm.Basic

/-!
# The order of map entries

Trees are reordered into one another when they differ only in the order in which
maps give their entries: maps anywhere in them, also in the keys of other maps.
Such trees stand for the same data, or both stand for nothing
(`Tree.Reordered.datum`).

The same data are encoded alike as long as the keys of every map have different
encodings (`Datum.bytes_eq_of_same`).  The keys that entries are sorted by are
encodings themselves and may hold maps of their own, so the induction first
makes the keys equal and then the order.
-/

namespace EntropySeal

/-! ## Results that agree -/

/-- Two steps succeed where the first one does, and then the second. -/
theorem bind_eq_ok_iff {ε α β : Type} {x : Except ε α} {next : α → Except ε β} {b : β} :
    (x >>= next) = .ok b ↔ ∃ a, x = .ok a ∧ next a = .ok b := by
  constructor
  · intro succeeded
    cases x with
    | error e => cases succeeded
    | ok a => exact ⟨a, rfl, succeeded⟩
  · rintro ⟨a, rfl, succeeded⟩
    exact succeeded

/-- Both fail, for whatever reasons, or both succeed with related results. -/
inductive Agree {ε α β : Type} (R : α → β → Prop) : Except ε α → Except ε β → Prop where
  | ok {a : α} {b : β} : R a b → Agree R (.ok a) (.ok b)
  | error (e f : ε) : Agree R (.error e) (.error f)

namespace Agree

variable {ε α β γ δ : Type} {R : α → β → Prop} {x : Except ε α} {y : Except ε β}

theorem bind {S : γ → δ → Prop} {f : α → Except ε γ} {g : β → Except ε δ} (agree : Agree R x y)
    (next : ∀ a b, R a b → Agree S (f a) (g b)) : Agree S (x >>= f) (y >>= g) := by
  cases agree with
  | ok related => exact next _ _ related
  | error e f => exact .error e f

theorem trans {S : β → γ → Prop} {T : α → γ → Prop} {z : Except ε γ} (first : Agree R x y)
    (second : Agree S y z) (both : ∀ a b c, R a b → S b c → T a c) : Agree T x z := by
  cases first with
  | ok related =>
      cases second with
      | ok related' => exact .ok (both _ _ _ related related')
  | error e f =>
      cases second with
      | error _ g => exact .error e g

theorem refl {S : α → α → Prop} (related : ∀ a, S a a) (x : Except ε α) : Agree S x x := by
  cases x with
  | ok a => exact .ok (related a)
  | error e => exact .error e e

theorem map_eq_ok_iff {f : α → γ} {g : β → γ} (agree : Agree R x y)
    (equal : ∀ a b, x = .ok a → R a b → f a = g b) (c : γ) :
    x.map f = .ok c ↔ y.map g = .ok c := by
  cases agree with
  | ok related => rw [Except.map, Except.map, equal _ _ rfl related]
  | error e f => simp [Except.map]

end Agree

/-! ## Data that differ in the order of entries -/

namespace Datum

open Canonical

/-- Every datum differs from itself in nothing. -/
theorem same_refl (d : Datum) : Same d d := by
  induction d using inductionOnParts with
  | scalar value => exact .scalar value
  | single head d ih => exact .single head ih
  | row head items ih => exact .row head (List.forall₂_same.mpr ih)
  | record head fields ih =>
      apply Same.record head rfl
      rw [List.forall₂_map_left_iff, List.forall₂_map_right_iff]
      exact List.forall₂_same.mpr ih
  | map entries ih =>
      apply Same.map (List.Perm.refl entries) (List.Perm.refl entries)
      · rw [List.forall₂_map_left_iff, List.forall₂_map_right_iff]
        exact List.forall₂_same.mpr fun e member => (ih e member).1
      · rw [List.forall₂_map_left_iff, List.forall₂_map_right_iff]
        exact List.forall₂_same.mpr fun e member => (ih e member).2

/-- In every map of a datum, at any depth, different entries have different
encoded keys. -/
inductive KeysDistinct : Datum → Prop where
  | scalar (value : Scalar) : KeysDistinct (.scalar value)
  | single (head : Head .single) {d : Datum} :
      KeysDistinct d → KeysDistinct (.single head d)
  | row (head : Head .row) {items : List Datum} :
      (∀ d ∈ items, KeysDistinct d) → KeysDistinct (.row head items)
  | record (head : Head .record) {fields : List (String × Datum)} :
      (∀ f ∈ fields, KeysDistinct f.2) → KeysDistinct (.record head fields)
  | map {entries : List (Datum × Datum)} :
      (entries.map fun e => e.1.bytes).Nodup →
      (∀ e ∈ entries, KeysDistinct e.1) → (∀ e ∈ entries, KeysDistinct e.2) →
      KeysDistinct (.map entries)

/-- What is equal for related members is equal for related lists. -/
theorem map_eq_of_forall₂ {α β : Type} {R : α → α → Prop} {f : α → β} {as bs : List α}
    (related : List.Forall₂ R as bs) (equal : ∀ a ∈ as, ∀ b, R a b → f a = f b) :
    as.map f = bs.map f := by
  induction related with
  | nil => rfl
  | cons first _ ih =>
      rw [List.map_cons, List.map_cons, equal _ (by simp) _ first,
        ih fun a member => equal a (by simp [member])]

/-- Lists of pairs with the same components are the same. -/
theorem eq_of_components {α β : Type} {es fs : List (α × β)}
    (firsts : es.map Prod.fst = fs.map Prod.fst) (seconds : es.map Prod.snd = fs.map Prod.snd) :
    es = fs := by
  have both := congrArg₂ List.zip firsts seconds
  simpa [List.zip_map', Function.comp_def] using both

/-- The same data have the same encoding, if the encoded keys of each map
differ. -/
theorem bytes_eq_of_same {d e : Datum} (distinct : d.KeysDistinct) (same : Same d e) :
    d.bytes = e.bytes := by
  induction d using inductionOnParts generalizing e with
  | scalar value =>
      cases same
      rfl
  | single head d ih =>
      cases distinct with | single _ distinct =>
      cases same with | single _ part =>
      rw [bytes, bytes, ih distinct part]
  | row head ds ih =>
      cases distinct with | row _ distinct =>
      cases same with | row _ parts =>
      rw [bytes, bytes, map_eq_of_forall₂ parts fun d member e => ih d member (distinct d member)]
  | record head fs ih =>
      cases distinct with | record _ distinct =>
      cases same with | @record _ _ gs names values =>
      have encoded : (fs.map Prod.snd).map bytes = (gs.map Prod.snd).map bytes := by
        apply map_eq_of_forall₂ values
        intro d member e part
        obtain ⟨f, within, rfl⟩ := List.mem_map.mp member
        exact ih f within (distinct f within) part
      have pairs : (fs.map fun f => (f.1, f.2.bytes)) = gs.map fun g => (g.1, g.2.bytes) := by
        apply eq_of_components
        · simpa [Function.comp_def] using names
        · simpa [Function.comp_def] using encoded
      have fields : (fs.map fun f => putText f.1 ++ f.2.bytes) =
          gs.map fun g => putText g.1 ++ g.2.bytes := by
        simpa [Function.comp_def] using congrArg (List.map fun f => putText f.1 ++ f.2) pairs
      rw [bytes, bytes, fields]
  | map ds ih =>
      cases distinct with | map distinct keysD valuesD =>
      cases same with | @map _ es ds' es' permD permE keys values =>
      have encodedKeys : (ds'.map Prod.fst).map bytes = (es'.map Prod.fst).map bytes := by
        apply map_eq_of_forall₂ keys
        intro k member l part
        obtain ⟨e, within, rfl⟩ := List.mem_map.mp member
        have inD := permD.mem_iff.mp within
        exact (ih e inD).1 (keysD e inD) part
      have encodedValues : (ds'.map Prod.snd).map bytes = (es'.map Prod.snd).map bytes := by
        apply map_eq_of_forall₂ values
        intro v member w part
        obtain ⟨e, within, rfl⟩ := List.mem_map.mp member
        have inD := permD.mem_iff.mp within
        exact (ih e inD).2 (valuesD e inD) part
      have encoded : (ds'.map fun e => (e.1.bytes, e.2.bytes)) =
          es'.map fun e => (e.1.bytes, e.2.bytes) := by
        apply eq_of_components
        · simpa [Function.comp_def] using encodedKeys
        · simpa [Function.comp_def] using encodedValues
      have sorted : sortEntries (ds.map fun e => (e.1.bytes, e.2.bytes)) =
          sortEntries (es.map fun e => (e.1.bytes, e.2.bytes)) := by
        apply sortEntries_eq_of_perm
        · have first := permD.symm.map fun e => (e.1.bytes, e.2.bytes)
          rw [encoded] at first
          exact first.trans (permE.map _)
        · simpa [Function.comp_def] using distinct
      rw [bytes, bytes, putEntries, putEntries, sorted]

end Datum

/-! ## Trees that differ in the order of entries -/

namespace Tree

/-- Entries as the separate calls that give each key and its value. -/
def separate (entries : List (Tree × Tree)) : List (MapPart × Tree) :=
  entries.flatMap fun e => [(.key, e.1), (.value, e.2)]

mutual

/-- Two trees differ at most in the order in which maps, at any depth, give their
entries. -/
inductive Reordered : Tree → Tree → Prop where
  | same (t : Tree) : Reordered t t
  | some {t u : Tree} : Reordered t u → Reordered (.some t) (.some u)
  | newtypeStruct (name : String) {t u : Tree} :
      Reordered t u → Reordered (.newtypeStruct name t) (.newtypeStruct name u)
  | newtypeVariant (name : VariantName) {t u : Tree} :
      Reordered t u → Reordered (.newtypeVariant name t) (.newtypeVariant name u)
  | seq (hint : LengthHint) {ts us : List Tree} :
      ReorderedItems ts us → Reordered (.seq hint ts) (.seq hint us)
  | tuple {ts us : List Tree} : ReorderedItems ts us → Reordered (.tuple ts) (.tuple us)
  | tupleStruct (name : String) {ts us : List Tree} :
      ReorderedItems ts us → Reordered (.tupleStruct name ts) (.tupleStruct name us)
  | tupleVariant (name : VariantName) {ts us : List Tree} :
      ReorderedItems ts us → Reordered (.tupleVariant name ts) (.tupleVariant name us)
  | map {es fs gs : List (Tree × Tree)} :
      ReorderedEntries es fs → fs.Perm gs → Reordered (.map es) (.map gs)
  /-- Each key is given right before its value, in another order of entries. -/
  | mapParts {ps : List (MapPart × Tree)} {fs gs : List (Tree × Tree)} :
      ReorderedParts ps (separate fs) → fs.Perm gs →
      Reordered (.mapParts ps) (.mapParts (separate gs))
  /-- Keys and values are given in whatever way, and in the same order. -/
  | inParts {ps qs : List (MapPart × Tree)} :
      ReorderedParts ps qs → Reordered (.mapParts ps) (.mapParts qs)
  | struct (name : String) {fs gs : List (String × Option Tree)} :
      ReorderedFields fs gs → Reordered (.struct name fs) (.struct name gs)
  | structVariant (name : VariantName) {fs gs : List (String × Option Tree)} :
      ReorderedFields fs gs → Reordered (.structVariant name fs) (.structVariant name gs)
  | human {r s c d : Tree} :
      Reordered r s → Reordered c d → Reordered (.human r c) (.human s d)

/-- Elements that differ so, in order. -/
inductive ReorderedItems : List Tree → List Tree → Prop where
  | nil : ReorderedItems [] []
  | cons {t u : Tree} {ts us : List Tree} :
      Reordered t u → ReorderedItems ts us → ReorderedItems (t :: ts) (u :: us)

/-- Fields whose trees differ so, in order. -/
inductive ReorderedFields : List (String × Option Tree) → List (String × Option Tree) → Prop where
  | nil : ReorderedFields [] []
  | skipped (name : String) {fs gs : List (String × Option Tree)} :
      ReorderedFields fs gs →
      ReorderedFields ((name, Option.none) :: fs) ((name, Option.none) :: gs)
  | given (name : String) {t u : Tree} {fs gs : List (String × Option Tree)} :
      Reordered t u → ReorderedFields fs gs →
      ReorderedFields ((name, Option.some t) :: fs) ((name, Option.some u) :: gs)

/-- Entries whose keys and values differ so, in order. -/
inductive ReorderedEntries : List (Tree × Tree) → List (Tree × Tree) → Prop where
  | nil : ReorderedEntries [] []
  | cons {k l v w : Tree} {es fs : List (Tree × Tree)} :
      Reordered k l → Reordered v w → ReorderedEntries es fs →
      ReorderedEntries ((k, v) :: es) ((l, w) :: fs)

/-- Keys and values given one by one that differ so, in order. -/
inductive ReorderedParts : List (MapPart × Tree) → List (MapPart × Tree) → Prop where
  | nil : ReorderedParts [] []
  | cons (part : MapPart) {t u : Tree} {ps qs : List (MapPart × Tree)} :
      Reordered t u → ReorderedParts ps qs →
      ReorderedParts ((part, t) :: ps) ((part, u) :: qs)

end

theorem ReorderedEntries.refl (entries : List (Tree × Tree)) :
    ReorderedEntries entries entries := by
  induction entries with
  | nil => exact .nil
  | cons entry entries ih => exact .cons (.same entry.1) (.same entry.2) ih

/-- The entries of a single map come in another order. -/
theorem Reordered.of_perm {es fs : List (Tree × Tree)} (permuted : es.Perm fs) :
    Reordered (.map es) (.map fs) :=
  .map (.refl es) permuted

/-! ### What reordered entries stand for -/

/-- Entries given one call at a time stand for what they stand for together. -/
theorem datumMapParts_separate (entries : List (Tree × Tree)) :
    datumMapParts Option.none (separate entries) = datumEntries entries := by
  induction entries with
  | nil => rfl
  | cons e entries ih =>
      rcases e with ⟨k, v⟩
      change datumMapParts Option.none ((.key, k) :: (.value, v) :: separate entries) = _
      rw [datumMapParts, datumEntries]
      simp only [datumMapParts, ih]

/-- Entries stand for something if all their keys and values do. -/
theorem datumEntries_eq_ok_iff {entries : List (Tree × Tree)} {ds : List (Datum × Datum)} :
    datumEntries entries = .ok ds ↔
      List.Forall₂ (fun e d => e.1.datum = .ok d.1 ∧ e.2.datum = .ok d.2) entries ds := by
  induction entries generalizing ds with
  | nil => simp [datumEntries, eq_comm]
  | cons e entries ih =>
      rcases e with ⟨k, v⟩
      rw [datumEntries, List.forall₂_cons_left_iff]
      constructor
      · intro together
        rcases bind_eq_ok_iff.mp together with ⟨d, key, together⟩
        rcases bind_eq_ok_iff.mp together with ⟨d', value, together⟩
        rcases bind_eq_ok_iff.mp together with ⟨ds, rest, ⟨⟩⟩
        exact ⟨(d, d'), ds, ⟨key, value⟩, ih.mp rest, rfl⟩
      · rintro ⟨⟨d, d'⟩, ds, ⟨key, value⟩, rest, rfl⟩
        rw [key, value, ih.mpr rest]
        rfl

/-- Entries in another order stand for the same entries in another order. -/
theorem agree_of_perm {es fs : List (Tree × Tree)} (permuted : es.Perm fs) :
    Agree (fun ds es : List (Datum × Datum) => ds.Perm es) (datumEntries es)
      (datumEntries fs) := by
  have carried : ∀ {es fs : List (Tree × Tree)} {ds : List (Datum × Datum)}, es.Perm fs →
      datumEntries es = .ok ds → ∃ ds', datumEntries fs = .ok ds' ∧ ds.Perm ds' := by
    intro es fs ds permuted given
    rcases List.perm_comp_forall₂ permuted.symm (datumEntries_eq_ok_iff.mp given) with
      ⟨ds', given', permuted'⟩
    exact ⟨ds', datumEntries_eq_ok_iff.mpr given', permuted'.symm⟩
  cases first : datumEntries es with
  | ok ds =>
      rcases carried permuted first with ⟨ds', second, permuted'⟩
      rw [second]
      exact .ok permuted'
  | error reason =>
      cases second : datumEntries fs with
      | ok ds' =>
          rcases carried permuted.symm second with ⟨ds, given, _⟩
          rw [first] at given
          cases given
      | error reason' => exact .error reason reason'

/-- Entries that stand for the same data, part by part. -/
abbrev SameEntries : List (Datum × Datum) → List (Datum × Datum) → Prop :=
  List.Forall₂ fun d e => d.1.Same e.1 ∧ d.2.Same e.2

/-- Fields of the same names that stand for the same data. -/
abbrev SameFields : List (String × Datum) → List (String × Datum) → Prop :=
  List.Forall₂ fun d e => d.1 = e.1 ∧ d.2.Same e.2

theorem SameEntries.map {ds es fs : List (Datum × Datum)} (same : SameEntries ds es)
    (permuted : es.Perm fs) : Datum.Same (.map ds) (.map fs) := by
  rcases Datum.forall₂_components same with ⟨keys, values⟩
  exact .map (List.Perm.refl ds) permuted keys values

theorem SameFields.record (head : Datum.Head .record) {ds es : List (String × Datum)}
    (same : SameFields ds es) : Datum.Same (.record head ds) (.record head es) := by
  rcases Datum.forall₂_components same with ⟨names, values⟩
  rw [List.forall₂_eq_eq_eq] at names
  exact .record head names values

mutual

/-- Reordered trees stand for the same data, or for nothing. -/
theorem Reordered.datum : ∀ {a b : Tree}, Reordered a b → Agree Datum.Same a.datum b.datum
  | _, _, .same t => .refl Datum.same_refl t.datum
  | _, _, .some part => part.datum.bind fun _ _ same => .ok (.single .some same)
  | _, _, .newtypeStruct name part =>
      part.datum.bind fun _ _ same => .ok (.single (.newtypeStruct name) same)
  | _, _, .newtypeVariant name part =>
      part.datum.bind fun _ _ same => .ok (.single (.newtypeVariant name) same)
  | _, _, .seq _ items => items.datum.bind fun _ _ same => .ok (.row .seq same)
  | _, _, .tuple items => items.datum.bind fun _ _ same => .ok (.row .tuple same)
  | _, _, .tupleStruct name items =>
      items.datum.bind fun _ _ same => .ok (.row (.tupleStruct name) same)
  | _, _, .tupleVariant name items =>
      items.datum.bind fun _ _ same => .ok (.row (.tupleVariant name) same)
  | _, _, .map entries permuted =>
      (entries.datum.trans (agree_of_perm permuted) fun _ _ _ => SameEntries.map).bind
        fun _ _ same => .ok same
  | _, _, .mapParts parts permuted => by
      have together := parts.datum .none
      rw [datumMapParts_separate] at together
      rw [Tree.datum, Tree.datum, datumMapParts_separate]
      exact (together.trans (agree_of_perm permuted) fun _ _ _ => SameEntries.map).bind
        fun _ _ same => .ok same
  | _, _, .inParts parts =>
      (parts.datum .none).bind fun _ _ same => .ok (same.map (List.Perm.refl _))
  | _, _, .struct name fields =>
      fields.datum.bind fun _ _ same => .ok (same.record (.struct name))
  | _, _, .structVariant name fields =>
      fields.datum.bind fun _ _ same => .ok (same.record (.structVariant name))
  | _, _, .human readable _ => by
      rw [Tree.datum, Tree.datum]
      exact readable.datum

theorem ReorderedItems.datum : ∀ {ts us : List Tree}, ReorderedItems ts us →
    Agree (List.Forall₂ Datum.Same) (datumItems ts) (datumItems us)
  | _, _, .nil => .ok .nil
  | _, _, .cons part parts =>
      part.datum.bind fun _ _ first => parts.datum.bind fun _ _ later =>
        .ok (.cons first later)

theorem ReorderedFields.datum : ∀ {fs gs : List (String × Option Tree)},
    ReorderedFields fs gs → Agree SameFields (datumFields fs) (datumFields gs)
  | _, _, .nil => .ok .nil
  | _, _, .skipped name fields => by
      rw [datumFields, datumFields]
      exact fields.datum
  | _, _, .given _ part fields =>
      part.datum.bind fun _ _ first => fields.datum.bind fun _ _ later =>
        .ok (.cons ⟨rfl, first⟩ later)

theorem ReorderedEntries.datum : ∀ {es fs : List (Tree × Tree)},
    ReorderedEntries es fs → Agree SameEntries (datumEntries es) (datumEntries fs)
  | _, _, .nil => .ok .nil
  | _, _, .cons key value entries =>
      key.datum.bind fun _ _ keys => value.datum.bind fun _ _ values =>
        entries.datum.bind fun _ _ later => .ok (.cons ⟨keys, values⟩ later)

theorem ReorderedParts.datum : ∀ {ps qs : List (MapPart × Tree)}, ReorderedParts ps qs →
    ∀ {p q : Option Datum}, Option.Rel Datum.Same p q →
      Agree SameEntries (datumMapParts p ps) (datumMapParts q qs)
  | _, _, .nil, _, _, _ => .ok .nil
  | _, _, .cons .key part parts, _, _, _ =>
      part.datum.bind fun _ _ same => parts.datum (.some same)
  | _, _, .cons .value _ _, _, _, .none => .error _ _
  | _, _, .cons .value part parts, _, _, .some keys =>
      part.datum.bind fun _ _ values => (parts.datum .none).bind fun _ _ later =>
        .ok (.cons ⟨keys, values⟩ later)

end

/-- Every map in a tree, at any depth, gives entries with different encoded keys. -/
def KeysDistinct (t : Tree) : Prop :=
  ∀ d, t.datum = .ok d → d.KeysDistinct

/-- Reordered trees have the same encoding, or none, if encoded keys differ. -/
theorem Reordered.encode_eq_ok_iff {a b : Tree} (reordered : a.Reordered b)
    (distinct : a.KeysDistinct) (x : Bytes) :
    Canonical.encode a = .ok x ↔ Canonical.encode b = .ok x := by
  rw [Canonical.encode_eq, Canonical.encode_eq]
  apply reordered.datum.map_eq_ok_iff
  intro d e given same
  exact Datum.bytes_eq_of_same (distinct d given) same

end Tree

end EntropySeal
