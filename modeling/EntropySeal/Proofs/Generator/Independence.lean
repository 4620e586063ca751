import EntropySeal.Proofs.Generator.Masking
import Mathlib.Data.Finset.Fold
import Mathlib.Data.Finset.Powerset
import Mathlib.Data.Finset.SymmDiff
import Mathlib.Order.Interval.Finset.Nat

/-!
# What the witnesses of a round combine

The ingredients of a round are its raw draws and its digests.  Every witness is the
exclusive or of some of them: of one alone, of all digests of a source that has
several, or of all digests of several sources.  Which ones it combines depends on
how many digests the sources have, and on nothing else (`Round.parts`).

No two witnesses combine the same ingredients (`Round.nodup_parts`).  So two of them
can be equal only where ingredients cancel out, and a round in which none do passes
its cross-check, whatever the configuration.
-/

namespace EntropySeal

namespace Bytes

instance : Std.Commutative xor :=
  ⟨xor_comm⟩

instance : Std.Associative xor :=
  ⟨xor_assoc⟩

end Bytes

namespace Conditioned

open scoped symmDiff

variable {size : Nat} {arrays : List Bytes} {p q : Finset Nat}

/-! ## Selections -/

/-- The exclusive or of the arrays at some places. -/
def combineAt (size : Nat) (arrays : List Bytes) (places : Finset Nat) : Bytes :=
  places.fold Bytes.xor (Bytes.zeros size) fun k => arrays.getD k (Bytes.zeros size)

/-- The arrays never cancel out: the exclusive or of those at some places is not
zero, whichever places are taken. -/
def Independent (size : Nat) (arrays : List Bytes) : Prop :=
  ∀ places ⊆ Finset.range arrays.length, places.Nonempty →
    combineAt size arrays places ≠ Bytes.zeros size

instance (size : Nat) (arrays : List Bytes) : Decidable (Independent size arrays) :=
  inferInstanceAs (Decidable (∀ places ⊆ Finset.range arrays.length, places.Nonempty →
    combineAt size arrays places ≠ Bytes.zeros size))

theorem combineAt_insert {k : Nat} (fresh : k ∉ p) :
    combineAt size arrays (insert k p) =
      Bytes.xor (arrays.getD k (Bytes.zeros size)) (combineAt size arrays p) :=
  Finset.fold_insert fresh

theorem length_getD (sizes : OfSize size arrays) (k : Nat) :
    (arrays.getD k (Bytes.zeros size)).length = size := by
  rw [List.getD_eq_getElem?_getD]
  cases there : arrays[k]? with
  | none => exact Bytes.length_zeros size
  | some a => exact sizes a (List.mem_of_getElem? there)

theorem length_combineAt (sizes : OfSize size arrays) (p : Finset Nat) :
    (combineAt size arrays p).length = size := by
  induction p using Finset.induction with
  | empty => exact Bytes.length_zeros size
  | insert k p fresh ih =>
      rw [combineAt_insert fresh, Bytes.length_xor, length_getD sizes, ih, Nat.min_self]

/-- Places apart from one another are combined one set after the other. -/
theorem combineAt_union (apart : Disjoint p q) :
    combineAt size arrays (p ∪ q) =
      Bytes.xor (combineAt size arrays p) (combineAt size arrays q) := by
  have zeros : Bytes.xor (Bytes.zeros size) (Bytes.zeros size) = Bytes.zeros size := by
    rw [Bytes.xor_self, Bytes.length_zeros]
  rw [← Finset.disjUnion_eq_union p q apart, combineAt]
  nth_rewrite 1 [← zeros]
  exact Finset.fold_disjUnion apart

/-- Places that occur in both selections cancel out. -/
theorem combineAt_symmDiff (sizes : OfSize size arrays) (p q : Finset Nat) :
    combineAt size arrays (p ∆ q) =
      Bytes.xor (combineAt size arrays p) (combineAt size arrays q) := by
  have covered : (combineAt size arrays (p \ q)).length ≤
      (combineAt size arrays (p ∩ q)).length := by
    rw [length_combineAt sizes, length_combineAt sizes]
  have common : combineAt size arrays q =
      Bytes.xor (combineAt size arrays (q \ p)) (combineAt size arrays (p ∩ q)) := by
    rw [Finset.inter_comm, ← combineAt_union (Finset.disjoint_sdiff_inter q p),
      Finset.sdiff_union_inter]
  calc
    combineAt size arrays (p ∆ q)
      = Bytes.xor (combineAt size arrays (p \ q)) (combineAt size arrays (q \ p)) :=
        combineAt_union disjoint_sdiff_sdiff
    _ = Bytes.xor (Bytes.xor (combineAt size arrays (p \ q)) (combineAt size arrays (p ∩ q)))
          (Bytes.xor (combineAt size arrays (q \ p)) (combineAt size arrays (p ∩ q))) :=
        (Bytes.xor_xor_xor_cancel covered).symm
    _ = Bytes.xor (combineAt size arrays p) (combineAt size arrays q) := by
      rw [← common, ← combineAt_union (Finset.disjoint_sdiff_inter p q),
        Finset.sdiff_union_inter]

/-- Independent arrays combine to different arrays at different places. -/
theorem Independent.eq_of_combineAt_eq (independent : Independent size arrays)
    (sizes : OfSize size arrays) (pWithin : p ⊆ Finset.range arrays.length)
    (qWithin : q ⊆ Finset.range arrays.length)
    (same : combineAt size arrays p = combineAt size arrays q) : p = q := by
  have zero : combineAt size arrays (p ∆ q) = Bytes.zeros size := by
    rw [combineAt_symmDiff sizes, same, Bytes.xor_self, length_combineAt sizes]
  have within : p ∆ q ⊆ Finset.range arrays.length :=
    Finset.union_subset (Finset.sdiff_subset.trans pWithin) (Finset.sdiff_subset.trans qWithin)
  rcases (p ∆ q).eq_empty_or_nonempty with none | some
  · exact symmDiff_eq_bot.mp none
  · exact absurd zero (independent _ within some)

/-! ### Consecutive arrays -/

/-- An array that is found at a place. -/
theorem combineAt_singleton {k : Nat} {a : Bytes} (there : arrays[k]? = some a)
    (length : a.length = size) : combineAt size arrays {k} = a := by
  have zeros := Bytes.xor_zeros a
  rw [length] at zeros
  rw [combineAt, Finset.fold_singleton, List.getD_eq_getElem?_getD, there]
  exact zeros

/-- Arrays that follow one another from a place on are found in two runs. -/
theorem prefix_drop_append {start : Nat} {xs ys : List Bytes}
    (lies : xs ++ ys <+: arrays.drop start) :
    xs <+: arrays.drop start ∧ ys <+: arrays.drop (start + xs.length) := by
  obtain ⟨rest, eq⟩ := lies
  constructor
  · exact ⟨ys ++ rest, by rw [← eq, List.append_assoc]⟩
  · exact ⟨rest, by rw [← List.drop_drop, ← eq, List.append_assoc, List.drop_left]⟩

/-- The first of several arrays that follow one another, and the rest of them. -/
theorem prefix_drop_cons {start : Nat} {a : Bytes} {as : List Bytes}
    (lies : a :: as <+: arrays.drop start) :
    arrays[start]? = some a ∧ as <+: arrays.drop (start + 1) := by
  have runs : [a] ++ as <+: arrays.drop start := lies
  constructor
  · obtain ⟨rest, eq⟩ := lies
    rw [← Nat.add_zero start, ← List.getElem?_drop, ← eq]
    rfl
  · exact (prefix_drop_append runs).2

/-- Consecutive arrays, each by itself. -/
theorem map_combineAt_singleton {start : Nat} {run : List Bytes}
    (lies : run <+: arrays.drop start) (sizes : OfSize size run) :
    (List.range' start run.length).map (fun k => combineAt size arrays {k}) = run := by
  induction run generalizing start with
  | nil => rfl
  | cons a as ih =>
      obtain ⟨first, later⟩ := List.forall_mem_cons.mp sizes
      obtain ⟨there, rest⟩ := prefix_drop_cons lies
      rw [List.length_cons, List.range'_succ, List.map_cons, ih rest later,
        combineAt_singleton there first]

/-- Consecutive arrays, all together. -/
theorem combineAt_Ico {start : Nat} {run : List Bytes} (lies : run <+: arrays.drop start)
    (sizes : OfSize size run) :
    combineAt size arrays (Finset.Ico start (start + run.length)) = combine size run := by
  induction run generalizing start with
  | nil =>
      rw [List.length_nil, Nat.add_zero, Finset.Ico_self]
      rfl
  | cons a as ih =>
      obtain ⟨first, later⟩ := List.forall_mem_cons.mp sizes
      obtain ⟨there, rest⟩ := prefix_drop_cons lies
      have fresh : Disjoint {start} (Finset.Ico (start + 1) (start + 1 + as.length)) := by
        simp
      have split : Finset.Ico start (start + (a :: as).length) =
          {start} ∪ Finset.Ico (start + 1) (start + 1 + as.length) := by
        ext k
        simp only [List.length_cons, Finset.mem_union, Finset.mem_singleton, Finset.mem_Ico]
        omega
      rw [split, combineAt_union fresh, ih rest later,
        combineAt_singleton there first, combine_cons first later]

end Conditioned

namespace Round

variable {size start : Nat} {arrays : List Bytes}

/-- The raw draws and the digests of a round, in order. -/
def ingredients (r : Round) : List Bytes :=
  r.flatMap fun c => c.raw :: c.digests

/-- How many digests each source has. -/
def shape (r : Round) : List Nat :=
  r.map fun c => c.digests.length

/-! ## Parts -/

/-- The places that the witnesses of a draw with `k` digests combine, if its raw
bytes are at `start`.  Each array is a witness by itself, and so are all digests
together if there are several. -/
def drawParts (start k : Nat) : List (Finset Nat) :=
  (List.range' start (k + 1)).map (fun i => {i}) ++
    (if k > 1 then [Finset.Ico (start + 1) (start + 1 + k)] else [])

/-- The places that the witnesses of several draws combine, one draw after the
other. -/
def sourceParts (start : Nat) : List Nat → List (Finset Nat)
  | [] => []
  | k :: ks => drawParts start k ++ sourceParts (start + (k + 1)) ks

/-- The places of all digests of several draws. -/
def digestPlaces (start : Nat) : List Nat → Finset Nat
  | [] => ∅
  | k :: ks => Finset.Ico (start + 1) (start + 1 + k) ∪ digestPlaces (start + (k + 1)) ks

/-- The places that each witness of a round combines.  The block of the round is
a witness if there are several sources. -/
def parts (shape : List Nat) : List (Finset Nat) :=
  sourceParts 0 shape ++ (if shape.length > 1 then [digestPlaces 0 shape] else [])

/-- How many arrays draws of this shape have. -/
def extent : List Nat → Nat
  | [] => 0
  | k :: ks => k + 1 + extent ks

theorem length_ingredients (r : Round) : r.ingredients.length = extent r.shape := by
  induction r with
  | nil => rfl
  | cons c r ih =>
      have rest : (List.flatMap (fun c => c.raw :: c.digests) r).length = extent (shape r) := ih
      rw [ingredients, List.flatMap_cons, List.length_append, rest, List.length_cons]
      rfl

/-! ### Where parts are -/

theorem drawParts_within {k : Nat} {p : Finset Nat} (member : p ∈ drawParts start k) :
    p.Nonempty ∧ p ⊆ Finset.Ico start (start + (k + 1)) := by
  rcases List.mem_append.mp member with single | several
  · obtain ⟨i, among, rfl⟩ := List.mem_map.mp single
    rw [List.mem_range'_1] at among
    exact ⟨Finset.singleton_nonempty i,
      Finset.singleton_subset_iff.mpr (Finset.mem_Ico.mpr among)⟩
  · obtain ⟨more, only⟩ := List.mem_ite_nil_right.mp several
    obtain rfl := List.mem_singleton.mp only
    constructor
    · exact Finset.nonempty_Ico.mpr (by omega)
    · exact Finset.Ico_subset_Ico (by omega) (by omega)

theorem sourceParts_within {ks : List Nat} {p : Finset Nat} (member : p ∈ sourceParts start ks) :
    p.Nonempty ∧ p ⊆ Finset.Ico start (start + extent ks) := by
  induction ks generalizing start with
  | nil => cases member
  | cons k ks ih =>
      rw [extent]
      rcases List.mem_append.mp member with first | later
      · obtain ⟨nonempty, within⟩ := drawParts_within first
        exact ⟨nonempty, within.trans (Finset.Ico_subset_Ico_right (by omega))⟩
      · obtain ⟨nonempty, within⟩ := ih later
        exact ⟨nonempty, within.trans (Finset.Ico_subset_Ico (by omega) (by omega))⟩

theorem digestPlaces_within (start : Nat) (ks : List Nat) :
    digestPlaces start ks ⊆ Finset.Ico start (start + extent ks) := by
  induction ks generalizing start with
  | nil => exact Finset.empty_subset _
  | cons k ks ih =>
      rw [extent]
      apply Finset.union_subset
      · exact Finset.Ico_subset_Ico (by omega) (by omega)
      · exact (ih _).trans (Finset.Ico_subset_Ico (by omega) (by omega))

/-- The places of later draws are not places of an earlier one. -/
theorem not_subset_both {p : Finset Nat} {middle stop : Nat} (nonempty : p.Nonempty)
    (before : p ⊆ Finset.Ico start middle) : ¬p ⊆ Finset.Ico middle stop := by
  intro behind
  obtain ⟨i, member⟩ := nonempty
  have less := (Finset.mem_Ico.mp (before member)).2
  exact Nat.not_le_of_lt less (Finset.mem_Ico.mp (behind member)).1

theorem parts_within {shape : List Nat} (digested : ∀ k ∈ shape, 0 < k) {p : Finset Nat}
    (member : p ∈ parts shape) : p.Nonempty ∧ p ⊆ Finset.range (extent shape) := by
  rw [Finset.range_eq_Ico, ← Nat.zero_add (extent shape)]
  rcases List.mem_append.mp member with source | block
  · exact sourceParts_within source
  · obtain ⟨more, only⟩ := List.mem_ite_nil_right.mp block
    obtain rfl := List.mem_singleton.mp only
    constructor
    · match shape, more with
      | k :: ks, _ =>
          have pos : 0 < k := digested k (by simp)
          exact ⟨1, Finset.mem_union_left _ (Finset.mem_Ico.mpr (by omega))⟩
    · exact digestPlaces_within 0 shape

/-! ### No part twice -/

/-- At most one more element is put behind a list, and it is new. -/
theorem nodup_append_ite {α : Type} {l : List α} {a : α} {condition : Prop}
    [Decidable condition] (nodup : l.Nodup) (fresh : condition → a ∉ l) :
    (l ++ (if condition then [a] else [])).Nodup := by
  split
  · next holds =>
      apply nodup.append (List.nodup_singleton a)
      intro b among last
      rw [List.mem_singleton.mp last] at among
      exact fresh holds among
  · rwa [List.append_nil]

theorem nodup_drawParts (start k : Nat) : (drawParts start k).Nodup := by
  have singles : ((List.range' start (k + 1)).map fun i => ({i} : Finset Nat)).Nodup :=
    (List.nodup_range' 1).map Finset.singleton_injective
  apply nodup_append_ite singles
  intro more single
  obtain ⟨i, -, equal⟩ := List.mem_map.mp single
  have all : ∀ j, start + 1 ≤ j ∧ j < start + 1 + k → j = i := by
    intro j within
    rw [← Finset.mem_Ico, ← equal] at within
    exact Finset.mem_singleton.mp within
  -- There are two digests at least, and they are at different places.
  have first := all (start + 1) (by omega)
  have second := all (start + 2) (by omega)
  omega

theorem nodup_sourceParts (start : Nat) (ks : List Nat) : (sourceParts start ks).Nodup := by
  induction ks generalizing start with
  | nil => exact List.nodup_nil
  | cons k ks ih =>
      apply (nodup_drawParts start k).append (ih _)
      intro p first later
      obtain ⟨nonempty, before⟩ := drawParts_within first
      exact not_subset_both nonempty before (sourceParts_within later).2

/-- All digests of several sources are more than what any witness of one source
combines. -/
theorem digestPlaces_not_mem {ks : List Nat} (digested : ∀ k ∈ ks, 0 < k)
    (more : ks.length > 1) : digestPlaces start ks ∉ sourceParts start ks := by
  match ks, more with
  | k :: k' :: ks, _ =>
      have pos : 0 < k := digested k (by simp)
      have pos' : 0 < k' := digested k' (by simp)
      have own : start + 1 ∈ digestPlaces start (k :: k' :: ks) :=
        Finset.mem_union_left _ (Finset.mem_Ico.mpr (by omega))
      have other : start + (k + 1) + 1 ∈ digestPlaces start (k :: k' :: ks) :=
        Finset.mem_union_right _ (Finset.mem_union_left _ (Finset.mem_Ico.mpr (by omega)))
      -- A witness of the first source misses the second one, and any other the first.
      intro member
      rcases List.mem_append.mp member with first | later
      · have within := Finset.mem_Ico.mp ((drawParts_within first).2 other)
        omega
      · have within := Finset.mem_Ico.mp ((sourceParts_within later).2 own)
        omega

/-- No two witnesses combine the same arrays. -/
theorem nodup_parts {shape : List Nat} (digested : ∀ k ∈ shape, 0 < k) :
    (parts shape).Nodup :=
  nodup_append_ite (nodup_sourceParts 0 shape) (digestPlaces_not_mem digested)

/-! ### Witnesses are combined parts -/

/-- The witnesses of a draw whose arrays are found from `start` on. -/
theorem map_drawParts {c : Conditioned} (lies : c.raw :: c.digests <+: arrays.drop start)
    (sizes : Conditioned.OfSize size (c.raw :: c.digests)) :
    (drawParts start c.digests.length).map (Conditioned.combineAt size arrays) =
      c.witnesses size := by
  have single := Conditioned.map_combineAt_singleton lies sizes
  obtain ⟨-, digests⟩ := Conditioned.prefix_drop_cons lies
  have several := Conditioned.combineAt_Ico digests (List.forall_mem_cons.mp sizes).2
  rw [drawParts, List.map_append, List.map_map, Conditioned.witnesses]
  apply congrArg₂
  · exact single
  · split
    · exact congrArg (fun a => [a]) several
    · rfl

/-- The witnesses of several draws whose arrays are found from `start` on. -/
theorem map_sourceParts {r : Round} (lies : r.ingredients <+: arrays.drop start)
    (sizes : Conditioned.OfSize size r.ingredients) :
    (sourceParts start r.shape).map (Conditioned.combineAt size arrays) =
      r.flatMap (Conditioned.witnesses size) := by
  induction r generalizing start with
  | nil => rfl
  | cons c r ih =>
      obtain ⟨own, others⟩ := Conditioned.prefix_drop_append lies
      obtain ⟨ownSizes, otherSizes⟩ := List.forall_mem_append.mp sizes
      have later := ih others otherSizes
      have first := map_drawParts own ownSizes
      rw [List.flatMap_cons, ← first, ← later, ← List.map_append]
      rfl

theorem output_cons {c : Conditioned} {r : Round}
    (sizes : Conditioned.OfSize size (ingredients (c :: r))) :
    output size (c :: r) = Bytes.xor (c.output size) (output size r) := by
  have digests : ∀ d ∈ c :: r, Conditioned.OfSize size d.digests := by
    intro d among a own
    exact sizes a (List.mem_flatMap.mpr ⟨d, among, List.mem_cons_of_mem _ own⟩)
  have outputs : Conditioned.OfSize size (r.map (Conditioned.output size)) := by
    intro a member
    obtain ⟨d, among, rfl⟩ := List.mem_map.mp member
    exact Conditioned.length_combine (digests d (List.mem_cons_of_mem _ among))
  exact Conditioned.combine_cons
    (Conditioned.length_combine (digests c List.mem_cons_self)) outputs

/-- All digests of several draws whose arrays are found from `start` on. -/
theorem combineAt_digestPlaces {r : Round} (lies : r.ingredients <+: arrays.drop start)
    (sizes : Conditioned.OfSize size r.ingredients) :
    Conditioned.combineAt size arrays (digestPlaces start r.shape) = r.output size := by
  induction r generalizing start with
  | nil => rfl
  | cons c r ih =>
      obtain ⟨own, others⟩ := Conditioned.prefix_drop_append lies
      obtain ⟨ownSizes, otherSizes⟩ := List.forall_mem_append.mp sizes
      have digestSizes := (List.forall_mem_cons.mp ownSizes).2
      obtain ⟨-, digests⟩ := Conditioned.prefix_drop_cons own
      have apart : Disjoint (Finset.Ico (start + 1) (start + 1 + c.digests.length))
          (digestPlaces (start + (c.digests.length + 1)) (shape r)) := by
        apply Finset.disjoint_of_subset_right (digestPlaces_within _ _)
        rw [Nat.add_comm c.digests.length 1, ← Nat.add_assoc]
        exact Finset.Ico_disjoint_Ico_consecutive _ _ _
      rw [output_cons sizes, ← ih others otherSizes, Conditioned.output,
        ← Conditioned.combineAt_Ico digests digestSizes]
      exact Conditioned.combineAt_union apart

/-- The witnesses of a round combine its parts. -/
theorem witnesses_eq_map_parts {r : Round} (sizes : Conditioned.OfSize size r.ingredients) :
    r.witnesses size = (parts r.shape).map (Conditioned.combineAt size r.ingredients) := by
  have all : r.ingredients <+: r.ingredients.drop 0 := List.prefix_rfl
  have block := combineAt_digestPlaces all sizes
  rw [parts, List.map_append, map_sourceParts all sizes, witnesses, shape, List.length_map]
  split
  · exact congrArg (fun a => r.flatMap (Conditioned.witnesses size) ++ [a]) block.symm
  · rfl

/-- If no ingredients of a round cancel out, its witnesses are distinct. -/
theorem nodup_witnesses {r : Round} (sizes : Conditioned.OfSize size r.ingredients)
    (digested : ∀ k ∈ r.shape, 0 < k)
    (independent : Conditioned.Independent size r.ingredients) : (r.witnesses size).Nodup := by
  have within : ∀ p ∈ parts r.shape, p ⊆ Finset.range r.ingredients.length := by
    intro p member
    rw [length_ingredients]
    exact (parts_within digested member).2
  rw [witnesses_eq_map_parts sizes]
  apply (nodup_parts digested).map_on
  intro p memberP q memberQ same
  exact independent.eq_of_combineAt_eq sizes (within p memberP) (within q memberQ) same

end Round

namespace SlowGenerator

variable {σ : Type} {size : Nat} {cs : List (Conditioner σ)} {t : Traced σ}

/-- How many digests each source of a generator has. -/
def shape (g : SlowGenerator σ) : List Nat :=
  g.conditioners.map fun c => c.digests.length

theorem digested (g : SlowGenerator σ) : ∀ k ∈ g.shape, 0 < k := by
  intro k member
  obtain ⟨c, -, rfl⟩ := List.mem_map.mp member
  exact List.length_pos_iff.mpr c.digests_ne

/-- What a round gives has the shape of its configuration. -/
theorem shape_given (size : Nat) (cs : List (Conditioner σ)) (t : Traced σ) :
    (given size cs t).shape = cs.map fun c => c.digests.length := by
  induction cs generalizing t with
  | nil => rfl
  | cons c cs ih =>
      have rest := ih (c.source.fill size t).2
      simp only [given, Round.shape, turns, List.map_cons] at rest ⊢
      rw [rest, Turn.conditioned, List.length_map]

/-- Without a fault all ingredients have the size of a block. -/
theorem ingredients_ofSize (faultless : ∀ u ∈ turns size cs t, u.fault size = none) :
    Conditioned.OfSize size (given size cs t).ingredients := by
  intro a member
  obtain ⟨c, among, own⟩ := List.mem_flatMap.mp member
  rcases List.mem_cons.mp own with rfl | digest
  · obtain ⟨u, -, rfl⟩ := List.mem_map.mp among
    rw [Turn.conditioned, Turn.raw, Delivery.length_writtenTo, Bytes.length_zeros]
  · exact digests_ofSize faultless _ (List.mem_map_of_mem among) a digest

/-- A round without a fault whose ingredients never cancel out is sound. -/
theorem Sound.of_independent {g : SlowGenerator σ}
    (faultless : ∀ u ∈ turns g.size g.conditioners t, u.fault g.size = none)
    (independent : Conditioned.Independent g.size (given g.size g.conditioners t).ingredients) :
    Sound g.size g.conditioners t where
  faultless := faultless
  distinct := by
    apply Round.nodup_witnesses (ingredients_ofSize faultless) _ independent
    rw [shape_given]
    exact g.digested

/-- Which ingredients the witnesses of a round without a fault combine is up to the
configuration, and no two of them combine the same ones.  If no ingredients cancel
out, then the witnesses are distinct and the round gives its block. -/
theorem round_of_independent {g : SlowGenerator σ}
    (faultless : ∀ u ∈ turns g.size g.conditioners t, u.fault g.size = none) :
    (Round.parts g.shape).Nodup ∧
    (∀ p ∈ Round.parts g.shape, p.Nonempty ∧
      p ⊆ Finset.range (given g.size g.conditioners t).ingredients.length) ∧
    (given g.size g.conditioners t).witnesses g.size =
      (Round.parts g.shape).map
        (Conditioned.combineAt g.size (given g.size g.conditioners t).ingredients) ∧
    (Conditioned.Independent g.size (given g.size g.conditioners t).ingredients →
      ((given g.size g.conditioners t).witnesses g.size).Nodup ∧
      (round g.size g.conditioners).toAction t =
        (.ok (block g.size g.conditioners t), asked g.size g.conditioners t)) := by
  have shape : (given g.size g.conditioners t).shape = g.shape := shape_given _ _ _
  refine ⟨Round.nodup_parts g.digested, ?_, ?_, ?_⟩
  · intro p member
    rw [Round.length_ingredients, shape]
    exact Round.parts_within g.digested member
  · rw [Round.witnesses_eq_map_parts (ingredients_ofSize faultless), shape]
  · intro independent
    have sound := Sound.of_independent faultless independent
    exact ⟨sound.distinct, round_of_sound g.conditioner_size sound⟩

/-! ### Two digests for one source, one for the other -/

/-- A digest of one byte, a multiple of the first byte. -/
def multiple (factor : UInt8) : Digest where
  name := "multiple"
  bits := 8
  hash data := [data.headD 0 * factor]

/-- A source that gives the same byte all the time, with two digests. -/
def doubly : Conditioner Unit where
  source := (steady "doubly" 1).source
  digests := [multiple 2, multiple 4]
  size := 1
  size_pos := Nat.one_pos
  digests_ne := List.cons_ne_nil _ _
  digest_size := by simp [multiple, Digest.size]

/-- A source that gives the same byte all the time, with one digest. -/
def singly : Conditioner Unit where
  source := (steady "singly" 8).source
  digests := [multiple 2]
  size := 1
  size_pos := Nat.one_pos
  digests_ne := List.cons_ne_nil _ _
  digest_size := by simp [multiple, Digest.size]

/-- A generator of two sources that have different numbers of digests. -/
def lopsided : SlowGenerator Unit where
  conditioners := [doubly, singly]
  size := 1
  size_pos := Nat.one_pos
  conditioner_size := by simp [doubly, singly]

/-- Five ingredients, each with a bit of its own, make seven witnesses. -/
theorem round_of_independent_lopsided :
    make [doubly, singly] = .ok lopsided ∧
    (∀ u ∈ turns lopsided.size lopsided.conditioners ⟨(), []⟩, u.fault lopsided.size = none) ∧
    Conditioned.Independent lopsided.size
      (given lopsided.size lopsided.conditioners ⟨(), []⟩).ingredients ∧
    (given lopsided.size lopsided.conditioners ⟨(), []⟩).witnesses lopsided.size =
      [[1], [2], [4], [6], [8], [16], [22]] ∧
    (Round.parts lopsided.shape).Nodup ∧
    (round lopsided.size lopsided.conditioners).toAction ⟨(), []⟩ = (.ok [22], ⟨(), []⟩) := by
  have faultless : ∀ u ∈ turns lopsided.size lopsided.conditioners ⟨(), []⟩,
      u.fault lopsided.size = none := by
    intro u member
    simp only [lopsided, turns, List.mem_cons, List.not_mem_nil, or_false] at member
    rcases member with rfl | rfl <;> rfl
  have independent : Conditioned.Independent lopsided.size
      (given lopsided.size lopsided.conditioners ⟨(), []⟩).ingredients := by
    decide
  obtain ⟨apart, -, -, passes⟩ := round_of_independent faultless
  obtain ⟨-, ran⟩ := passes independent
  exact ⟨rfl, faultless, independent, rfl, apart, ran⟩

end SlowGenerator

end EntropySeal
