import EntropySeal.Proofs.Generator.Combiner
import Mathlib.Data.Set.Function

/-!
# No source masks another

The block of a round is the exclusive or of one share for each source
(`block_eq_combine`), and the shares of the other sources only add a fixed mask
to the share of one of them (`combine_set`).  So two requests in which all other
sources drew the same give blocks that differ exactly by what that one source
contributed differently, and with the others fixed its share determines the
block and is determined by it.
-/

namespace EntropySeal

namespace Bytes

theorem xor_comm (a b : Bytes) : xor a b = xor b a :=
  List.zipWith_comm_of_comm UInt8.xor_comm

theorem take_xor (n : Nat) (a b : Bytes) : (xor a b).take n = xor (a.take n) (b.take n) :=
  List.take_zipWith

/-- Two arrays under one mask differ by what the arrays differ by. -/
theorem xor_xor_xor_cancel {a b mask : Bytes} (covered : a.length ≤ mask.length) :
    xor (xor a mask) (xor b mask) = xor a b := by
  rw [xor_comm b mask, ← xor_assoc, xor_xor_cancel_right covered]

end Bytes

namespace Conditioned

variable {size : Nat} {arrays : List Bytes} {k : Nat}

theorem OfSize.eraseIdx (sizes : OfSize size arrays) (k : Nat) :
    OfSize size (arrays.eraseIdx k) :=
  fun a member => sizes a (List.mem_of_mem_eraseIdx member)

/-- One array put among others is added to the combination of the others. -/
theorem combine_set (sizes : OfSize size arrays) (within : k < arrays.length) {x : Bytes}
    (length : x.length = size) :
    combine size (arrays.set k x) = Bytes.xor x (combine size (arrays.eraseIdx k)) := by
  induction arrays generalizing k with
  | nil => exact absurd within (Nat.not_lt_zero k)
  | cons a as ih =>
      have first : a.length = size := sizes a (by simp)
      have later : OfSize size as := fun b member => sizes b (by simp [member])
      cases k with
      | zero => exact combine_cons length later
      | succ k =>
          have placed : OfSize size (as.set k x) := by
            intro b member
            rcases List.mem_or_eq_of_mem_set member with among | rfl
            · exact later b among
            · exact length
          calc
            combine size ((a :: as).set (k + 1) x)
              = Bytes.xor a (combine size (as.set k x)) := combine_cons first placed
            _ = Bytes.xor a (Bytes.xor x (combine size (as.eraseIdx k))) := by
              rw [ih later (Nat.lt_of_succ_lt_succ within)]
            _ = Bytes.xor x (Bytes.xor a (combine size (as.eraseIdx k))) := by
              rw [← Bytes.xor_assoc, Bytes.xor_comm a x, Bytes.xor_assoc]
            _ = Bytes.xor x (combine size ((a :: as).eraseIdx (k + 1))) := by
              rw [List.eraseIdx_cons_succ, combine_cons first (later.eraseIdx k)]

/-- With the other arrays fixed, one array determines the combination and is
determined by it. -/
theorem bijOn_combine_set (sizes : OfSize size arrays) (within : k < arrays.length) :
    Set.BijOn (fun x => combine size (arrays.set k x)) {x | x.length = size}
      {x | x.length = size} := by
  have maskLength : (combine size (arrays.eraseIdx k)).length = size :=
    length_combine (sizes.eraseIdx k)
  have covered {x : Bytes} (length : x.length = size) :
      x.length ≤ (combine size (arrays.eraseIdx k)).length := by
    rw [length, maskLength]
  have maps : Set.MapsTo (fun x => combine size (arrays.set k x)) {x | x.length = size}
      {x | x.length = size} := by
    intro x length
    change (combine size (arrays.set k x)).length = size
    rw [combine_set sizes within length, Bytes.length_xor, length, maskLength, Nat.min_self]
  -- Adding the mask of the others twice changes nothing, so the map is its own inverse.
  have undoes : Set.LeftInvOn (fun x => combine size (arrays.set k x))
      (fun x => combine size (arrays.set k x)) {x | x.length = size} := by
    intro x length
    have mapped : (combine size (arrays.set k x)).length = size := maps length
    change combine size (arrays.set k (combine size (arrays.set k x))) = x
    rw [combine_set sizes within mapped, combine_set sizes within length]
    exact Bytes.xor_xor_cancel_right (covered length)
  exact Set.InvOn.bijOn ⟨undoes, undoes⟩ maps maps

end Conditioned

namespace SlowGenerator

variable {σ : Type} {size : Nat} {cs : List (Conditioner σ)} {t : Traced σ}

/-! ## Shares -/

/-- The raw bytes that the sources give in a round, in order. -/
def raws (size : Nat) (cs : List (Conditioner σ)) (t : Traced σ) : List Bytes :=
  (turns size cs t).map (Turn.raw size)

/-- What each source contributes to the block of a round, in order: the
exclusive or of its digests. -/
def shares (size : Nat) (cs : List (Conditioner σ)) (t : Traced σ) : List Bytes :=
  (given size cs t).map (Conditioned.output size)

/-- The block of a round in which source number `k` contributes `x`, and the
others what they contribute here. -/
def blockWith (shares : List Bytes) (size k : Nat) (x : Bytes) : Bytes :=
  Conditioned.combine size (shares.set k x)

/-- The share of a source depends on its raw bytes only. -/
theorem shares_eq (size : Nat) (cs : List (Conditioner σ)) (t : Traced σ) :
    shares size cs t = List.zipWith
      (fun c raw => Conditioned.combine size (c.digests.map fun d => d.hash raw))
      cs (raws size cs t) := by
  induction cs generalizing t with
  | nil => rfl
  | cons c cs ih => exact congrArg (List.cons _) (ih (c.source.fill size t).2)

@[simp]
theorem length_turns (size : Nat) (cs : List (Conditioner σ)) (t : Traced σ) :
    (turns size cs t).length = cs.length := by
  induction cs generalizing t with
  | nil => rfl
  | cons c cs ih => exact congrArg Nat.succ (ih (c.source.fill size t).2)

@[simp]
theorem length_shares (size : Nat) (cs : List (Conditioner σ)) (t : Traced σ) :
    (shares size cs t).length = cs.length := by
  simp [shares, given]

/-- Without a fault all shares have the size of a block. -/
theorem shares_ofSize (faultless : ∀ u ∈ turns size cs t, u.fault size = none) :
    Conditioned.OfSize size (shares size cs t) := by
  intro a member
  obtain ⟨c, among, rfl⟩ := List.mem_map.mp member
  exact Conditioned.length_combine (digests_ofSize faultless _ (List.mem_map_of_mem among))

/-- The block of a round without a fault combines the shares. -/
theorem block_eq_combine (faultless : ∀ u ∈ turns size cs t, u.fault size = none) :
    block size cs t = Conditioned.combine size (shares size cs t) :=
  (output_given faultless).symm

/-- Where all sources but one give the same raw bytes, only the share of that one
can differ. -/
theorem shares_eq_set {t₁ t₂ : Traced σ} {k : Nat} {x : Bytes}
    (alike : ∀ i, i ≠ k → (raws size cs t₁)[i]? = (raws size cs t₂)[i]?)
    (own : (shares size cs t₂)[k]? = some x) :
    shares size cs t₂ = (shares size cs t₁).set k x := by
  have within : k < (shares size cs t₁).length := by
    obtain ⟨within, -⟩ := List.getElem?_eq_some_iff.mp own
    rwa [length_shares] at within ⊢
  apply List.ext_getElem?
  intro i
  by_cases other : i = k
  · rw [other, List.getElem?_set_self within, own]
  · rw [List.getElem?_set_ne (Ne.symm other), shares_eq, shares_eq, List.getElem?_zipWith,
      List.getElem?_zipWith, alike i other]

/-- Two rounds without a fault in which all sources but number `k` give the same
raw bytes have the same shares, but for that of source `k`. -/
theorem exists_shares {t₁ t₂ : Traced σ} {k : Nat} (within : k < cs.length)
    (faultless₁ : ∀ u ∈ turns size cs t₁, u.fault size = none)
    (faultless₂ : ∀ u ∈ turns size cs t₂, u.fault size = none)
    (alike : ∀ i, i ≠ k → (raws size cs t₁)[i]? = (raws size cs t₂)[i]?) :
    ∃ others x₁ x₂, Conditioned.OfSize size others ∧ k < others.length ∧
      x₁.length = size ∧ x₂.length = size ∧
      shares size cs t₁ = others.set k x₁ ∧ shares size cs t₂ = others.set k x₂ := by
  have within₁ : k < (shares size cs t₁).length := by rwa [length_shares]
  have within₂ : k < (shares size cs t₂).length := by rwa [length_shares]
  have own₁ := List.getElem?_eq_getElem within₁
  have own₂ := List.getElem?_eq_getElem within₂
  have ofSize₁ := shares_ofSize faultless₁
  have ofSize₂ := shares_ofSize faultless₂
  exact ⟨shares size cs t₁, _, _, ofSize₁, within₁, ofSize₁ _ (List.mem_of_getElem? own₁),
    ofSize₂ _ (List.mem_of_getElem? own₂), shares_eq_set (fun _ _ => rfl) own₁,
    shares_eq_set alike own₂⟩

section BlockWith

variable {others : List Bytes} {k : Nat}

/-- With the other shares fixed, one share and the block determine each other. -/
theorem bijOn_blockWith (sizes : Conditioned.OfSize size others) (within : k < others.length) :
    Set.BijOn (blockWith others size k) {x | x.length = size} {x | x.length = size} :=
  Conditioned.bijOn_combine_set sizes within

/-- Blocks that differ in one share differ by what the shares differ by. -/
theorem xor_blockWith (sizes : Conditioned.OfSize size others) (within : k < others.length)
    {x₁ x₂ : Bytes} (length₁ : x₁.length = size) (length₂ : x₂.length = size) :
    Bytes.xor (blockWith others size k x₁) (blockWith others size k x₂) = Bytes.xor x₁ x₂ := by
  rw [blockWith, blockWith, Conditioned.combine_set sizes within length₁,
    Conditioned.combine_set sizes within length₂, Bytes.xor_xor_xor_cancel]
  rw [length₁, Conditioned.length_combine (sizes.eraseIdx k)]

/-- Blocks that are not cut are equal if and only if the one share is. -/
theorem take_blockWith_eq_iff (sizes : Conditioned.OfSize size others)
    (within : k < others.length) {x₁ x₂ : Bytes} (length₁ : x₁.length = size)
    (length₂ : x₂.length = size) {n : Nat} (enough : size ≤ n) :
    (blockWith others size k x₁).take n = (blockWith others size k x₂).take n ↔ x₁ = x₂ := by
  have bijective := bijOn_blockWith sizes within
  have uncut {x : Bytes} (length : x.length = size) :
      (blockWith others size k x).take n = blockWith others size k x :=
    List.take_of_length_le (Nat.le_trans (Nat.le_of_eq (bijective.mapsTo length)) enough)
  rw [uncut length₁, uncut length₂]
  exact bijective.injOn.eq_iff length₁ length₂

end BlockWith

/-! ## Pieces -/

/-- The bytes of a request that come from round `r`: a block, or the part of it
that was still asked for. -/
def piece (size r : Nat) (bytes : Bytes) : Bytes :=
  (bytes.drop (r * size)).take size

theorem drop_flatten {blocks : List Bytes} (sizes : Conditioned.OfSize size blocks) (r : Nat) :
    blocks.flatten.drop (r * size) = (blocks.drop r).flatten := by
  induction r generalizing blocks with
  | zero => rw [Nat.zero_mul, List.drop_zero, List.drop_zero]
  | succ r ih =>
      cases blocks with
      | nil => simp
      | cons b bs =>
          have first : b.length = size := sizes b (by simp)
          have later : Conditioned.OfSize size bs := fun c member => sizes c (by simp [member])
          rw [List.flatten_cons, Nat.succ_mul, Nat.add_comm, ← List.drop_drop,
            List.drop_left' first, ih later, List.drop_succ_cons]

/-- What is cut from the blocks of a request comes from one block. -/
theorem piece_flatten {blocks : List Bytes} (sizes : Conditioned.OfSize size blocks) {r n : Nat}
    {b : Bytes} (there : blocks[r]? = some b) :
    piece size r (blocks.flatten.take n) = b.take (n - r * size) := by
  obtain ⟨within, rfl⟩ := List.getElem?_eq_some_iff.mp there
  have length : blocks[r].length = size := sizes _ (List.getElem_mem within)
  rw [piece, List.drop_take, drop_flatten sizes, List.drop_eq_getElem_cons within,
    List.flatten_cons, List.take_take, List.take_append_of_le_length]
  · rw [← List.take_take, ← length]
    exact List.take_of_length_le (List.length_take_le' _ _)
  · rw [length]
    exact Nat.min_le_left _ _

/-- A request that was met had sound rounds only, and its pieces come from their
blocks. -/
theorem piece_of_met {g : SlowGenerator σ} {n r : Nat}
    (met : (g.fill n t).1.1.failure = none) (less : r < roundCount g.size n) :
    Sound g.size g.conditioners (afterRounds g.size g.conditioners r t) ∧
      piece g.size r (g.fill n t).1.1.bytes =
        (block g.size g.conditioners (afterRounds g.size g.conditioners r t)).take
          (n - r * g.size) := by
  have pos := pos_of_lt_roundCount g.size_pos less
  have live : g.disposed = false := by
    apply Bool.eq_false_iff.mpr
    intro disposed
    rw [fill, if_neg (Nat.ne_of_gt pos), letIn, if_pos disposed] at met
    cases met
  have filled := run_fill live pos t
  rcases rounds_cases g.conditioner_size (roundCount g.size n) t with
    ⟨sounds, ran⟩ | ⟨q, _, _, e, t', _, ran⟩
  · rw [ran] at filled
    rw [filled]
    constructor
    · exact sounds r less
    · apply piece_flatten
      · intro b member
        obtain ⟨q, within, rfl⟩ := List.mem_map.mp member
        exact length_block (sounds q (List.mem_range.mp within)).faultless
      · rw [List.getElem?_map, List.getElem?_range less]
        rfl
  · rw [ran] at filled
    rw [filled] at met
    cases met

/-! ## Two requests -/

/-- Two requests are met in which all sources but number `k` draw the same in
every round.  Then their pieces differ by the exclusive or of the two shares of
source `k`, cut alike where the last round is cut; a full block differs if and
only if the shares do; and with the other shares fixed, the share of source `k`
and the block determine each other. -/
theorem xor_pieces_eq_xor_shares {g : SlowGenerator σ} {n k : Nat} {t₁ t₂ : Traced σ}
    (within : k < g.conditioners.length)
    (met₁ : (g.fill n t₁).1.1.failure = none) (met₂ : (g.fill n t₂).1.1.failure = none)
    (alike : ∀ r < roundCount g.size n, ∀ i, i ≠ k →
      (raws g.size g.conditioners (afterRounds g.size g.conditioners r t₁))[i]? =
        (raws g.size g.conditioners (afterRounds g.size g.conditioners r t₂))[i]?) :
    ∀ r < roundCount g.size n, ∃ others x₁ x₂,
      x₁.length = g.size ∧ x₂.length = g.size ∧
      shares g.size g.conditioners (afterRounds g.size g.conditioners r t₁) =
        others.set k x₁ ∧
      shares g.size g.conditioners (afterRounds g.size g.conditioners r t₂) =
        others.set k x₂ ∧
      piece g.size r (g.fill n t₁).1.1.bytes =
        (blockWith others g.size k x₁).take (n - r * g.size) ∧
      piece g.size r (g.fill n t₂).1.1.bytes =
        (blockWith others g.size k x₂).take (n - r * g.size) ∧
      Bytes.xor (piece g.size r (g.fill n t₁).1.1.bytes)
        (piece g.size r (g.fill n t₂).1.1.bytes) = (Bytes.xor x₁ x₂).take (n - r * g.size) ∧
      ((r + 1) * g.size ≤ n →
        (piece g.size r (g.fill n t₁).1.1.bytes ≠ piece g.size r (g.fill n t₂).1.1.bytes ↔
          x₁ ≠ x₂)) ∧
      Set.BijOn (blockWith others g.size k) {x | x.length = g.size} {x | x.length = g.size} := by
  intro r less
  obtain ⟨⟨faultless₁, -⟩, piece₁⟩ := piece_of_met met₁ less
  obtain ⟨⟨faultless₂, -⟩, piece₂⟩ := piece_of_met met₂ less
  obtain ⟨others, x₁, x₂, sizes, inside, length₁, length₂, shares₁, shares₂⟩ :=
    exists_shares within faultless₁ faultless₂ (alike r less)
  have block₁ : piece g.size r (g.fill n t₁).1.1.bytes =
      (blockWith others g.size k x₁).take (n - r * g.size) := by
    rw [piece₁, block_eq_combine faultless₁, shares₁, blockWith]
  have block₂ : piece g.size r (g.fill n t₂).1.1.bytes =
      (blockWith others g.size k x₂).take (n - r * g.size) := by
    rw [piece₂, block_eq_combine faultless₂, shares₂, blockWith]
  refine ⟨others, x₁, x₂, length₁, length₂, shares₁, shares₂, block₁, block₂, ?_, ?_,
    bijOn_blockWith sizes inside⟩
  · rw [block₁, block₂, ← Bytes.take_xor, xor_blockWith sizes inside length₁ length₂]
  · intro whole
    have enough : g.size ≤ n - r * g.size := by
      rw [Nat.succ_mul] at whole
      omega
    rw [block₁, block₂]
    exact not_congr (take_blockWith_eq_iff sizes inside length₁ length₂ enough)

/-! ### A steady source beside one that the world sets -/

/-- A digest of two bytes, each byte of the input raised by one. -/
def raised : Digest where
  name := "raised"
  bits := 16
  hash data := data.map (· + 1)

/-- A source of two bytes at a time, which depend on the world. -/
def dial (name : String) (setting : UInt8 → UInt8) : Conditioner UInt8 where
  source := {
    info := ⟨name, "one byte over and over", .deterministic⟩
    fill := fun n t => (⟨List.replicate n (setting t.world), none⟩, t) }
  digests := [raised]
  size := 2
  size_pos := Nat.two_pos
  digests_ne := by simp
  digest_size := by simp [raised, Digest.size]

/-- A generator of a steady source and one that the world sets. -/
def dialed : SlowGenerator UInt8 where
  conditioners := [dial "steady" fun _ => 1, dial "set" id]
  size := 2
  size_pos := Nat.two_pos
  conditioner_size := by simp [dial]

/-- Three bytes take two rounds, the second one cut.  In both rounds the source
that the world sets makes all the difference. -/
theorem xor_pieces_dialed :
    1 < dialed.conditioners.length ∧
    (dialed.fill 3 ⟨16, []⟩).1.1 = ⟨[19, 19, 19], none⟩ ∧
    (dialed.fill 3 ⟨32, []⟩).1.1 = ⟨[35, 35, 35], none⟩ ∧
    ∃ others x₁ x₂,
      shares 2 dialed.conditioners ⟨16, []⟩ = List.set others 1 x₁ ∧
      shares 2 dialed.conditioners ⟨32, []⟩ = List.set others 1 x₂ ∧
      Bytes.xor [19] [35] = (Bytes.xor x₁ x₂).take 1 := by
  have alike : ∀ r < roundCount dialed.size 3, ∀ i, i ≠ 1 →
      (raws dialed.size dialed.conditioners
        (afterRounds dialed.size dialed.conditioners r ⟨16, []⟩))[i]? =
      (raws dialed.size dialed.conditioners
        (afterRounds dialed.size dialed.conditioners r ⟨32, []⟩))[i]? := by
    intro r less i other
    have rounds : r = 0 ∨ r = 1 := by
      have two : roundCount dialed.size 3 = 2 := rfl
      omega
    rcases rounds with rfl | rfl <;>
      match i, other with
      | 0, _ => rfl
      | 1, other => exact absurd rfl other
      | i + 2, _ => rfl
  have met₁ : (dialed.fill 3 ⟨16, []⟩).1.1.failure = none := rfl
  have met₂ : (dialed.fill 3 ⟨32, []⟩).1.1.failure = none := rfl
  obtain ⟨others, x₁, x₂, -, -, shares₁, shares₂, -, -, differ, -, -⟩ :=
    xor_pieces_eq_xor_shares (by decide) met₁ met₂ alike 1 (by decide)
  exact ⟨by decide, rfl, rfl, others, x₁, x₂, shares₁, shares₂, differ⟩

end SlowGenerator

end EntropySeal
