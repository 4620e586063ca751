import EntropySeal.Proofs.Generator.Stretch
import Mathlib.Data.List.Induction
import Mathlib.Data.List.Nodup

/-!
# Blocks that are never made twice

A stretching generator counts its blocks and the renewals of its seed.  The counts go
on whatever is demanded of it, whether blocks or the mixing in of material, and a
renewal falls on every tenth value of the first one (`Counts`).

The count is hashed into each block.  So as long as it has not come round, no two
blocks of a run are made from one input, and two equal blocks give away a collision of
the digest (`blocks_never_repeat`).
-/

namespace EntropySeal.Stretcher

variable {digest : Digest} {g : Stretcher} {b : Nat}

/-! ## Counts -/

/-- The next block is made, and the seed is not renewed after it. -/
def makeBlock (g : Stretcher) : Stretcher :=
  { g with
    block := g.digest.hash g.blockInput
    blockCounter := g.blockCounter + 1 }

theorem generate_eq (g : Stretcher) :
    g.generate =
      if g.makeBlock.blockCounter % cycleLength = 0 then g.makeBlock.cycleSeed
      else g.makeBlock :=
  rfl

/-- The counters of a generator that has made `b` blocks. -/
structure Counts (g : Stretcher) (b : Nat) : Prop where
  blockCounter : g.blockCounter.toNat = b + 1
  seedCounter : g.seedCounter.toNat = 1 + (b + 1) / 10

theorem counts_new (digest : Digest) : Counts (new digest) 0 where
  blockCounter := rfl
  seedCounter := rfl

theorem Counts.addSeedMaterial (counts : Counts g b) (material : Bytes) :
    Counts (g.addSeedMaterial material) b where
  blockCounter := counts.blockCounter
  seedCounter := counts.seedCounter

theorem Counts.makeBlock (counts : Counts g b) (few : b + 2 < UInt64.size) :
    g.makeBlock.blockCounter.toNat = b + 2 := by
  change (g.blockCounter + 1).toNat = b + 2
  rw [UInt64.toNat_add, counts.blockCounter, UInt64.toNat_one, Nat.mod_eq_of_lt few]

/-- The seed is renewed after the blocks of number nine, nineteen, and so on. -/
theorem Counts.generate_eq (counts : Counts g b) (few : b + 2 < UInt64.size) :
    g.generate = if (b + 1) % 10 = 9 then g.makeBlock.cycleSeed else g.makeBlock := by
  have turn : g.makeBlock.blockCounter % cycleLength = 0 ↔ (b + 1) % 10 = 9 := by
    rw [← UInt64.toNat_inj, UInt64.toNat_mod, counts.makeBlock few]
    change (b + 2) % 10 = 0 ↔ _
    omega
  rw [Stretcher.generate_eq]
  by_cases renewed : (b + 1) % 10 = 9
  · rw [if_pos renewed, if_pos (turn.mpr renewed)]
  · rw [if_neg renewed, if_neg fun due => renewed (turn.mp due)]

theorem Counts.generate (counts : Counts g b) (few : b + 2 < UInt64.size) :
    Counts g.generate (b + 1) := by
  rw [counts.generate_eq few]
  by_cases renewed : (b + 1) % 10 = 9
  · rw [if_pos renewed]
    exact {
      blockCounter := counts.makeBlock few
      seedCounter := by
        have room : 1 + (b + 1) / 10 + 1 < UInt64.size := by omega
        change (g.seedCounter + 1).toNat = _
        rw [UInt64.toNat_add, counts.seedCounter, UInt64.toNat_one, Nat.mod_eq_of_lt room]
        omega }
  · rw [if_neg renewed]
    exact {
      blockCounter := counts.makeBlock few
      seedCounter := by
        change g.seedCounter.toNat = _
        rw [counts.seedCounter]
        omega }

theorem Counts.after (counts : Counts g b) (k : Nat) (few : b + k + 1 < UInt64.size) :
    Counts (g.after k) (b + k) := by
  induction k generalizing g b with
  | zero => exact counts
  | succ k ih =>
      have next := ih (counts.generate (by omega)) (by omega)
      rwa [Nat.add_assoc, Nat.add_comm 1] at next

/-! ## Inputs -/

/-- What is hashed for a block begins with the counter. -/
theorem blockInput_ne {h : Stretcher} (counters : g.blockCounter.toNat ≠ h.blockCounter.toNat) :
    g.blockInput ≠ h.blockInput := by
  intro same
  apply counters
  unfold blockInput at same
  rw [List.append_assoc, List.append_assoc] at same
  have numbers := congrArg Bytes.ofLe (List.append_inj_left same (by simp))
  rw [Bytes.ofLe_toLe, Bytes.ofLe_toLe] at numbers
  have size : Nat.pow 256 8 = UInt64.size := rfl
  rwa [size, Nat.mod_eq_of_lt g.blockCounter.toNat_lt, Nat.mod_eq_of_lt h.blockCounter.toNat_lt]
    at numbers

/-! ## Runs -/

/-- What can be demanded of a stretching generator. -/
inductive Demand where
  /-- Material is mixed into the seed. -/
  | mix (material : Bytes)
  /-- So many bytes are requested. -/
  | draw (n : Nat)

/-- The generators that the next `k` blocks are made by. -/
def makers (g : Stretcher) (k : Nat) : List Stretcher :=
  (List.range k).map g.after

@[simp]
theorem length_makers (g : Stretcher) (k : Nat) : (g.makers k).length = k := by
  simp [makers]

/-- `Course digest demands makers g`: a new generator met these demands, oldest first,
and became `g`.  Its blocks were made by `makers`, oldest first. -/
inductive Course (digest : Digest) : List Demand → List Stretcher → Stretcher → Prop where
  | fresh : Course digest [] [] (new digest)
  | mix {demands : List Demand} {makers : List Stretcher} {g : Stretcher} (material : Bytes) :
      Course digest demands makers g →
      Course digest (demands ++ [.mix material]) makers (g.addSeedMaterial material)
  | draw {demands : List Demand} {makers : List Stretcher} {g : Stretcher} {n : Nat}
      {taken : Stretched} :
      Course digest demands makers g → g.nextBytes n = .ok taken →
      Course digest (demands ++ [.draw n]) (makers ++ g.makers taken.blocks) taken.next

theorem map_block_makers (g : Stretcher) (k : Nat) :
    (g.makers k).map (fun maker => maker.generate.block) = g.blocksFrom k := by
  induction k generalizing g with
  | zero => rfl
  | succ k ih =>
      rw [blocksFrom, ← ih g.generate, makers, List.range_succ_eq_map, makers]
      simp [after, Function.comp_def]

/-- A request is served from the blocks of its makers, and leaves the generator that they
lead to. -/
theorem nextBytes_makers {n : Nat} {taken : Stretched} (honours : g.digest.Honours)
    (sizePos : 0 < g.digest.size) (drawn : g.nextBytes n = .ok taken) :
    taken.bytes = ((g.makers taken.blocks).map fun maker => maker.generate.block).flatten.take n ∧
      taken.next = g.after taken.blocks := by
  rw [nextBytes_eq honours sizePos] at drawn
  cases drawn
  rw [map_block_makers]
  exact ⟨rfl, rfl⟩

section Runs

variable {demands : List Demand} {makers : List Stretcher} (honours : digest.Honours)
  (sizePos : 0 < digest.size)

include honours sizePos

theorem Course.digest_eq (course : Course digest demands makers g) : g.digest = digest := by
  induction course with
  | fresh => rfl
  | mix _ _ ih => exact ih
  | draw _ drawn ih =>
      subst ih
      rw [(nextBytes_makers honours sizePos drawn).2, digest_after]

/-- Whatever is demanded of a new generator, it can be met. -/
theorem exists_course (demands : List Demand) : ∃ makers g, Course digest demands makers g := by
  induction demands using List.reverseRecOn with
  | nil => exact ⟨[], new digest, .fresh⟩
  | append_singleton before last ih =>
      obtain ⟨makers, g, course⟩ := ih
      cases last with
      | mix material => exact ⟨_, _, course.mix material⟩
      | draw n =>
          have same := course.digest_eq honours sizePos
          have drawn := nextBytes_eq (same ▸ honours) (same ▸ sizePos) n
          exact ⟨_, _, course.draw drawn⟩

end Runs

/-- The generator, and those that made its blocks, have made as many blocks as their
places say. -/
structure Numbered (digest : Digest) (makers : List Stretcher) (g : Stretcher) : Prop where
  counts : Counts g makers.length
  digest_eq : ∀ (i : Nat) (h : i < makers.length), makers[i].digest = digest
  made : ∀ (i : Nat) (h : i < makers.length), Counts makers[i] i

theorem Numbered.append {makers : List Stretcher} (numbered : Numbered digest makers g)
    (same : g.digest = digest) (k : Nat) (few : makers.length + k + 1 < UInt64.size) :
    Numbered digest (makers ++ g.makers k) (g.after k) where
  counts := by
    rw [List.length_append, length_makers]
    exact numbered.counts.after k few
  digest_eq i h := by
    rcases Nat.lt_or_ge i makers.length with before | later
    · rw [List.getElem_append_left before]
      exact numbered.digest_eq i before
    · rw [List.getElem_append_right later]
      simp [Stretcher.makers, same]
  made i h := by
    rcases Nat.lt_or_ge i makers.length with before | later
    · rw [List.getElem_append_left before]
      exact numbered.made i before
    · rw [List.length_append, length_makers] at h
      have counts := numbered.counts.after (i - makers.length) (by omega)
      rw [Nat.add_sub_cancel' later] at counts
      rw [List.getElem_append_right later]
      simpa [Stretcher.makers] using counts

theorem Course.numbered {demands : List Demand} {makers : List Stretcher}
    (honours : digest.Honours) (sizePos : 0 < digest.size)
    (course : Course digest demands makers g) (few : makers.length + 1 < UInt64.size) :
    Numbered digest makers g := by
  induction course with
  | fresh =>
      exact {
        counts := counts_new digest
        digest_eq := fun i h => absurd h (Nat.not_lt_zero i)
        made := fun i h => absurd h (Nat.not_lt_zero i) }
  | mix material _ ih =>
      have numbered := ih few
      exact { numbered with counts := numbered.counts.addSeedMaterial material }
  | draw course drawn ih =>
      rw [List.length_append, length_makers] at few
      have numbered := ih (by omega)
      have same := course.digest_eq honours sizePos
      rw [(nextBytes_makers (same ▸ honours) (same ▸ sizePos) drawn).2]
      exact numbered.append same _ few

/-! ## Blocks apart -/

/-- The blocks of a run, which these generators made, are counted; the seed is renewed
after every tenth of them, from the ninth on; and no two are made from one input. -/
structure NeverRepeats (digest : Digest) (makers : List Stretcher) (g : Stretcher) : Prop where
  counts : Counts g makers.length
  /-- The block in place `i` has the number `i + 1`. -/
  renewed : ∀ (i : Nat) (h : i < makers.length), makers[i].generate =
    if (i + 1) % 10 = 9 then makers[i].makeBlock.cycleSeed else makers[i].makeBlock
  inputs : (makers.map blockInput).Nodup
  /-- Equal blocks are made from two inputs with one digest. -/
  collision : ∀ (i j : Nat) (hi : i < makers.length) (hj : j < makers.length), i ≠ j →
    makers[i].generate.block = makers[j].generate.block →
    makers[i].blockInput ≠ makers[j].blockInput ∧
    digest.hash makers[i].blockInput = digest.hash makers[j].blockInput

theorem Numbered.blockInput_ne {makers : List Stretcher} (numbered : Numbered digest makers g)
    {i j : Nat} (hi : i < makers.length) (hj : j < makers.length) (apart : i ≠ j) :
    makers[i].blockInput ≠ makers[j].blockInput := by
  apply Stretcher.blockInput_ne
  rw [(numbered.made i hi).blockCounter, (numbered.made j hj).blockCounter]
  omega

theorem Numbered.neverRepeats {makers : List Stretcher} (numbered : Numbered digest makers g)
    (few : makers.length + 1 < UInt64.size) : NeverRepeats digest makers g where
  counts := numbered.counts
  renewed i h := (numbered.made i h).generate_eq (by omega)
  inputs := by
    apply List.pairwise_iff_getElem.mpr
    intro i j hi hj before
    rw [List.length_map] at hi hj
    rw [List.getElem_map, List.getElem_map]
    exact numbered.blockInput_ne hi hj (Nat.ne_of_lt before)
  collision i j hi hj apart equal := by
    rw [block_generate, block_generate, numbered.digest_eq i hi, numbered.digest_eq j hj] at equal
    exact ⟨numbered.blockInput_ne hi hj apart, equal⟩

/-- A new generator can meet whatever is demanded of it, and the bytes of each request are
those of the blocks that are counted for it.  Before the count comes round, `b` blocks have
made the counters `b + 1` and `1 + (b + 1) / 10`, the seed was renewed after blocks nine,
nineteen and so on, no two blocks were made from one input, and two equal blocks give away
a collision of the digest. -/
theorem blocks_never_repeat (honours : digest.Honours) (sizePos : 0 < digest.size) :
    (∀ demands, ∃ makers g, Course digest demands makers g) ∧
    ∀ demands makers g, Course digest demands makers g →
      (∀ n taken, g.nextBytes n = .ok taken → taken.bytes =
        ((g.makers taken.blocks).map fun maker => maker.generate.block).flatten.take n) ∧
      (makers.length < UInt64.size - 1 → NeverRepeats digest makers g) := by
  constructor
  · exact exists_course honours sizePos
  · intro demands makers g course
    constructor
    · intro n taken drawn
      have same := course.digest_eq honours sizePos
      exact (nextBytes_makers (same ▸ honours) (same ▸ sizePos) drawn).1
    · intro few
      have below : makers.length + 1 < UInt64.size := by omega
      exact (course.numbered honours sizePos below).neverRepeats below

/-! ### A digest that always collides -/

/-- Every byte string has the digest zero. -/
def flat : Digest :=
  ⟨"flat", 8, fun _ => [0]⟩

theorem honours_flat : flat.Honours :=
  fun _ => rfl

/-- Of the twelve blocks of this run, no two are made from one input.  The first and the
last are equal all the same, and collide. -/
theorem blocks_never_repeat_flat : ∃ makers g,
    Course flat [.mix [1, 2], .draw 9, .mix [3], .draw 3] makers g ∧
    g.blockCounter.toNat = 13 ∧ g.seedCounter.toNat = 2 ∧
    (makers.map blockInput).Nodup ∧
    ∃ (first : 0 < makers.length) (last : 11 < makers.length),
      makers[0].blockInput ≠ makers[11].blockInput ∧
      flat.hash makers[0].blockInput = flat.hash makers[11].blockInput := by
  have mixed : Course flat [.mix [1, 2]] [] ((new flat).addSeedMaterial [1, 2]) :=
    .mix [1, 2] .fresh
  have nine : Course flat [.mix [1, 2], .draw 9] _ _ :=
    .draw mixed (nextBytes_eq honours_flat (by decide) 9)
  have again : Course flat [.mix [1, 2], .draw 9, .mix [3]] _ _ := .mix [3] nine
  have course : Course flat [.mix [1, 2], .draw 9, .mix [3], .draw 3] _ _ :=
    .draw again (nextBytes_eq honours_flat (by decide) 3)
  have never := ((blocks_never_repeat honours_flat (by decide)).2 _ _ _ course).2 (by decide)
  obtain ⟨apart, collide⟩ := never.collision 0 11 (by decide) (by decide) (by decide) (by
    rw [block_generate, block_generate]
    rfl)
  exact ⟨_, _, course, never.counts.blockCounter, never.counts.seedCounter, never.inputs,
    by decide, by decide, apart, collide⟩

end EntropySeal.Stretcher
