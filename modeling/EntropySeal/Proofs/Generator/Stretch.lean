import EntropySeal.Generator.Stretch

/-!
# What a stretching generator goes through

Two things happen to a stretching generator: material is mixed into its seed,
and a state block is generated.  `Performed` relates a generator to what becomes
of it under a history of such acts.

With a digest that never returns less than its announced size, a request is
served from state blocks in order, and from no more of them than blocks of just
that size would take (`exists_nextBytes`).  With a digest that honours its
announced size, it takes exactly so many (`nextBytes_eq`).
-/

namespace EntropySeal

/-- Every array the function returns has at least the announced size. -/
def Digest.Ample (d : Digest) : Prop :=
  ∀ data, d.size ≤ (d.hash data).length

theorem Digest.Honours.ample {d : Digest} (honours : d.Honours) : d.Ample :=
  fun data => Nat.le_of_eq (honours data).symm

namespace Stretcher

/-! ## Blocks -/

@[simp]
theorem digest_generate (g : Stretcher) : g.generate.digest = g.digest := by
  simp only [generate, cycleSeed]
  split <;> rfl

theorem block_generate (g : Stretcher) : g.generate.block = g.digest.hash g.blockInput := by
  simp only [generate, cycleSeed]
  split <;> rfl

theorem le_length_block_generate {g : Stretcher} (ample : g.digest.Ample) :
    g.digest.size ≤ g.generate.block.length := by
  rw [block_generate]
  exact ample _

/-- The generator after `k` more blocks. -/
def after (g : Stretcher) : Nat → Stretcher
  | 0 => g
  | k + 1 => g.generate.after k

/-- The next `k` blocks. -/
def blocksFrom (g : Stretcher) : Nat → List Bytes
  | 0 => []
  | k + 1 => g.generate.block :: g.generate.blocksFrom k

@[simp]
theorem digest_after (g : Stretcher) (k : Nat) : (g.after k).digest = g.digest := by
  induction k generalizing g with
  | zero => rfl
  | succ k ih => rw [after, ih, digest_generate]

theorem after_add (g : Stretcher) (j k : Nat) : g.after (j + k) = (g.after j).after k := by
  induction j generalizing g with
  | zero => rw [Nat.zero_add, after]
  | succ j ih => rw [Nat.succ_add, after, after, ih]

theorem blocksFrom_add (g : Stretcher) (j k : Nat) :
    g.blocksFrom (j + k) = g.blocksFrom j ++ (g.after j).blocksFrom k := by
  induction j generalizing g with
  | zero => rw [Nat.zero_add, blocksFrom, after, List.nil_append]
  | succ j ih => rw [Nat.succ_add, blocksFrom, blocksFrom, after, ih, List.cons_append]

/-- The least number of blocks of `size` bytes that hold `n` bytes. -/
def blocksFor (size n : Nat) : Nat :=
  (n + size - 1) / size

theorem blocksFor_eq_succ {size n : Nat} (sizePos : 0 < size) (pos : 0 < n) :
    blocksFor size n = blocksFor size (n - size) + 1 := by
  unfold blocksFor
  rcases Nat.lt_or_ge n size with short | long
  · have last : n - size + size - 1 = size - 1 := by omega
    have first : n + size - 1 = (n - 1) + size := by omega
    rw [last, first, Nat.add_div_right _ sizePos, Nat.div_eq_of_lt (by omega),
      Nat.div_eq_of_lt (by omega)]
  · have first : n + size - 1 = (n - size + size - 1) + size := by omega
    rw [first, Nat.add_div_right _ sizePos]

theorem blocksFor_mono (size : Nat) {m n : Nat} (le : m ≤ n) :
    blocksFor size m ≤ blocksFor size n :=
  Nat.div_le_div_right (by omega)

theorem blocksFor_le_iff {size n k : Nat} (sizePos : 0 < size) :
    blocksFor size n ≤ k ↔ n ≤ k * size := by
  rw [blocksFor, ← Nat.lt_succ_iff, Nat.div_lt_iff_lt_mul sizePos, Nat.succ_mul]
  omega

/-- The blocks that are taken hold what was asked for. -/
theorem le_blocksFor_mul {size : Nat} (sizePos : 0 < size) (n : Nat) :
    n ≤ blocksFor size n * size :=
  (blocksFor_le_iff sizePos).mp (Nat.le_refl _)

theorem blocksFor_mul {size : Nat} (sizePos : 0 < size) (k : Nat) :
    blocksFor size (size * k) = k := by
  rw [blocksFor, Nat.add_sub_assoc sizePos, Nat.mul_add_div sizePos,
    Nat.div_eq_of_lt (Nat.sub_one_lt_of_lt sizePos), Nat.add_zero]

/-- Whole blocks are counted apart from what follows them. -/
theorem blocksFor_add_of_dvd {size m : Nat} (sizePos : 0 < size) (whole : size ∣ m) (n : Nat) :
    blocksFor size (m + n) = blocksFor size m + blocksFor size n := by
  obtain ⟨k, rfl⟩ := whole
  rw [blocksFor_mul sizePos, blocksFor, Nat.add_assoc, Nat.add_sub_assoc (by omega),
    Nat.mul_add_div sizePos, blocksFor]

/-- With a digest that honours its size, `k` blocks have `k` times that size. -/
theorem length_flatten_blocksFrom {g : Stretcher} (honours : g.digest.Honours) (k : Nat) :
    (g.blocksFrom k).flatten.length = k * g.digest.size := by
  induction k generalizing g with
  | zero => simp [blocksFrom]
  | succ k ih =>
      have honours' : g.generate.digest.Honours := by rwa [digest_generate]
      have first : g.generate.block.length = g.digest.size := by
        rw [block_generate]
        exact honours _
      rw [blocksFrom, List.flatten_cons, List.length_append, first, ih honours', digest_generate,
        Nat.succ_mul, Nat.add_comm]

/-! ## Requests -/

/-- What a request of `n` bytes takes if it is served from `k` blocks. -/
def served (g : Stretcher) (n k : Nat) : Stretched where
  bytes := (g.blocksFrom k).flatten.take n
  blocks := k
  next := g.after k

/-- Enough blocks are generated, and no more of them than are needed. -/
structure Serves (g : Stretcher) (n k : Nat) : Prop where
  enough : n ≤ (g.blocksFrom k).flatten.length
  few : k ≤ blocksFor g.digest.size n

/-- After the first block of a request, the rest is a request of its own. -/
theorem Serves.cons {g : Stretcher} {n k : Nat} (ample : g.digest.Ample)
    (sizePos : 0 < g.digest.size) (pos : 0 < n)
    (rest : g.generate.Serves (n - g.generate.block.length) k) : g.Serves n (k + 1) where
  enough := by
    have enough := rest.enough
    rw [blocksFrom, List.flatten_cons, List.length_append]
    omega
  few := by
    have few := rest.few
    have long := le_length_block_generate ample
    rw [digest_generate] at few
    rw [blocksFor_eq_succ sizePos pos]
    exact Nat.succ_le_succ (Nat.le_trans few (blocksFor_mono _ (by omega)))

theorem exists_serve {g : Stretcher} (ample : g.digest.Ample) (sizePos : 0 < g.digest.size)
    (n : Nat) (pieces : List Bytes) (blocks : Nat) :
    ∃ k, g.Serves n k ∧ g.serve n pieces blocks = .ok
      { g.served n k with
        bytes := pieces.reverse.flatten ++ (g.served n k).bytes
        blocks := blocks + k } := by
  induction n using Nat.strongRecOn generalizing g pieces blocks with
  | ind n ih =>
      rw [serve]
      rcases Nat.eq_zero_or_pos n with rfl | pos
      · refine ⟨0, ⟨Nat.zero_le _, Nat.zero_le _⟩, ?_⟩
        simp [served, blocksFrom, after]
      · have long := le_length_block_generate ample
        have ample' : g.generate.digest.Ample := by rwa [digest_generate]
        have sizePos' : 0 < g.generate.digest.size := by rwa [digest_generate]
        rw [if_neg (Nat.ne_of_gt pos)]
        cases block : g.generate.block with
        | nil =>
            rw [block] at long
            exact absurd (Nat.lt_of_lt_of_le sizePos long) (Nat.lt_irrefl 0)
        | cons b bs =>
            obtain ⟨k, serves, rest⟩ := ih (n - (b :: bs).length)
              (by rw [List.length_cons]; omega) ample' sizePos' ((b :: bs).take n :: pieces)
              (blocks + 1)
            rw [← block] at serves
            refine ⟨k + 1, serves.cons ample sizePos pos, ?_⟩
            simp only [block]
            rw [rest]
            simp only [served, blocksFrom, after, block, List.flatten_cons, List.take_append,
              List.reverse_cons, List.flatten_append, List.flatten_nil, List.append_nil,
              List.append_assoc, Nat.add_assoc, Nat.add_comm 1]

/-- A request is served from enough blocks and from no more than blocks of the
announced size would take. -/
theorem exists_nextBytes {g : Stretcher} (ample : g.digest.Ample)
    (sizePos : 0 < g.digest.size) (n : Nat) :
    ∃ k, g.Serves n k ∧ g.nextBytes n = .ok (g.served n k) := by
  rw [nextBytes]
  rcases Nat.eq_zero_or_pos n with rfl | pos
  · refine ⟨0, ⟨Nat.zero_le _, Nat.zero_le _⟩, ?_⟩
    simp [served, blocksFrom, after]
  · have ample' : g.generate.digest.Ample := by rwa [digest_generate]
    have sizePos' : 0 < g.generate.digest.size := by rwa [digest_generate]
    obtain ⟨k, serves, rest⟩ := exists_serve ample' sizePos' (n - g.generate.block.length)
      [g.generate.block.take n] 1
    refine ⟨k + 1, serves.cons ample sizePos pos, ?_⟩
    rw [if_neg (Nat.ne_of_gt pos)]
    simp only [rest]
    simp [served, blocksFrom, after, List.take_append, Nat.add_comm]

/-- A request is served from the least number of blocks that hold it. -/
theorem nextBytes_eq {g : Stretcher} (honours : g.digest.Honours)
    (sizePos : 0 < g.digest.size) (n : Nat) :
    g.nextBytes n = .ok (g.served n (blocksFor g.digest.size n)) := by
  obtain ⟨k, ⟨enough, few⟩, served⟩ := exists_nextBytes honours.ample sizePos n
  rw [length_flatten_blocksFrom honours] at enough
  have exact := Nat.le_antisymm few ((blocksFor_le_iff sizePos).mpr enough)
  rw [served, exact]

theorem length_bytes_served {g : Stretcher} (honours : g.digest.Honours)
    (sizePos : 0 < g.digest.size) (n : Nat) :
    (g.served n (blocksFor g.digest.size n)).bytes.length = n := by
  apply List.length_take_of_le
  rw [length_flatten_blocksFrom honours]
  exact le_blocksFor_mul sizePos n

/-- A request that follows one for whole blocks goes on in the stream where that
one stopped. -/
theorem bytes_served_add {g : Stretcher} (honours : g.digest.Honours)
    (sizePos : 0 < g.digest.size) {m : Nat} (whole : g.digest.size ∣ m) (n k : Nat) :
    (g.served (m + n) (blocksFor g.digest.size m + k)).bytes =
      (g.served m (blocksFor g.digest.size m)).bytes ++
        ((g.after (blocksFor g.digest.size m)).served n k).bytes := by
  have exact : (g.blocksFrom (blocksFor g.digest.size m)).flatten.length = m := by
    rw [length_flatten_blocksFrom honours]
    obtain ⟨j, rfl⟩ := whole
    rw [blocksFor_mul sizePos, Nat.mul_comm]
  simp only [served, blocksFrom_add, List.flatten_append]
  rw [List.take_append, exact, Nat.add_sub_cancel_left, List.take_of_length_le (by omega),
    List.take_of_length_le (Nat.le_of_eq exact)]

/-! ## Histories -/

/-- What can happen to a stretching generator. -/
inductive Act where
  /-- Material is mixed into the seed. -/
  | seed
  /-- A state block is generated. -/
  | block
  deriving DecidableEq, Repr

/-- `Performed g acts h`: the generator `g` became `h` by these acts, oldest
first. -/
inductive Performed (g : Stretcher) : List Act → Stretcher → Prop where
  | nothing : Performed g [] g
  | seed {acts : List Act} {h : Stretcher} (material : Bytes) :
      Performed g acts h → Performed g (acts ++ [.seed]) (h.addSeedMaterial material)
  | block {acts : List Act} {h : Stretcher} :
      Performed g acts h → Performed g (acts ++ [.block]) h.generate

/-- Generating `k` blocks is a history of `k` blocks. -/
theorem Performed.after {g h : Stretcher} {acts : List Act} (performed : Performed g acts h)
    (k : Nat) : Performed g (acts ++ List.replicate k .block) (h.after k) := by
  induction k generalizing acts h with
  | zero => simpa [Stretcher.after] using performed
  | succ k ih =>
      have first := ih performed.block
      rwa [List.append_assoc, List.singleton_append, ← List.replicate_succ] at first

/-- The blocks generated since the seed was last changed. -/
def blocksSinceSeed (acts : List Act) : Nat :=
  (acts.reverse.takeWhile (· == .block)).length

@[simp]
theorem blocksSinceSeed_seed (acts : List Act) : blocksSinceSeed (acts ++ [.seed]) = 0 := by
  simp [blocksSinceSeed]

@[simp]
theorem blocksSinceSeed_block (acts : List Act) :
    blocksSinceSeed (acts ++ [.block]) = blocksSinceSeed acts + 1 := by
  simp [blocksSinceSeed]

@[simp]
theorem blocksSinceSeed_blocks (acts : List Act) (k : Nat) :
    blocksSinceSeed (acts ++ List.replicate k .block) = blocksSinceSeed acts + k := by
  induction k with
  | zero => simp
  | succ k ih =>
      rw [List.replicate_succ', ← List.append_assoc, blocksSinceSeed_block, ih, Nat.add_assoc]

/-- How often the seed was changed. -/
def seedCount (acts : List Act) : Nat :=
  acts.count .seed

end Stretcher

end EntropySeal
