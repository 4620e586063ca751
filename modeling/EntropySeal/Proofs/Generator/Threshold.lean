import EntropySeal.Proofs.Generator.Session

/-!
# The hard threshold

However the callers of a fast generator, its background reseeds and its
disposal interleave, no more than `hard` state blocks are generated between two
seeds.  The block count and the reseed count are what the history says, and the
projection that is compared with the thresholds is computed without overflow.

The invariant has two parts.  `Accounted` ties the counters of the generator to
the history.  `Holder.Room` says what the holder of the lock relies on: chunks
of at most `hard - 1` blocks, and room for the current chunk once its thresholds
were looked at.  Nobody else can apply a seed or generate while the lock is
held, so steps without the lock keep both parts.
-/

namespace EntropySeal

open Stretcher (Act Performed blocksFor blocksSinceSeed seedCount)

/-! ## Blocks of a chunk -/

namespace Stretcher

/-- A chunk takes at most one block more than the projection assumes. -/
theorem blocksFor_le_div_add_one (size n : Nat) : blocksFor size n ≤ n / size + 1 := by
  rcases Nat.eq_zero_or_pos size with rfl | sizePos
  · simp [blocksFor]
  · have whole := Nat.div_add_mod n size
    have part := Nat.mod_lt n sizePos
    apply Nat.le_of_lt_succ
    apply (Nat.div_lt_iff_lt_mul sizePos).mpr
    rw [Nat.succ_eq_add_one, Nat.add_mul, Nat.add_mul, Nat.one_mul, Nat.mul_comm (n / size)]
    omega

end Stretcher

namespace FastGenerator

/-! ## Counters and history -/

/-- The counters of a generator with this policy and digest are what its history
says, and the history has no more blocks between two seeds than the policy
allows. -/
structure Accounted (policy : ReseedPolicy) (digest : Digest) (seeded : Stretcher)
    (history : List Act) (g : FastGenerator) : Prop where
  policy_eq : g.policy = policy
  digest_eq : g.stretcher.digest = digest
  digestSize_eq : g.digestSize = digest.size
  performed : Performed seeded history g.stretcher
  blockCount_eq : g.blockCount.toNat = blocksSinceSeed history
  reseedCount_eq : g.reseedCount = UInt64.ofNat (seedCount history)
  bounded : ∀ past, past <+: history → blocksSinceSeed past ≤ policy.hard.toNat

section Accounted

variable {policy : ReseedPolicy} {digest : Digest} {seeded : Stretcher} {history : List Act}
  {g : FastGenerator}

theorem Accounted.le_hard (acc : Accounted policy digest seeded history g) :
    blocksSinceSeed history ≤ policy.hard.toNat :=
  acc.bounded history List.prefix_rfl

/-- Flags and the state of background reseeds are not accounted for. -/
theorem Accounted.frame {h : FastGenerator} (acc : Accounted policy digest seeded history g)
    (policies : h.policy = g.policy) (sizes : h.digestSize = g.digestSize)
    (stretchers : h.stretcher = g.stretcher) (blocks : h.blockCount = g.blockCount)
    (reseeds : h.reseedCount = g.reseedCount) : Accounted policy digest seeded history h where
  policy_eq := policies.trans acc.policy_eq
  digest_eq := stretchers ▸ acc.digest_eq
  digestSize_eq := sizes.trans acc.digestSize_eq
  performed := stretchers ▸ acc.performed
  blockCount_eq := blocks ▸ acc.blockCount_eq
  reseedCount_eq := reseeds ▸ acc.reseedCount_eq
  bounded := acc.bounded

theorem Accounted.applyReseed (acc : Accounted policy digest seeded history g) (seed : Bytes) :
    Accounted policy digest seeded (history ++ [.seed]) (g.applyReseed seed) where
  policy_eq := acc.policy_eq
  digest_eq := acc.digest_eq
  digestSize_eq := acc.digestSize_eq
  performed := acc.performed.seed seed
  blockCount_eq := (Stretcher.blocksSinceSeed_seed history).symm
  reseedCount_eq := by
    change g.reseedCount + 1 = _
    rw [acc.reseedCount_eq]
    simp [seedCount]
  bounded := by
    intro past prior
    rcases List.prefix_concat_iff.mp prior with rfl | earlier
    · simp
    · exact acc.bounded past earlier

/-- A history within bounds stays so with as many blocks as there is room for. -/
theorem bounded_append_blocks {hard k : Nat}
    (bounded : ∀ past, past <+: history → blocksSinceSeed past ≤ hard)
    (room : blocksSinceSeed history + k ≤ hard) :
    ∀ past, past <+: history ++ List.replicate k .block → blocksSinceSeed past ≤ hard := by
  induction k with
  | zero => simpa using bounded
  | succ k ih =>
      intro past prior
      rw [List.replicate_succ', ← List.append_assoc] at prior
      rcases List.prefix_concat_iff.mp prior with rfl | earlier
      · rwa [Stretcher.blocksSinceSeed_block, Stretcher.blocksSinceSeed_blocks, Nat.add_assoc]
      · exact ih (by omega) past earlier

/-- With room for a chunk, the chunk is generated and accounted for. -/
theorem Accounted.generate (acc : Accounted policy digest seeded history g)
    (ample : digest.Ample) (sizePos : 0 < digest.size) {n : Nat}
    (room : blocksSinceSeed history + blocksFor digest.size n ≤ policy.hard.toNat) :
    ∃ bytes next, g.generate n = .ok (bytes, next) ∧
      Accounted policy digest seeded
        (history ++ Session.blockActs (g.stretcher.nextBytes n)) next := by
  have ample' : g.stretcher.digest.Ample := acc.digest_eq ▸ ample
  have sizePos' : 0 < g.stretcher.digest.size := acc.digest_eq ▸ sizePos
  obtain ⟨k, ⟨-, few⟩, served⟩ := Stretcher.exists_nextBytes ample' sizePos' n
  rw [acc.digest_eq] at few
  have fits : blocksSinceSeed history + k ≤ policy.hard.toNat :=
    Nat.le_trans (Nat.add_le_add_left few _) room
  have hardFits := policy.hard.toNat_lt
  have generated : g.generate n = .ok ((g.stretcher.served n k).bytes,
      { g with
        stretcher := g.stretcher.after k
        blockCount := g.blockCount + UInt64.ofNat k }) := by
    rw [FastGenerator.generate, served]
    rfl
  rw [served]
  exact ⟨_, _, generated, {
    policy_eq := acc.policy_eq
    digest_eq := by simp [acc.digest_eq]
    digestSize_eq := acc.digestSize_eq
    performed := acc.performed.after k
    blockCount_eq := by
      simp only [Session.blockActs, Stretcher.served, Stretcher.blocksSinceSeed_blocks,
        UInt64.toNat_add, UInt64.toNat_ofNat', acc.blockCount_eq]
      omega
    reseedCount_eq := by
      simp [acc.reseedCount_eq, seedCount, Session.blockActs, List.count_replicate]
    bounded := bounded_append_blocks acc.bounded fits }⟩

/-- The projection is the sum it stands for. -/
theorem Accounted.toNat_projected (acc : Accounted policy digest seeded history g)
    (small : policy.hard.toNat < Nat.pow 2 63) {n : Nat}
    (short : n ≤ (policy.hard.toNat - 1) * digest.size) :
    (g.projected n).toNat = g.blockCount.toNat + 1 + n / g.digestSize := by
  apply FastGenerator.toNat_projected
  · rwa [acc.policy_eq]
  · rw [acc.policy_eq, acc.blockCount_eq]
    exact acc.le_hard
  · rwa [acc.policy_eq, acc.digestSize_eq]

end Accounted

end FastGenerator

/-! ## The holder of the lock -/

/-- What the holder of the lock relies on: chunks of at most `hard - 1` blocks
of `size` bytes, and room for the current one among `hard` blocks when its
thresholds were looked at. -/
def Holder.Room (size hard count : Nat) : Holder → Prop
  | .looking sizes => ∀ n ∈ sizes, n ≤ (hard - 1) * size
  | .reseeding _ n rest => ∀ k ∈ n :: rest, k ≤ (hard - 1) * size
  | .releasing _ result n rest =>
      (result = .ok () → count = 0) ∧ ∀ k ∈ n :: rest, k ≤ (hard - 1) * size
  | .generating n rest =>
      count + blocksFor size n ≤ hard ∧ ∀ k ∈ rest, k ≤ (hard - 1) * size

namespace Session

open FastGenerator (Accounted)

variable {τ : Type}

/-- The generator of a session is accounted for, and the holder of its lock has
the room it relies on. -/
structure Kept (policy : ReseedPolicy) (digest : Digest) (seeded : Stretcher)
    (history : List Act) (s : Session τ) : Prop where
  accounted : Accounted policy digest seeded history s.generator
  room : ∀ holder, s.holder = some holder →
    holder.Room digest.size policy.hard.toNat (blocksSinceSeed history)

section Kept

variable {supply : Supply τ} {policy : ReseedPolicy} {digest : Digest} {seeded : Stretcher}
  {history : List Act} {s : Session τ}

theorem Kept.request (kept : Kept policy digest seeded history s)
    (positive : 0 < policy.hard.toNat) (n : Nat) :
    Kept policy digest seeded history (s.request n) where
  accounted := kept.accounted
  room := by
    rintro holder ⟨⟩ k member
    have chunk := Nat.le_trans (FastGenerator.le_of_mem_chunkSizes member)
      s.generator.maxChunk_le
    rw [kept.accounted.policy_eq, kept.accounted.digestSize_eq] at chunk
    have one : (1 : UInt64) ≤ policy.hard := UInt64.le_iff_toNat_le.mpr positive
    rwa [UInt64.toNat_sub_of_le _ _ one] at chunk

theorem Kept.look (kept : Kept policy digest seeded history s)
    (small : policy.hard.toNat < Nat.pow 2 63) {n : Nat} {rest : List Nat}
    (holds : s.holder = some (.looking (n :: rest))) :
    Kept policy digest seeded history (s.look n rest) := by
  have acc := kept.accounted
  have sizes := kept.room _ holds
  have first := sizes n (by simp)
  have later : ∀ k ∈ rest, k ≤ (policy.hard.toNat - 1) * digest.size :=
    fun k member => sizes k (by simp [member])
  by_cases above : s.generator.projected n > s.generator.policy.hard
  · rw [Session.look, if_pos above]
    exact ⟨acc.frame rfl rfl rfl rfl rfl, by rintro holder ⟨⟩; exact sizes⟩
  · have room : blocksSinceSeed history + blocksFor digest.size n ≤ policy.hard.toNat := by
      have below := UInt64.le_iff_toNat_le.mp (UInt64.not_lt.mp above)
      rw [acc.toNat_projected small first, acc.policy_eq, acc.digestSize_eq,
        acc.blockCount_eq] at below
      have blocks := Stretcher.blocksFor_le_div_add_one digest.size n
      omega
    rw [Session.look, if_neg above]
    split
    · exact ⟨acc.frame rfl rfl rfl rfl rfl, by rintro holder ⟨⟩; exact ⟨room, later⟩⟩
    · exact ⟨acc, by rintro holder ⟨⟩; exact ⟨room, later⟩⟩

theorem Kept.release (kept : Kept policy digest seeded history s) (sizePos : 0 < digest.size)
    (positive : 0 < policy.hard.toNat) {claimed : Bool} {result : Except Error Unit} {n : Nat}
    {rest : List Nat} (holds : s.holder = some (.releasing claimed result n rest)) :
    Kept policy digest seeded history (s.release claimed result n rest) := by
  rcases kept.room _ holds with ⟨fresh, sizes⟩
  have accounted : Accounted policy digest seeded history
      (s.release claimed result n rest).generator := by
    cases claimed with
    | false => exact kept.accounted
    | true => exact kept.accounted.frame rfl rfl rfl rfl rfl
  constructor
  · exact accounted
  · cases result with
    | error e => rintro holder ⟨⟩
    | ok u =>
        rintro holder ⟨⟩
        have blocks := (Stretcher.blocksFor_le_iff sizePos).mpr (sizes n (by simp))
        constructor
        · rw [fresh rfl]
          omega
        · intro k member
          exact sizes k (by simp [member])

theorem Kept.hold (kept : Kept policy digest seeded history s) (ample : digest.Ample)
    (sizePos : 0 < digest.size) (positive : 0 < policy.hard.toNat)
    (small : policy.hard.toNat < Nat.pow 2 63) :
    Kept policy digest seeded (history ++ (s.hold supply).1) (s.hold supply).2 := by
  unfold Session.hold
  split
  next => simpa using kept
  next =>
    rw [List.append_nil]
    exact ⟨kept.accounted, by rintro holder ⟨⟩⟩
  next n rest holds =>
    rw [List.append_nil]
    exact kept.look small holds
  next claimed n rest holds =>
    have sizes := kept.room _ holds
    rcases s.generator.reseedNow_cases supply s.world with
      ⟨e, t', failed⟩ | ⟨seed, t', applied⟩
    · rw [failed]
      simp only [seedActs, List.append_nil]
      exact ⟨kept.accounted, by rintro holder ⟨⟩; exact ⟨by simp, sizes⟩⟩
    · rw [applied]
      constructor
      · exact kept.accounted.applyReseed seed
      · rintro holder ⟨⟩
        exact ⟨fun _ => Stretcher.blocksSinceSeed_seed history, sizes⟩
  next claimed result n rest holds =>
    rw [List.append_nil]
    exact kept.release sizePos positive holds
  next n rest holds =>
    rcases kept.room _ holds with ⟨room, sizes⟩
    rcases kept.accounted.generate ample sizePos room with ⟨bytes, next, generated, acc⟩
    rw [generated]
    exact ⟨acc, by rintro holder ⟨⟩; exact sizes⟩

theorem Kept.demand (kept : Kept policy digest seeded history s) (free : s.holder = none) :
    Kept policy digest seeded (history ++ (s.demand supply).1) (s.demand supply).2 := by
  unfold Session.demand
  rcases s.generator.reseedNow_cases supply s.world with ⟨e, t', failed⟩ | ⟨seed, t', applied⟩
  · rw [failed]
    simp only [seedActs, List.append_nil]
    exact ⟨kept.accounted, kept.room⟩
  · rw [applied]
    exact ⟨kept.accounted.applyReseed seed, by simp [free]⟩

theorem Kept.background (kept : Kept policy digest seeded history s) {i : Nat}
    {acts : List Act} {next : Session τ} (step : s.background supply i = some (acts, next)) :
    Kept policy digest seeded (history ++ acts) next := by
  rcases background_cases step with
    ⟨_, rfl, _, _, rfl⟩ | ⟨_, rfl, _, _, _, rfl⟩ |
    ⟨seed, _, free, ⟨_, rfl, rfl⟩ | ⟨_, rfl, _, rfl⟩⟩ | ⟨_, _, _, _, rfl, rfl⟩
  case inr.inr.inl.inr =>
    exact ⟨kept.accounted.applyReseed seed, by simp [free]⟩
  all_goals
    rw [List.append_nil]
    exact ⟨kept.accounted.frame rfl rfl rfl rfl rfl, kept.room⟩

theorem Kept.dispose (kept : Kept policy digest seeded history s) :
    Kept policy digest seeded history (s.dispose supply) := by
  have disposed := s.generator.dispose_fst supply s.world
  constructor
  · change Accounted policy digest seeded history (s.generator.dispose supply s.world).1
    rw [disposed]
    exact kept.accounted.frame rfl rfl rfl rfl rfl
  · exact kept.room

/-- Every step keeps the accounts. -/
theorem Step.kept {acts : List Act} {next : Session τ} (step : Step supply s acts next)
    (kept : Kept policy digest seeded history s) (ample : digest.Ample)
    (sizePos : 0 < digest.size) (positive : 0 < policy.hard.toNat)
    (small : policy.hard.toNat < Nat.pow 2 63) :
    Kept policy digest seeded (history ++ acts) next := by
  cases step with
  | request n =>
      rw [List.append_nil]
      exact kept.request positive n
  | hold => exact kept.hold ample sizePos positive small
  | demand free => exact kept.demand free
  | background i step => exact kept.background step
  | unstarted i =>
      rw [List.append_nil]
      exact ⟨kept.accounted.frame rfl rfl rfl rfl rfl, kept.room⟩
  | dispose =>
      rw [List.append_nil]
      exact kept.dispose
  | others world =>
      rw [List.append_nil]
      exact ⟨kept.accounted, kept.room⟩

/-- A generator that was just made is accounted for, with an empty history. -/
theorem kept_start {ownsSupply : Bool} {t t' : Traced τ} {g : FastGenerator}
    (made : (FastGenerator.make supply policy digest ownsSupply).toAction t = (.ok g, t')) :
    ∃ seed, Kept policy digest ((Stretcher.new digest).addSeedMaterial seed) [] (start g t') := by
  rcases FastGenerator.make_cases made with ⟨_, _, seed, rfl⟩
  have accounted : Accounted policy digest ((Stretcher.new digest).addSeedMaterial seed) []
      ((FastGenerator.unseeded policy digest ownsSupply).applySeed seed) := {
    policy_eq := rfl
    digest_eq := rfl
    digestSize_eq := rfl
    performed := .nothing
    blockCount_eq := rfl
    reseedCount_eq := rfl
    bounded := by simp [blocksSinceSeed] }
  exact ⟨seed, accounted, by rintro holder ⟨⟩⟩

/-- A run goes on with the accounts that it begins with, if the digest never
returns too little. -/
theorem Run.kept_append {acts : List Act} {next : Session τ} (run : Run supply s acts next)
    (kept : Kept policy digest seeded history s) (ample : digest.Ample)
    (sizePos : 0 < digest.size) (positive : 0 < policy.hard.toNat)
    (small : policy.hard.toNat < Nat.pow 2 63) :
    Kept policy digest seeded (history ++ acts) next := by
  induction run with
  | nothing => rwa [List.append_nil]
  | step _ step ih =>
      rw [← List.append_assoc]
      exact step.kept ih ample sizePos positive small

/-- Every run keeps the accounts, if the digest never returns too little. -/
theorem Run.kept_of_ample {next : Session τ} (run : Run supply s history next)
    (kept : Kept policy digest seeded [] s) (ample : digest.Ample)
    (sizePos : 0 < digest.size) (positive : 0 < policy.hard.toNat)
    (small : policy.hard.toNat < Nat.pow 2 63) : Kept policy digest seeded history next :=
  run.kept_append kept ample sizePos positive small

/-- Every run keeps the accounts. -/
theorem Run.kept {next : Session τ} (run : Run supply s history next)
    (kept : Kept policy digest seeded [] s) (honours : digest.Honours)
    (sizePos : 0 < digest.size) (positive : 0 < policy.hard.toNat)
    (small : policy.hard.toNat < Nat.pow 2 63) : Kept policy digest seeded history next :=
  run.kept_of_ample kept honours.ample sizePos positive small

end Kept

/-- In every run of a generator that was made, up to any point: the history is
what the stretching generator went through since its first seed; the block count
is the number of blocks since the last seed; never more than `hard` blocks lie
between two seeds; the reseed count is the number of seeds; and the
projection for the chunk that is looked at is the sum that it stands for. -/
theorem blockCount_le_hard {supply : Supply τ} {policy : ReseedPolicy} {digest : Digest}
    {ownsSupply : Bool} {t t' : Traced τ} {g : FastGenerator} {history : List Act}
    {s : Session τ}
    (made : (FastGenerator.make supply policy digest ownsSupply).toAction t = (.ok g, t'))
    (honours : digest.Honours) (small : policy.hard.toNat < Nat.pow 2 63)
    (run : Run supply (start g t') history s) :
    (∃ seed, Performed ((Stretcher.new digest).addSeedMaterial seed) history
      s.generator.stretcher) ∧
    s.generator.blockCount.toNat = blocksSinceSeed history ∧
    s.generator.blockCount ≤ policy.hard ∧
    (∀ past, past <+: history → blocksSinceSeed past ≤ policy.hard.toNat) ∧
    s.generator.reseedCount = UInt64.ofNat (seedCount history) ∧
    ∀ n rest, s.holder = some (.looking (n :: rest)) →
      (s.generator.projected n).toNat =
        s.generator.blockCount.toNat + 1 + n / s.generator.digestSize := by
  rcases FastGenerator.make_cases made with ⟨valid, sizePos, _⟩
  rcases (policy.validate_eq_ok_iff).mp valid with ⟨softPos, below, _⟩
  have positive : 0 < policy.hard.toNat :=
    Nat.lt_trans (UInt64.lt_iff_toNat_lt.mp softPos) (UInt64.lt_iff_toNat_lt.mp below)
  rcases kept_start made with ⟨seed, kept⟩
  have kept := run.kept kept honours sizePos positive small
  have acc := kept.accounted
  have within : s.generator.blockCount ≤ policy.hard := by
    rw [UInt64.le_iff_toNat_le, acc.blockCount_eq]
    exact acc.le_hard
  have exactly : ∀ n rest, s.holder = some (.looking (n :: rest)) →
      (s.generator.projected n).toNat =
        s.generator.blockCount.toNat + 1 + n / s.generator.digestSize := by
    intro n rest holds
    exact acc.toNat_projected small (kept.room _ holds n (by simp))
  exact ⟨⟨seed, acc.performed⟩, acc.blockCount_eq, within, acc.bounded, acc.reseedCount_eq,
    exactly⟩

/-! ### A run past the hard threshold -/

/-- A digest of one byte, which adds up its input. -/
def checksum : Digest where
  name := "checksum"
  bits := 8
  hash data := [data.foldl (· + ·) 0]

/-- A supply whose next seed repeats a byte that counts the seeds. -/
def counting : Supply UInt8 where
  draw n := ExceptT.mk fun t =>
    (.ok (List.replicate n t.world), { t with world := t.world + 1 })
  drawInBackground n := ExceptT.mk fun t =>
    (.ok (List.replicate n t.world), { t with world := t.world + 1 })
  dispose := pure ()

/-- The policy with the smallest thresholds. -/
def narrow : ReseedPolicy where
  soft := 1
  hard := 2

/-- A generator of the narrow policy, seeded with a zero. -/
def narrowed : FastGenerator :=
  (FastGenerator.unseeded narrow checksum false).applySeed [0]

/-- After this many steps of the holder of the lock. -/
def held (s : Session UInt8) : Nat → List Act × Session UInt8
  | 0 => ([], s)
  | k + 1 => ((held s k).1 ++ ((held s k).2.hold counting).1, ((held s k).2.hold counting).2)

theorem Run.held {start s : Session UInt8} {history : List Act}
    (run : Run counting start history s) (k : Nat) :
    Run counting start (history ++ (s.held k).1) (s.held k).2 := by
  induction k with
  | zero => simpa [Session.held] using run
  | succ k ih =>
      rw [Session.held, ← List.append_assoc]
      exact ih.step (.hold _)

/-- Two bytes past a hard threshold of two blocks: the second chunk reseeds
before it is generated. -/
theorem blockCount_le_hard_narrow : ∃ s,
    (FastGenerator.make counting narrow checksum false).toAction ⟨0, []⟩ =
      (.ok narrowed, ⟨1, []⟩) ∧
    checksum.Honours ∧ narrow.hard.toNat < Nat.pow 2 63 ∧
    Run counting (start narrowed ⟨1, []⟩) [.block, .seed, .block] s ∧ s.holder = none ∧
    s.generator.blockCount.toNat = blocksSinceSeed [.block, .seed, .block] ∧
    s.generator.blockCount ≤ narrow.hard := by
  have made : (FastGenerator.make counting narrow checksum false).toAction ⟨0, []⟩ =
      (.ok narrowed, ⟨1, []⟩) := rfl
  have honours : checksum.Honours := fun _ => rfl
  have small : narrow.hard.toNat < Nat.pow 2 63 := by decide
  have requested : Run counting (start narrowed ⟨1, []⟩) [] _ := .single (.request _ 2 rfl)
  have history : (((start narrowed ⟨1, []⟩).request 2).held 7).1 = [.block, .seed, .block] := by
    decide +kernel
  have free : (((start narrowed ⟨1, []⟩).request 2).held 7).2.holder = none := by
    apply Option.isNone_iff_eq_none.mp
    decide +kernel
  have run := requested.held 7
  rw [List.nil_append, history] at run
  rcases blockCount_le_hard made honours small run with ⟨_, counted, bounded, _⟩
  exact ⟨_, made, honours, small, run, free, counted, bounded⟩

end Session

end EntropySeal
