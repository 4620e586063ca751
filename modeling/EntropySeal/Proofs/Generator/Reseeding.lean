import EntropySeal.Proofs.Generator.Ample

/-!
# Reseeds of one request

A request is cut into chunks, and before each one the thresholds ask for a
precaution: a reseed, a background reseed, or nothing (`precaution`).  What the
precautions of a request come to has a closed form.  All chunks but the last one
are full.  The first one takes a reseed where it would cross the hard threshold, and
those after it take one each, since a full chunk leaves the count one below the hard
threshold.  Only a last chunk of less than a block does not: it ends on the threshold.

The main statement, `fill_accounts`, gives the reseeds, the background reseed and the
block count of any request in this form.  `AfterChunk` says what one chunk leaves
behind, `AfterChunks` what a run of them does.
-/

namespace EntropySeal

variable {τ : Type}

/-- A draw of a seed of `size` bytes failed and left the world as `t'`. -/
def Supply.Stops (supply : Supply τ) (size : Nat) (e : Error) (t' : Traced τ) : Prop :=
  ∃ t, (supply.draw size).toAction t = (.error e, t')

/-- Draws of seeds are not logged. -/
def Supply.Silent (supply : Supply τ) : Prop :=
  ∀ size t, ((supply.draw size).toAction t).2.events = t.events

open Stretcher (blocksFor blocksFor_eq_succ blocksFor_le_iff blocksFor_le_div_add_one
  le_blocksFor_mul)

namespace FastGenerator

/-! ## Chunks of a request -/

/-- A request that fits a chunk is one chunk. -/
theorem chunkSizes_of_le {size n : Nat} (pos : 0 < n) (le : n ≤ size) :
    chunkSizes size n = [n] := by
  have some : ¬(n = 0 ∨ size = 0) := by omega
  rw [chunkSizes, if_neg some, Nat.min_eq_right le, Nat.sub_self, chunkSizes, if_pos (.inl rfl)]

/-- All chunks of a request but the last one are full. -/
theorem chunkSizes_eq {size n : Nat} (sizePos : 0 < size) (pos : 0 < n) :
    chunkSizes size n = List.replicate (blocksFor size n - 1) size ++
      [n - (blocksFor size n - 1) * size] := by
  fun_induction chunkSizes size n with
  | case1 n done => omega
  | case2 n more ih =>
      have count := blocksFor_eq_succ sizePos pos
      rcases Nat.lt_or_ge size n with long | short
      · have least : 1 ≤ blocksFor size (n - size) := by
          rw [blocksFor_eq_succ sizePos (by omega)]
          exact Nat.le_add_left 1 _
        rw [Nat.min_eq_left (Nat.le_of_lt long)] at ih ⊢
        rw [ih (by omega), count, Nat.add_sub_cancel, ← List.cons_append, ← List.replicate_succ,
          Nat.sub_add_cancel least]
        obtain ⟨k, eq⟩ := Nat.exists_eq_add_of_le' least
        rw [eq, Nat.add_sub_cancel, Nat.succ_mul]
        congr 2
        omega
      · have last : blocksFor size (n - size) = 0 := by
          rw [Nat.sub_eq_zero_of_le short]
          exact Nat.div_eq_of_lt (by omega)
        rw [count, last, Nat.min_eq_right short, Nat.sub_self, chunkSizes, if_pos (.inl rfl)]
        simp

/-- Bytes of a full chunk, `hard - 1` blocks. -/
def fullChunk (g : FastGenerator) : Nat :=
  (g.policy.hard.toNat - 1) * g.digestSize

/-- How many chunks a request of `n` bytes is cut into. -/
def chunkCount (g : FastGenerator) (n : Nat) : Nat :=
  blocksFor g.fullChunk n

/-- Bytes of the last chunk of a request of `n` bytes. -/
def lastChunk (g : FastGenerator) (n : Nat) : Nat :=
  n - (g.chunkCount n - 1) * g.fullChunk

/-- The block count that the first chunk may lead to. -/
def firstProjection (g : FastGenerator) (n : Nat) : Nat :=
  g.blockCount.toNat + 1 + min n g.fullChunk / g.digestSize

/-- The last one of several chunks has less than a block. -/
def EndsInPart (g : FastGenerator) (n : Nat) : Prop :=
  1 < g.chunkCount n ∧ g.lastChunk n < g.digestSize

instance (g : FastGenerator) (n : Nat) : Decidable (g.EndsInPart n) :=
  inferInstanceAs (Decidable (_ ∧ _))

/-- The request crosses the soft threshold and not the hard one with its first
chunk, or stops just short of the hard one with its last. -/
def Schedules (g : FastGenerator) (n : Nat) : Prop :=
  (g.policy.soft.toNat < g.firstProjection n ∧ g.firstProjection n ≤ g.policy.hard.toNat) ∨
    g.EndsInPart n

instance (g : FastGenerator) (n : Nat) : Decidable (g.Schedules n) :=
  inferInstanceAs (Decidable (_ ∨ _))

/-- Reseeds of a request of `n` bytes: one before each chunk, but the first one only
where it would cross the hard threshold, and not the last one of less than a block. -/
def reseedsOf (g : FastGenerator) (n : Nat) : Nat :=
  (if g.policy.hard.toNat < g.firstProjection n then 1 else 0) + (g.chunkCount n - 1) -
    (if g.EndsInPart n then 1 else 0)

/-- The block count that a request of `n` bytes leads to. -/
def countAfter (g : FastGenerator) (n : Nat) : Nat :=
  if g.EndsInPart n then g.policy.hard.toNat
  else if 1 < g.chunkCount n then blocksFor g.digestSize (g.lastChunk n)
  else if g.policy.hard.toNat < g.firstProjection n then blocksFor g.digestSize n
  else g.blockCount.toNat + blocksFor g.digestSize n

/-! ## Precautions -/

/-- What is done before a chunk. -/
inductive Precaution where
  /-- A reseed, after so many blocks. -/
  | reseed (blocks : Nat)
  /-- A background reseed is scheduled. -/
  | schedule
  | none
  deriving DecidableEq

namespace Precaution

/-- Reseeds that are performed. -/
def reseeds : Precaution → Nat
  | reseed _ => 1
  | schedule | none => 0

/-- Background reseeds that are scheduled. -/
def schedules : Precaution → Nat
  | schedule => 1
  | reseed _ | none => 0

/-- What is logged: how many blocks came before a reseed. -/
def events : Precaution → List Event
  | reseed blocks => [.reseeded (UInt64.ofNat blocks)]
  | schedule | none => []

/-- Between the first chunk and the last one, every chunk takes a reseed. -/
theorem sum_reseeds (first last : Precaution) (k blocks : Nat) :
    ((first :: (List.replicate k (.reseed blocks) ++ [last])).map reseeds).sum =
      first.reseeds + k + last.reseeds := by
  simp [reseeds, Nat.add_assoc]

theorem sum_schedules (first last : Precaution) (k blocks : Nat) :
    ((first :: (List.replicate k (.reseed blocks) ++ [last])).map schedules).sum =
      first.schedules + last.schedules := by
  simp [schedules]

end Precaution

/-- What is done before a chunk of `size` bytes. -/
def precaution (g : FastGenerator) (size : Nat) : Precaution :=
  if g.projected size > g.policy.hard then .reseed g.blockCount.toNat
  else if g.projected size > g.policy.soft ∧ !g.inFlight then .schedule
  else .none

/-- A reseed comes after the blocks that were counted. -/
theorem blocks_eq {g : FastGenerator} {size blocks : Nat}
    (reaction : g.precaution size = .reseed blocks) : blocks = g.blockCount.toNat := by
  unfold precaution at reaction
  split at reaction
  · cases reaction
    rfl
  · split at reaction <;> cases reaction

/-- A chunk is prepared by the precaution for it. -/
theorem prepare_eq (supply : Supply τ) (g : FastGenerator) (size : Nat) :
    g.prepare supply size =
      match g.precaution size with
      | .reseed _ => g.reseedHolding supply
      | .schedule => pure (.ok (), g.schedule)
      | .none => pure (.ok (), g) := by
  rw [prepare, precaution]
  split
  · rfl
  · split <;> rfl

/-- What is done before the chunks of these sizes, until one fails. -/
def precautions (supply : Supply τ) : List Nat → FastGenerator → Traced τ → List Precaution
  | [], _, _ => []
  | size :: sizes, g, t =>
      g.precaution size ::
        match g.chunk supply size t with
        | ((.error _, _), _) => []
        | ((.ok _, g), t) => precautions supply sizes g t

/-- What a generator relies on between two chunks. -/
structure InOrder (g : FastGenerator) : Prop where
  valid : g.policy.validate = .ok ()
  small : g.policy.hard.toNat < Nat.pow 2 63
  honours : g.stretcher.digest.Honours
  sizePos : 0 < g.digestSize
  announced : g.digestSize = g.stretcher.digest.size
  within : g.blockCount.toNat ≤ g.policy.hard.toNat

section InOrder

variable {g : FastGenerator}

theorem InOrder.soft_lt (order : g.InOrder) :
    0 < g.policy.soft.toNat ∧ g.policy.soft.toNat < g.policy.hard.toNat := by
  obtain ⟨positive, below, -⟩ := g.policy.validate_eq_ok_iff.mp order.valid
  exact ⟨UInt64.lt_iff_toNat_lt.mp positive, UInt64.lt_iff_toNat_lt.mp below⟩

theorem InOrder.fullChunk_pos (order : g.InOrder) : 0 < g.fullChunk := by
  obtain ⟨positive, below⟩ := order.soft_lt
  exact Nat.mul_pos (by omega) order.sizePos

theorem InOrder.fullChunk_div (order : g.InOrder) :
    g.fullChunk / g.digestSize = g.policy.hard.toNat - 1 :=
  Nat.mul_div_cancel _ order.sizePos

/-- The projection is the sum it stands for. -/
theorem InOrder.toNat_projected (order : g.InOrder) {size : Nat} (short : size ≤ g.fullChunk) :
    (g.projected size).toNat = g.blockCount.toNat + 1 + size / g.digestSize :=
  FastGenerator.toNat_projected order.small order.within short

/-- The precaution in numbers. -/
theorem InOrder.precaution_eq (order : g.InOrder) {size : Nat} (short : size ≤ g.fullChunk) :
    g.precaution size =
      if g.policy.hard.toNat < g.blockCount.toNat + 1 + size / g.digestSize then
        .reseed g.blockCount.toNat
      else if g.policy.soft.toNat < g.blockCount.toNat + 1 + size / g.digestSize ∧
          g.inFlight = false then .schedule
      else .none := by
  simp only [precaution, gt_iff_lt, UInt64.lt_iff_toNat_lt, order.toNat_projected short,
    Bool.not_eq_true']

end InOrder

/-- The generator after a precaution that worked; `seed` was drawn if it is a
reseed. -/
def after (g : FastGenerator) (seed : Bytes) : Precaution → FastGenerator
  | .reseed _ => g.applyReseed seed
  | .schedule => g.schedule
  | .none => g

/-- A reseed that holds the flag leaves it as it was, and fails only if its draw does.
It is logged where it worked. -/
theorem reseedHolding_cases (supply : Supply τ) (g : FastGenerator) (t : Traced τ) :
    (∃ e t', g.reseedHolding supply t = ((.error e, g), t') ∧ supply.Stops g.seedSize e t') ∨
      ∃ seed t', g.reseedHolding supply t = ((.ok (), g.applyReseed seed), t') ∧
        (supply.Silent → t'.events = t.events ++ [.reseeded g.blockCount]) := by
  simp only [reseedHolding, reseedNow, Action.run_bind]
  rcases drawn : (supply.draw g.seedSize).toAction t with ⟨result, t'⟩
  cases result with
  | error e => exact .inl ⟨e, t', rfl, t, drawn⟩
  | ok seed =>
      refine .inr ⟨seed, _, rfl, ?_⟩
      intro silent
      have unchanged := silent g.seedSize t
      rw [drawn] at unchanged
      exact congrArg (· ++ [Event.reseeded g.blockCount]) unchanged

/-- A precaution fails if its draw does, and is carried out and logged otherwise. -/
theorem prepare_cases (supply : Supply τ) (g : FastGenerator) (size : Nat) (t : Traced τ) :
    (∃ e t', g.prepare supply size t = ((.error e, g), t') ∧ supply.Stops g.seedSize e t') ∨
      ∃ seed t', g.prepare supply size t = ((.ok (), g.after seed (g.precaution size)), t') ∧
        (supply.Silent → t'.events = t.events ++ (g.precaution size).events) := by
  rw [prepare_eq]
  cases reaction : g.precaution size with
  | reseed blocks =>
      have counted := blocks_eq reaction
      rw [Precaution.events, counted, UInt64.ofNat_toNat]
      exact g.reseedHolding_cases supply t
  | schedule => exact .inr ⟨[], t, rfl, fun _ => (List.append_nil _).symm⟩
  | none => exact .inr ⟨[], t, rfl, fun _ => (List.append_nil _).symm⟩

/-- The block count after a precaution: a reseed starts it anew. -/
def Precaution.carried (count : Nat) : Precaution → Nat
  | reseed _ => 0
  | schedule | none => count

/-- What a chunk of `size` bytes that was served leaves behind. -/
structure AfterChunk (g : FastGenerator) (size : Nat) (next : FastGenerator) : Prop where
  policy_eq : next.policy = g.policy
  digestSize_eq : next.digestSize = g.digestSize
  seedSize_eq : next.seedSize = g.seedSize
  digest_eq : next.stretcher.digest = g.stretcher.digest
  blockCount_eq : next.blockCount.toNat =
    (g.precaution size).carried g.blockCount.toNat + blocksFor g.digestSize size
  reseedCount_eq : next.reseedCount = g.reseedCount + UInt64.ofNat (g.precaution size).reseeds
  inFlight_iff : next.inFlight = true ↔ g.inFlight = true ∨ g.precaution size = .schedule
  background_eq : next.background =
    if g.precaution size = .schedule then .scheduled else g.background

/-- There is room for a chunk after the precaution for it. -/
theorem InOrder.room {g : FastGenerator} (order : g.InOrder) {size : Nat}
    (short : size ≤ g.fullChunk) :
    (g.precaution size).carried g.blockCount.toNat + blocksFor g.digestSize size ≤
      g.policy.hard.toNat := by
  have blocks := blocksFor_le_div_add_one g.digestSize size
  rw [order.precaution_eq short]
  split
  · have few := (blocksFor_le_iff order.sizePos).mpr short
    simp only [Precaution.carried]
    omega
  · split <;> simp only [Precaution.carried] <;> omega

/-- After a precaution that worked, the chunk is generated and its blocks counted. -/
theorem InOrder.generate {g : FastGenerator} (order : g.InOrder) {size : Nat}
    (short : size ≤ g.fullChunk) (seed : Bytes) :
    ∃ bytes next, (g.after seed (g.precaution size)).generate size = .ok (bytes, next) ∧
      bytes.length = size ∧ AfterChunk g size next := by
  have room := order.room short
  have range := g.policy.hard.toNat_lt
  have digest_eq : (g.after seed (g.precaution size)).stretcher.digest = g.stretcher.digest := by
    cases g.precaution size <;> rfl
  have count_eq : (g.after seed (g.precaution size)).blockCount.toNat =
      (g.precaution size).carried g.blockCount.toNat := by
    cases g.precaution size <;> rfl
  have honours : (g.after seed (g.precaution size)).stretcher.digest.Honours := by
    rw [digest_eq]
    exact order.honours
  have sizePos : 0 < (g.after seed (g.precaution size)).stretcher.digest.size := by
    rw [digest_eq, ← order.announced]
    exact order.sizePos
  have served := Stretcher.nextBytes_eq honours sizePos size
  rw [digest_eq, ← order.announced] at served
  refine ⟨_, _, by rw [FastGenerator.generate, served]; rfl, ?_, ?_⟩
  · have length := Stretcher.length_bytes_served honours sizePos size
    rwa [digest_eq, ← order.announced] at length
  · exact {
      policy_eq := by cases g.precaution size <;> rfl
      digestSize_eq := by cases g.precaution size <;> rfl
      seedSize_eq := by cases g.precaution size <;> rfl
      digest_eq := by
        rw [← digest_eq]
        exact Stretcher.digest_after _ _
      blockCount_eq := by
        simp only [Stretcher.served, UInt64.toNat_add, UInt64.toNat_ofNat', count_eq]
        omega
      reseedCount_eq := by
        cases g.precaution size <;>
          simp [after, applyReseed, applySeed, schedule, Precaution.reseeds]
      inFlight_iff := by
        cases g.precaution size <;> simp [after, applyReseed, applySeed, schedule]
      background_eq := by
        cases g.precaution size <;> simp [after, applyReseed, applySeed, schedule] }

/-- A chunk is served unless a draw fails. -/
theorem InOrder.chunk_cases {g : FastGenerator} (order : g.InOrder) {size : Nat}
    (short : size ≤ g.fullChunk) (supply : Supply τ) (t : Traced τ) :
    (∃ e next t', g.chunk supply size t = ((.error e, next), t') ∧
      supply.Stops g.seedSize e t') ∨
      ∃ bytes next t', g.chunk supply size t = ((.ok bytes, next), t') ∧ bytes.length = size ∧
        (supply.Silent → t'.events = t.events ++ (g.precaution size).events) ∧
        AfterChunk g size next := by
  rw [chunk, Action.run_bind]
  rcases g.prepare_cases supply size t with
    ⟨e, t', failed, stopped⟩ | ⟨seed, t', prepared, logged⟩
  · rw [failed]
    exact .inl ⟨e, g, t', rfl, stopped⟩
  · obtain ⟨bytes, next, generated, length, after⟩ := order.generate short seed
    rw [prepared]
    simp only [generated]
    exact .inr ⟨bytes, next, t', rfl, length, logged, after⟩

theorem AfterChunk.inOrder {g next : FastGenerator} {size : Nat} (after : AfterChunk g size next)
    (order : g.InOrder) (short : size ≤ g.fullChunk) : next.InOrder where
  valid := after.policy_eq ▸ order.valid
  small := after.policy_eq ▸ order.small
  honours := after.digest_eq ▸ order.honours
  sizePos := after.digestSize_eq ▸ order.sizePos
  announced := after.digestSize_eq ▸ after.digest_eq ▸ order.announced
  within := by
    rw [after.blockCount_eq, after.policy_eq]
    exact order.room short

theorem AfterChunk.fullChunk_eq {g next : FastGenerator} {size : Nat}
    (after : AfterChunk g size next) : next.fullChunk = g.fullChunk := by
  rw [fullChunk, after.policy_eq, after.digestSize_eq, fullChunk]

/-! ## All chunks -/

/-- What chunks of these sizes leave behind that were served one after the other,
each after its precaution. -/
inductive AfterChunks : FastGenerator → List Nat → List Precaution → FastGenerator → Prop where
  | nil (g : FastGenerator) : AfterChunks g [] [] g
  | cons {g middle next : FastGenerator} {size : Nat} {sizes : List Nat} {ps : List Precaution} :
      AfterChunk g size middle → AfterChunks middle sizes ps next →
      AfterChunks g (size :: sizes) (g.precaution size :: ps) next

/-- Chunks are served one after the other, up to a draw that fails. -/
theorem InOrder.chunks_cases {g : FastGenerator} (order : g.InOrder) {sizes : List Nat}
    (short : ∀ size ∈ sizes, size ≤ g.fullChunk) (supply : Supply τ) (t : Traced τ) :
    (∃ e, (g.chunks supply sizes t).1.1.failure = some e ∧
      supply.Stops g.seedSize e (g.chunks supply sizes t).2) ∨
      ((g.chunks supply sizes t).1.1.failure = none ∧
        (g.chunks supply sizes t).1.1.bytes.length = sizes.sum ∧
        (supply.Silent → (g.chunks supply sizes t).2.events =
          t.events ++ (precautions supply sizes g t).flatMap Precaution.events) ∧
        AfterChunks g sizes (precautions supply sizes g t) (g.chunks supply sizes t).1.2) := by
  induction sizes generalizing g t with
  | nil => exact .inr ⟨rfl, rfl, fun _ => (List.append_nil _).symm, .nil g⟩
  | cons size sizes ih =>
      obtain ⟨first, later⟩ := List.forall_mem_cons.mp short
      rw [chunks, precautions, Action.run_bind]
      rcases order.chunk_cases first supply t with
        ⟨e, next, t', failed, stopped⟩ | ⟨bytes, next, t', served, length, logged, after⟩
      · rw [failed]
        exact .inl ⟨e, rfl, stopped⟩
      · rw [served]
        rw [← after.fullChunk_eq] at later
        rcases ih (after.inOrder order first) later t' with
          ⟨e, failed, stopped⟩ | ⟨met, total, events, rest⟩
        · rw [after.seedSize_eq] at stopped
          exact .inl ⟨e, failed, stopped⟩
        · refine .inr ⟨met, ?_, ?_, .cons after rest⟩
          · rw [List.sum_cons, ← length, ← total]
            exact List.length_append
          · intro silent
            rw [List.flatMap_cons, ← List.append_assoc, ← logged silent]
            exact events silent

/-- What the precautions of a request did, all together. -/
structure Tally (g : FastGenerator) (ps : List Precaution) (next : FastGenerator) : Prop where
  reseedCount_eq : next.reseedCount =
    g.reseedCount + UInt64.ofNat (ps.map Precaution.reseeds).sum
  inFlight_iff : next.inFlight = true ↔ g.inFlight = true ∨ .schedule ∈ ps
  background_eq : next.background = if .schedule ∈ ps then .scheduled else g.background

theorem AfterChunks.tally {g next : FastGenerator} {sizes : List Nat} {ps : List Precaution}
    (after : AfterChunks g sizes ps next) : Tally g ps next := by
  induction after with
  | nil g => exact ⟨by simp, by simp, by simp⟩
  | @cons g middle next size sizes ps first _ ih =>
      constructor
      · rw [ih.reseedCount_eq, first.reseedCount_eq, List.map_cons, List.sum_cons,
          UInt64.ofNat_add, UInt64.add_assoc]
      · rw [ih.inFlight_iff, first.inFlight_iff, List.mem_cons, or_assoc,
          eq_comm (b := g.precaution size)]
      · rw [ih.background_eq, first.background_eq]
        by_cases here : g.precaution size = .schedule
        · simp [here]
        · simp [here, Ne.symm here]

/-- A full chunk takes `hard - 1` blocks. -/
theorem InOrder.blocksFor_fullChunk {g : FastGenerator} (order : g.InOrder) :
    blocksFor g.digestSize g.fullChunk = g.policy.hard.toNat - 1 := by
  have pos := order.sizePos
  have first : g.fullChunk + g.digestSize - 1 =
      (g.digestSize - 1) + (g.policy.hard.toNat - 1) * g.digestSize := by
    rw [fullChunk]
    omega
  rw [blocksFor, first, Nat.add_mul_div_right _ _ pos, Nat.div_eq_of_lt (by omega), Nat.zero_add]

/-- What holds between two full chunks of one request. -/
structure Between (g : FastGenerator) (middle : FastGenerator) : Prop where
  order : middle.InOrder
  policy_eq : middle.policy = g.policy
  digestSize_eq : middle.digestSize = g.digestSize
  spent : middle.blockCount.toNat = g.policy.hard.toNat - 1

/-- Full chunks between two others take a reseed each. -/
theorem AfterChunks.full {g middle next : FastGenerator} {k : Nat} {rest : List Nat}
    {ps : List Precaution} (between : Between g middle)
    (after : AfterChunks middle (List.replicate k g.fullChunk ++ rest) ps next) :
    ∃ last qs, ps = List.replicate k (.reseed (g.policy.hard.toNat - 1)) ++ qs ∧
      Between g last ∧ last.inFlight = middle.inFlight ∧ AfterChunks last rest qs next := by
  induction k generalizing middle ps with
  | zero => exact ⟨middle, ps, rfl, between, rfl, after⟩
  | succ k ih =>
      rw [List.replicate_succ, List.cons_append] at after
      cases after with
      | @cons _ later _ _ _ ps first rest =>
          have same : middle.fullChunk = g.fullChunk := by
            rw [fullChunk, between.policy_eq, between.digestSize_eq, fullChunk]
          have order := between.order
          have short : g.fullChunk ≤ middle.fullChunk := Nat.le_of_eq same.symm
          obtain ⟨softPos, below⟩ := order.soft_lt
          have reseed : middle.precaution g.fullChunk = .reseed (g.policy.hard.toNat - 1) := by
            rw [order.precaution_eq short, ← same, order.fullChunk_div, between.spent,
              between.policy_eq, if_pos]
            rw [between.policy_eq] at softPos below
            omega
          have blocks := order.blocksFor_fullChunk
          rw [same, between.policy_eq] at blocks
          have between' : Between g later := {
            order := first.inOrder order short
            policy_eq := first.policy_eq.trans between.policy_eq
            digestSize_eq := first.digestSize_eq.trans between.digestSize_eq
            spent := by
              rw [first.blockCount_eq, reseed, blocks]
              exact Nat.zero_add _ }
          obtain ⟨last, qs, rfl, final, flag, after⟩ := ih between' rest
          have unscheduled : later.inFlight = middle.inFlight := by
            rw [Bool.eq_iff_iff, first.inFlight_iff, reseed]
            simp
          exact ⟨last, qs, by rw [reseed]; rfl, final, flag.trans unscheduled, after⟩

/-- The first of several chunks schedules a background reseed where no block was
generated yet, and takes a reseed otherwise. -/
theorem AfterChunk.first {g middle : FastGenerator} (after : AfterChunk g g.fullChunk middle)
    (order : g.InOrder) (free : g.inFlight = false) :
    Between g middle ∧ g.precaution g.fullChunk =
      if g.blockCount.toNat = 0 then .schedule else .reseed g.blockCount.toNat := by
  obtain ⟨softPos, below⟩ := order.soft_lt
  have reaction : g.precaution g.fullChunk =
      if g.blockCount.toNat = 0 then .schedule else .reseed g.blockCount.toNat := by
    rw [order.precaution_eq (Nat.le_refl _), order.fullChunk_div]
    by_cases fresh : g.blockCount.toNat = 0
    · rw [if_neg (by omega), if_pos ⟨by omega, free⟩, if_pos fresh]
    · rw [if_pos (by omega), if_neg fresh]
  refine ⟨?_, reaction⟩
  exact {
    order := after.inOrder order (Nat.le_refl _)
    policy_eq := after.policy_eq
    digestSize_eq := after.digestSize_eq
    spent := by
      rw [after.blockCount_eq, reaction, order.blocksFor_fullChunk]
      split
      next fresh => simp [Precaution.carried, fresh]
      next => exact Nat.zero_add _ }

/-- After full chunks, a last one of a block or more takes a reseed.  Part of a block
does not, but schedules a background reseed where none is on its way. -/
theorem AfterChunk.last {g last next : FastGenerator} {size : Nat}
    (after : AfterChunk last size next) (between : Between g last) (pos : 0 < size)
    (short : size ≤ g.fullChunk) :
    (last.precaution size =
      if size < g.digestSize then if last.inFlight = false then .schedule else .none
      else .reseed (g.policy.hard.toNat - 1)) ∧
    next.blockCount.toNat =
      if size < g.digestSize then g.policy.hard.toNat else blocksFor g.digestSize size := by
  have order := between.order
  have same : last.fullChunk = g.fullChunk := by
    rw [fullChunk, between.policy_eq, between.digestSize_eq, fullChunk]
  obtain ⟨softPos, below⟩ := order.soft_lt
  rw [between.policy_eq] at softPos below
  have sizePos : 0 < g.digestSize := between.digestSize_eq ▸ order.sizePos
  have reaction : last.precaution size =
      if size < g.digestSize then if last.inFlight = false then .schedule else .none
      else .reseed (g.policy.hard.toNat - 1) := by
    rw [order.precaution_eq (same ▸ short), between.policy_eq, between.spent,
      between.digestSize_eq]
    by_cases part : size < g.digestSize
    · have none : size / g.digestSize = 0 := Nat.div_eq_of_lt part
      rw [none, if_neg (by omega), if_pos part]
      by_cases free : last.inFlight = false
      · rw [if_pos ⟨by omega, free⟩, if_pos free]
      · rw [if_neg (by simp [free]), if_neg free]
    · have some : 1 ≤ size / g.digestSize :=
        (Nat.one_le_div_iff sizePos).mpr (Nat.not_lt.mp part)
      rw [if_pos (by omega), if_neg part]
  refine ⟨reaction, ?_⟩
  rw [after.blockCount_eq, reaction, between.spent, between.digestSize_eq]
  by_cases part : size < g.digestSize
  · have one : blocksFor g.digestSize size = 1 := by
      rw [blocksFor_eq_succ sizePos pos, Nat.sub_eq_zero_of_le (Nat.le_of_lt part)]
      rw [blocksFor, Nat.div_eq_of_lt (by omega)]
    rw [if_pos part, if_pos part, one]
    split <;> simp only [Precaution.carried] <;> omega
  · rw [if_neg part, if_neg part]
    exact Nat.zero_add _

/-- The account of a request of `n` bytes, from what was done before its chunks and
what it left behind. -/
structure Accounts (g : FastGenerator) (n : Nat) (ps : List Precaution) (next : FastGenerator) :
    Prop where
  reseeds_eq : (ps.map Precaution.reseeds).sum = g.reseedsOf n
  /-- No reseed is performed before a block was generated. -/
  reseed_ne : ∀ blocks, .reseed blocks ∈ ps → blocks ≠ 0
  schedules_eq : (ps.map Precaution.schedules).sum = if g.Schedules n then 1 else 0
  blockCount_eq : next.blockCount.toNat = g.countAfter n

/-- The account of a request of one chunk. -/
theorem AfterChunks.accounts_one {g next : FastGenerator} {n : Nat} {ps : List Precaution}
    (order : g.InOrder) (free : g.inFlight = false) (one : g.chunkCount n = 1)
    (short : n ≤ g.fullChunk) (after : AfterChunks g [n] ps next) : Accounts g n ps next := by
  cases after with
  | cons first rest =>
      cases rest
      have whole : ¬g.EndsInPart n := fun part => Nat.lt_irrefl 1 (one ▸ part.1)
      have projection : g.firstProjection n = g.blockCount.toNat + 1 + n / g.digestSize := by
        rw [firstProjection, Nat.min_eq_left short]
      have schedules : g.Schedules n ↔
          g.policy.soft.toNat < g.firstProjection n ∧
            g.firstProjection n ≤ g.policy.hard.toNat := by
        simp [Schedules, whole]
      have some : g.policy.hard.toNat < g.firstProjection n → g.blockCount.toNat ≠ 0 := by
        have few := order.fullChunk_div ▸ Nat.div_le_div_right (c := g.digestSize) short
        have two := order.soft_lt
        omega
      have reaction := order.precaution_eq short
      have count := first.blockCount_eq
      rw [← projection] at reaction
      rw [reaction] at count ⊢
      exact {
        reseeds_eq := by
          simp only [reseedsOf, one, whole]
          grind [Precaution.reseeds]
        reseed_ne := by grind
        schedules_eq := by
          simp only [schedules]
          grind [Precaution.schedules]
        blockCount_eq := by
          simp only [countAfter, one, whole]
          grind [Precaution.carried] }

/-- The account of a request of several chunks. -/
theorem AfterChunks.accounts_many {g next : FastGenerator} {n k : Nat} {ps : List Precaution}
    (order : g.InOrder) (free : g.inFlight = false) (many : g.chunkCount n = k + 2)
    (long : g.fullChunk ≤ n) (pos : 0 < g.lastChunk n) (short : g.lastChunk n ≤ g.fullChunk)
    (after : AfterChunks g (g.fullChunk :: (List.replicate k g.fullChunk ++ [g.lastChunk n]))
      ps next) : Accounts g n ps next := by
  cases after with
  | cons first rest =>
      obtain ⟨between, begun⟩ := first.first order free
      obtain ⟨last, qs, rfl, between', unchanged, rest⟩ := AfterChunks.full between rest
      cases rest with
      | cons final rest =>
          cases rest
          obtain ⟨ended, count⟩ := final.last between' pos short
          have projection : g.firstProjection n =
              g.blockCount.toNat + 1 + (g.policy.hard.toNat - 1) := by
            rw [firstProjection, Nat.min_eq_right long, order.fullChunk_div]
          obtain ⟨softPos, below⟩ := order.soft_lt
          have flag : last.inFlight = true ↔ g.blockCount.toNat = 0 := by
            rw [unchanged, first.inFlight_iff, free, begun]
            simp
          have above : g.policy.hard.toNat < g.firstProjection n ↔ g.blockCount.toNat ≠ 0 := by
            omega
          have part : g.EndsInPart n ↔ g.lastChunk n < g.digestSize := by
            simp [EndsInPart, many]
          have schedules : g.Schedules n ↔
              g.blockCount.toNat = 0 ∨ g.lastChunk n < g.digestSize := by
            rw [Schedules, part, projection]
            omega
          rw [begun, ended]
          exact {
            reseeds_eq := by
              rw [Precaution.sum_reseeds, reseedsOf, many]
              simp only [above, part]
              grind [Precaution.reseeds]
            reseed_ne := by
              intro blocks member
              grind
            schedules_eq := by
              -- The flag that the first chunk takes keeps the last one from scheduling too.
              rw [Precaution.sum_schedules]
              simp only [schedules]
              grind [Precaution.schedules]
            blockCount_eq := by
              rw [count, countAfter]
              simp [part, many] }

/-! ## The whole request -/

section Request

variable {g : FastGenerator} {n : Nat}

theorem InOrder.chunkCount_pos (order : g.InOrder) (pos : 0 < n) : 0 < g.chunkCount n := by
  rw [chunkCount, blocksFor_eq_succ order.fullChunk_pos pos]
  exact Nat.succ_pos _

/-- The last chunk has a byte and is not longer than the others. -/
theorem InOrder.lastChunk_bounds (order : g.InOrder) (pos : 0 < n) :
    0 < g.lastChunk n ∧ g.lastChunk n ≤ g.fullChunk := by
  have some := order.chunkCount_pos pos
  have enough : n ≤ g.chunkCount n * g.fullChunk := le_blocksFor_mul order.fullChunk_pos n
  have needed : ¬n ≤ (g.chunkCount n - 1) * g.fullChunk := by
    rw [← blocksFor_le_iff order.fullChunk_pos]
    exact Nat.not_le.mpr (Nat.sub_one_lt_of_lt some)
  have split : g.chunkCount n * g.fullChunk =
      (g.chunkCount n - 1) * g.fullChunk + g.fullChunk := by
    rw [← Nat.succ_mul, Nat.succ_eq_add_one, Nat.sub_add_cancel some]
  rw [lastChunk]
  omega

/-- A chunk is full unless a word cannot count its bytes. -/
theorem InOrder.maxChunk_eq (order : g.InOrder) :
    g.maxChunk = min g.fullChunk (UInt64.size - 1) := by
  have one : (1 : UInt64) ≤ g.policy.hard :=
    UInt64.le_iff_toNat_le.mpr (Nat.lt_of_le_of_lt (Nat.zero_le _) order.soft_lt.2)
  rw [maxChunk, UInt64.toNat_sub_of_le _ _ one]
  rfl

theorem InOrder.maxChunk_pos (order : g.InOrder) : 0 < g.maxChunk := by
  rw [order.maxChunk_eq]
  exact Nat.lt_min.mpr ⟨order.fullChunk_pos, by decide⟩

/-- A request whose bytes a word can count is cut into full chunks and a last one. -/
theorem InOrder.chunkSizes_maxChunk (order : g.InOrder) (pos : 0 < n) (word : n < UInt64.size) :
    chunkSizes g.maxChunk n =
      List.replicate (g.chunkCount n - 1) g.fullChunk ++ [g.lastChunk n] := by
  rw [lastChunk, chunkCount, ← chunkSizes_eq order.fullChunk_pos pos, order.maxChunk_eq]
  rcases Nat.le_total g.fullChunk (UInt64.size - 1) with fits | saturated
  · rw [Nat.min_eq_left fits]
  · have le : n ≤ UInt64.size - 1 := Nat.le_sub_one_of_lt word
    rw [Nat.min_eq_right saturated, chunkSizes_of_le pos le,
      chunkSizes_of_le pos (Nat.le_trans le saturated)]

/-- The account of a request. -/
theorem AfterChunks.accounts {next : FastGenerator} {ps : List Precaution} (order : g.InOrder)
    (free : g.inFlight = false) (pos : 0 < n)
    (after : AfterChunks g (List.replicate (g.chunkCount n - 1) g.fullChunk ++ [g.lastChunk n])
      ps next) : Accounts g n ps next := by
  obtain ⟨lastPos, short⟩ := order.lastChunk_bounds pos
  rcases eq : g.chunkCount n with _ | _ | k
  · exact absurd eq (Nat.ne_of_gt (order.chunkCount_pos pos))
  · have whole : g.lastChunk n = n := by
      rw [lastChunk, eq]
      omega
    rw [eq, whole] at after
    exact after.accounts_one order free eq (whole ▸ short)
  · have long : g.fullChunk ≤ n := by
      rw [lastChunk, eq, Nat.add_sub_cancel, Nat.succ_mul] at lastPos
      omega
    rw [eq, Nat.add_sub_cancel, List.replicate_succ, List.cons_append] at after
    exact after.accounts_many order free eq long lastPos short

/-- A background reseed is among the precautions where their number says so. -/
theorem Accounts.schedule_mem_iff {next : FastGenerator} {ps : List Precaution}
    (accounts : Accounts g n ps next) : .schedule ∈ ps ↔ g.Schedules n := by
  have counted : .schedule ∈ ps ↔ 0 < (ps.map Precaution.schedules).sum := by
    rw [List.sum_pos_iff_exists_pos_nat]
    constructor
    · intro member
      exact ⟨1, List.mem_map.mpr ⟨_, member, rfl⟩, Nat.one_pos⟩
    · rintro ⟨k, member, pos⟩
      obtain ⟨p, among, rfl⟩ := List.mem_map.mp member
      cases p with
      | schedule => exact among
      | reseed blocks => exact absurd pos (Nat.lt_irrefl 0)
      | none => exact absurd pos (Nat.lt_irrefl 0)
  rw [counted, accounts.schedules_eq]
  split <;> simp_all

/-- One request of `n` bytes, which a word can count, to a generator in order without
a background reseed on its way.  It stops at a draw that fails.  Otherwise it brings all its bytes; before
its chunks it performs `reseedsOf n` reseeds, each after a block at least, and
schedules one background reseed where `Schedules n` says so and none elsewhere; and
it leaves the block count at `countAfter n`.  It logs each reseed, with the blocks
before it, and nothing else, unless draws are logged too. -/
theorem fill_accounts (supply : Supply τ) (order : g.InOrder) (free : g.inFlight = false)
    (live : g.disposed = false) (pos : 0 < n) (word : n < UInt64.size) (t : Traced τ) :
    (∃ e, (g.fill supply n t).1.1.failure = some e ∧
      supply.Stops g.seedSize e (g.fill supply n t).2) ∨
    ((g.fill supply n t).1.1.failure = none ∧ (g.fill supply n t).1.1.bytes.length = n ∧
      Accounts g n (precautions supply (chunkSizes g.maxChunk n) g t) (g.fill supply n t).1.2 ∧
      (supply.Silent → (g.fill supply n t).2.events = t.events ++
        (precautions supply (chunkSizes g.maxChunk n) g t).flatMap Precaution.events) ∧
      (g.fill supply n t).1.2.reseedCount = g.reseedCount + UInt64.ofNat (g.reseedsOf n) ∧
      ((g.fill supply n t).1.2.inFlight = true ↔ g.Schedules n) ∧
      (g.fill supply n t).1.2.background =
        if g.Schedules n then .scheduled else g.background) := by
  have filled : g.fill supply n t = g.chunks supply (chunkSizes g.maxChunk n) t := by
    rw [FastGenerator.fill, if_neg (Nat.ne_of_gt pos), live]
    rfl
  have cut := order.chunkSizes_maxChunk pos word
  have short : ∀ size ∈ chunkSizes g.maxChunk n, size ≤ g.fullChunk := by
    intro size member
    rw [cut, List.mem_append, List.mem_replicate, List.mem_singleton] at member
    rcases member with ⟨-, rfl⟩ | rfl
    · exact Nat.le_refl _
    · exact (order.lastChunk_bounds pos).2
  have total := sum_chunkSizes order.maxChunk_pos n
  rw [filled]
  rcases order.chunks_cases short supply t with
    stopped | ⟨met, length, events, after⟩
  · exact .inl stopped
  · have tally := after.tally
    have accounts : Accounts g n (precautions supply (chunkSizes g.maxChunk n) g t)
        (g.chunks supply (chunkSizes g.maxChunk n) t).1.2 := by
      rw [cut] at after ⊢
      exact after.accounts order free pos
    refine .inr ⟨met, length.trans total, accounts, events, ?_, ?_, ?_⟩
    · rw [tally.reseedCount_eq, accounts.reseeds_eq]
    · rw [tally.inFlight_iff, accounts.schedule_mem_iff, free]
      simp
    · rw [tally.background_eq]
      simp only [accounts.schedule_mem_iff]

end Request

/-! ### Three chunks, the last one of part of a block -/

/-- A digest of two bytes. -/
def doublet : Digest where
  name := "doublet"
  bits := 16
  hash data := [data.foldl (· + ·) 0, 1]

/-- A generator that reseeds past six blocks, three blocks after its seed. -/
def thirdBlock : FastGenerator :=
  { (unseeded Session.six doublet false).applySeed [0, 0] with blockCount := 3 }

/-- Twenty-one bytes in chunks of ten: the first two chunks reseed, and the last
byte stops just short of the hard threshold and schedules a background reseed. -/
theorem fill_accounts_doublet : ∃ answer next t',
    thirdBlock.fill Session.counting 21 ⟨1, []⟩ = ((answer, next), t') ∧
    thirdBlock.InOrder ∧ thirdBlock.inFlight = false ∧ thirdBlock.disposed = false ∧
    0 < 21 ∧ 21 < UInt64.size ∧ answer.failure = none ∧ answer.bytes.length = 21 ∧
    Accounts thirdBlock 21 [.reseed 3, .reseed 5, .schedule] next ∧
    t'.events = [.reseeded 3, .reseeded 5] ∧ next.reseedCount = 2 ∧ next.inFlight = true ∧
    next.background = .scheduled ∧ next.blockCount.toNat = 6 := by
  have order : thirdBlock.InOrder := {
    valid := rfl
    small := by decide
    honours := fun _ => rfl
    sizePos := by decide
    announced := rfl
    within := by decide }
  have word : 21 < UInt64.size := by decide
  have schedules : thirdBlock.Schedules 21 := by decide +kernel
  have done : precautions Session.counting (chunkSizes thirdBlock.maxChunk 21) thirdBlock ⟨1, []⟩ =
      [.reseed 3, .reseed 5, .schedule] := by
    decide +kernel
  rcases fill_accounts Session.counting order rfl rfl (by decide) word ⟨1, []⟩ with
    ⟨e, -, t, refused⟩ | ⟨met, length, accounts, logged, reseeds, flag, background⟩
  · exact nomatch refused
  · rw [done] at accounts logged
    rw [if_pos schedules] at background
    exact ⟨_, _, _, rfl, order, rfl, rfl, by decide, word, met, length, accounts,
      logged fun _ _ => rfl, reseeds.trans (by decide +kernel), flag.mpr schedules, background,
      accounts.blockCount_eq.trans (by decide +kernel)⟩

end FastGenerator

end EntropySeal
