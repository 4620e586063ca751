import EntropySeal.Proofs.Generator.Reseeding

/-!
# Requests that a failed reseed interrupts

A request to a live generator fails only where a reseed before one of its chunks
cannot draw a seed.  What it did until then is what a request for the chunks
before does (`StopsBefore`): it brought the same bytes, left the rest of the
buffer alone, and left the same generator.  A later request that still projects
past the hard threshold begins with another draw (`SeedsFirst`).
-/

namespace EntropySeal

open Stretcher (Act blocksFor blocksFor_mul)

variable {τ : Type}

namespace FastGenerator

variable {g : FastGenerator}

/-! ## Chunks before another one -/

/-- Before any chunk of a request there are full chunks only, and it holds what
fits a chunk of the rest. -/
theorem chunkSizes_split {size n k : Nat} {before after : List Nat}
    (cut : chunkSizes size n = before ++ k :: after) :
    before = List.replicate before.length size ∧ before.length * size < n ∧
      k = min size (n - before.length * size) := by
  induction before generalizing n with
  | nil =>
      rw [chunkSizes] at cut
      split at cut
      · cases cut
      next more =>
        have first := (List.cons.inj cut).1
        rw [List.length_nil, Nat.zero_mul, Nat.sub_zero]
        exact ⟨rfl, by omega, first.symm⟩
  | cons b before ih =>
      rw [chunkSizes] at cut
      split at cut
      · cases cut
      next more =>
        obtain ⟨first, rest⟩ := List.cons.inj cut
        obtain ⟨full, inside, last⟩ := ih rest
        -- Something is left after this chunk, so it is not cut short.
        have whole : b = size := by omega
        rw [List.length_cons, Nat.succ_mul, List.replicate_succ, ← full, whole]
        refine ⟨rfl, by omega, ?_⟩
        rw [last]
        omega

/-- Full chunks make up a request of their own. -/
theorem chunkSizes_mul {size : Nat} (sizePos : 0 < size) (i : Nat) :
    chunkSizes size (i * size) = List.replicate i size := by
  cases i with
  | zero => rw [Nat.zero_mul, chunkSizes, if_pos (.inl rfl), List.replicate_zero]
  | succ i =>
      have count : blocksFor size ((i + 1) * size) = i + 1 := by
        rw [Nat.mul_comm, blocksFor_mul sizePos]
      rw [chunkSizes_eq sizePos (Nat.mul_pos i.succ_pos sizePos), count, Nat.add_sub_cancel,
        Nat.succ_mul, Nat.add_sub_cancel_left, List.replicate_succ']

/-! ## One chunk -/

/-- A reseed that holds the flag fails as its draw does, and changes nothing
then. -/
theorem run_reseedHolding (supply : Supply τ) (g : FastGenerator) (t : Traced τ) :
    g.reseedHolding supply t =
      match (supply.draw g.seedSize).toAction t with
      | (.error e, t') => ((.error e, g), t')
      | (.ok seed, t') =>
          ((.ok (), g.applyReseed seed),
            { t' with events := t'.events ++ [.reseeded g.blockCount] }) := by
  simp only [reseedHolding, reseedNow, Action.run_bind]
  rcases (supply.draw g.seedSize).toAction t with ⟨result, t'⟩
  cases result <;> rfl

/-- Past the hard threshold a chunk is generated after a seed was drawn. -/
theorem run_chunk_above {size : Nat} (above : g.policy.hard < g.projected size)
    (supply : Supply τ) (t : Traced τ) :
    g.chunk supply size t =
      match (supply.draw g.seedSize).toAction t with
      | (.error e, t') => ((.error e, g), t')
      | (.ok seed, t') =>
          match (g.applyReseed seed).generate size with
          | .error e =>
              ((.error e, g.applyReseed seed),
                { t' with events := t'.events ++ [.reseeded g.blockCount] })
          | .ok (bytes, next) =>
              ((.ok bytes, next),
                { t' with events := t'.events ++ [.reseeded g.blockCount] }) := by
  rw [chunk, Action.run_bind, prepare, if_pos above, run_reseedHolding]
  rcases (supply.draw g.seedSize).toAction t with ⟨result, t'⟩
  cases result with
  | error e => rfl
  | ok seed =>
      simp only
      cases (g.applyReseed seed).generate size <;> rfl

/-- Past the hard threshold the precaution is a reseed. -/
theorem precaution_above {size : Nat} (above : g.policy.hard < g.projected size) :
    g.precaution size = .reseed g.blockCount.toNat := by
  rw [precaution, if_pos above]

/-- Within the hard threshold a chunk is served. -/
theorem InOrder.exists_chunk (order : g.InOrder) {size : Nat} (short : size ≤ g.fullChunk)
    (within : ¬g.policy.hard < g.projected size) (supply : Supply τ) (t : Traced τ) :
    ∃ bytes next, g.chunk supply size t = ((.ok bytes, next), t) := by
  obtain ⟨bytes, next, generated, -, -⟩ := order.generate short []
  have prepared : g.prepare supply size t = ((.ok (), g.after [] (g.precaution size)), t) := by
    rw [prepare, precaution, if_neg within, if_neg within]
    split <;> rfl
  refine ⟨bytes, next, ?_⟩
  rw [chunk, Action.run_bind, prepared]
  simp only [generated]
  rfl

/-- A chunk that fails has asked for a seed in vain, and changed nothing. -/
theorem InOrder.chunk_failed (order : g.InOrder) {size : Nat} (short : size ≤ g.fullChunk)
    {supply : Supply τ} {t t' : Traced τ} {e : Error} {next : FastGenerator}
    (failed : g.chunk supply size t = ((.error e, next), t')) :
    next = g ∧ g.policy.hard < g.projected size ∧
      (supply.draw g.seedSize).toAction t = (.error e, t') := by
  by_cases above : g.policy.hard < g.projected size
  · rw [run_chunk_above above] at failed
    rcases drawn : (supply.draw g.seedSize).toAction t with ⟨result, t₁⟩
    rw [drawn] at failed
    cases result with
    | error e' =>
        cases failed
        exact ⟨rfl, above, rfl⟩
    | ok seed =>
        obtain ⟨bytes, later, generated, -, -⟩ := order.generate short seed
        rw [precaution_above above] at generated
        change (g.applyReseed seed).generate size = .ok (bytes, later) at generated
        simp only [generated] at failed
        cases failed
  · obtain ⟨bytes, later, served⟩ := order.exists_chunk short above supply t
    rw [served] at failed
    cases failed

/-! ## Chunks one after the other -/

/-- Once a chunk was served, the others follow with what it left. -/
theorem chunks_cons_served {supply : Supply τ} {size : Nat} {bytes : Bytes}
    {next : FastGenerator} {t t' : Traced τ}
    (served : g.chunk supply size t = ((.ok bytes, next), t')) (sizes : List Nat) :
    g.chunks supply (size :: sizes) t =
      (({ (next.chunks supply sizes t').1.1 with
          bytes := bytes ++ (next.chunks supply sizes t').1.1.bytes },
        (next.chunks supply sizes t').1.2), (next.chunks supply sizes t').2) := by
  rw [chunks, Action.run_bind, served]
  rfl

/-- Some chunks were served, and the next one, of `size` bytes, asked in vain for
a seed, which ended the request with this outcome. -/
structure Interrupts (supply : Supply τ) (g : FastGenerator) (t : Traced τ) (before : List Nat)
    (size : Nat) (e : Error) (outcome : (Delivery × FastGenerator) × Traced τ) : Prop where
  served : (g.chunks supply before t).1.1.failure = none
  length : (g.chunks supply before t).1.1.bytes.length = before.sum
  order : (g.chunks supply before t).1.2.InOrder
  fullChunk_eq : (g.chunks supply before t).1.2.fullChunk = g.fullChunk
  above : g.policy.hard < (g.chunks supply before t).1.2.projected size
  refused : (supply.draw g.seedSize).toAction (g.chunks supply before t).2 = (.error e, outcome.2)
  outcome_eq : outcome.1 =
    (⟨(g.chunks supply before t).1.1.bytes, some e⟩, (g.chunks supply before t).1.2)

/-- Chunks fail at one of them, which those before it lead up to. -/
theorem InOrder.exists_interrupts (order : g.InOrder) {sizes : List Nat}
    (short : ∀ size ∈ sizes, size ≤ g.fullChunk) {supply : Supply τ} {t : Traced τ} {e : Error}
    (failed : (g.chunks supply sizes t).1.1.failure = some e) :
    ∃ before size after, sizes = before ++ size :: after ∧
      Interrupts supply g t before size e (g.chunks supply sizes t) := by
  induction sizes generalizing g t with
  | nil => cases failed
  | cons size sizes ih =>
      obtain ⟨first, later⟩ := List.forall_mem_cons.mp short
      rcases order.chunk_cases first supply t with
        ⟨e', next, t', stopped, -⟩ | ⟨bytes, next, t', served, length, -, after⟩
      · obtain ⟨rfl, above, refused⟩ := order.chunk_failed first stopped
        rw [chunks, Action.run_bind, stopped] at failed ⊢
        cases failed
        exact ⟨[], size, sizes, rfl, rfl, rfl, order, rfl, above, refused, rfl⟩
      · rw [chunks_cons_served served] at failed ⊢
        rw [← after.fullChunk_eq] at later
        obtain ⟨before, size', rest, rfl, stops⟩ := ih (after.inOrder order first) later failed
        have first := chunks_cons_served served before
        refine ⟨size :: before, size', rest, rfl, ?_⟩
        exact {
          served := by
            rw [first]
            exact stops.served
          length := by
            rw [first, List.sum_cons, ← length, ← stops.length]
            exact List.length_append
          order := by
            rw [first]
            exact stops.order
          fullChunk_eq := by
            rw [first]
            exact stops.fullChunk_eq.trans after.fullChunk_eq
          above := by
            rw [first, ← after.policy_eq]
            exact stops.above
          refused := by
            rw [first, ← after.seedSize_eq]
            exact stops.refused
          outcome_eq := by
            rw [first, stops.outcome_eq] }

/-! ## The whole request -/

/-- A live generator fills buffers chunk by chunk, also an empty one. -/
theorem fill_eq_chunks (live : g.disposed = false) (supply : Supply τ) (n : Nat)
    (t : Traced τ) : g.fill supply n t = g.chunks supply (chunkSizes g.maxChunk n) t := by
  rw [fill, live]
  split
  next nothing =>
    rw [nothing, chunkSizes, if_pos (.inl rfl)]
    rfl
  next => rfl

/-- The reseed before chunk `i` of a request of `n` bytes fails with `e`. -/
structure StopsBefore (supply : Supply τ) (g : FastGenerator) (n : Nat) (t : Traced τ)
    (e : Error) (i : Nat) : Prop where
  inside : i * g.fullChunk < n
  /-- A request for the chunks before brings all of its bytes. -/
  served : (g.fill supply (i * g.fullChunk) t).1.1.failure = none ∧
    (g.fill supply (i * g.fullChunk) t).1.1.bytes.length = i * g.fullChunk
  /-- These are at the beginning of the buffer, and the rest of it is as it was. -/
  buffer : ∀ buffer : Bytes, buffer.length = n →
    (g.fill supply n t).1.1.writtenTo buffer =
      (g.fill supply (i * g.fullChunk) t).1.1.bytes ++ buffer.drop (i * g.fullChunk)
  /-- The generator is as the request for the chunks before leaves it. -/
  next_eq : (g.fill supply n t).1.2 = (g.fill supply (i * g.fullChunk) t).1.2
  above : g.policy.hard.toNat < (g.fill supply n t).1.2.firstProjection (n - i * g.fullChunk)
  /-- The error is that of a draw from where this request leaves the supply. -/
  refused : (supply.draw g.seedSize).toAction (g.fill supply (i * g.fullChunk) t).2 =
    (.error e, (g.fill supply n t).2)

/-- With a request that a word can count, full chunks before another one are as
long as the policy allows. -/
theorem InOrder.mul_maxChunk (order : g.InOrder) {n i : Nat} (word : n < UInt64.size)
    (inside : i * g.maxChunk < n) : i * g.maxChunk = i * g.fullChunk := by
  rw [order.maxChunk_eq] at inside ⊢
  rcases Nat.le_total g.fullChunk (UInt64.size - 1) with fits | saturated
  · rw [Nat.min_eq_left fits]
  · rw [Nat.min_eq_right saturated] at inside
    cases i with
    | zero => rw [Nat.zero_mul, Nat.zero_mul]
    | succ i =>
        have one : UInt64.size - 1 ≤ (i + 1) * (UInt64.size - 1) :=
          Nat.le_mul_of_pos_left _ i.succ_pos
        omega

/-- A request that fails is stopped by a reseed. -/
theorem InOrder.exists_stopsBefore (order : g.InOrder) (live : g.disposed = false) {n : Nat}
    (word : n < UInt64.size) {supply : Supply τ} {t : Traced τ} {e : Error}
    (failed : (g.fill supply n t).1.1.failure = some e) :
    ∃ i, StopsBefore supply g n t e i := by
  rw [fill_eq_chunks live] at failed
  have short : ∀ size ∈ chunkSizes g.maxChunk n, size ≤ g.fullChunk := by
    intro size member
    rw [order.maxChunk_eq] at member
    exact Nat.le_trans (le_of_mem_chunkSizes member) (Nat.min_le_left _ _)
  obtain ⟨before, size, after, cut, stops⟩ := order.exists_interrupts short failed
  obtain ⟨full, inside, last⟩ := chunkSizes_split cut
  have same := order.mul_maxChunk word inside
  have led : g.fill supply (before.length * g.fullChunk) t = g.chunks supply before t := by
    rw [← same, fill_eq_chunks live, chunkSizes_mul order.maxChunk_pos, ← full]
  have total : before.sum = before.length * g.fullChunk := by
    rw [← same, ← List.sum_replicate_nat, ← full]
  rw [same] at inside last
  have size_eq : size = min (n - before.length * g.fullChunk) g.fullChunk := by
    rw [last, order.maxChunk_eq]
    omega
  have allowed : size ≤ (g.chunks supply before t).1.2.fullChunk := by
    rw [stops.fullChunk_eq, size_eq]
    exact Nat.min_le_right _ _
  have projection := stops.order.toNat_projected allowed
  have above := UInt64.lt_iff_toNat_lt.mp stops.above
  have written := congrArg Prod.fst stops.outcome_eq
  have left := congrArg Prod.snd stops.outcome_eq
  rw [← fill_eq_chunks live] at written left
  exact ⟨before.length, {
    inside
    served := by
      rw [led]
      exact ⟨stops.served, stops.length.trans total⟩
    buffer := by
      intro buffer length
      have reached := stops.length.trans total
      rw [led, written, Delivery.writtenTo_eq (by simp only; omega)]
      simp only [reached]
    next_eq := by
      rw [led]
      exact left
    above := by
      rw [left, firstProjection, stops.fullChunk_eq, ← size_eq, ← projection]
      exact above
    refused := by
      rw [led, fill_eq_chunks live]
      exact stops.refused }⟩

/-! ## Later requests -/

/-- A request of `n` bytes draws a seed before it generates anything.  If there is
none, nothing changes.  Otherwise the first chunk is generated from the reseeded
generator, and the others follow. -/
def SeedsFirst (supply : Supply τ) (g : FastGenerator) (n : Nat) (t : Traced τ) : Prop :=
  match (supply.draw g.seedSize).toAction t with
  | (.error e, t') => g.fill supply n t = ((.failed e, g), t')
  | (.ok seed, t') =>
      ∃ bytes next, (g.applyReseed seed).generate (min g.maxChunk n) = .ok (bytes, next) ∧
        let rest := next.chunks supply (chunkSizes g.maxChunk (n - min g.maxChunk n))
          { t' with events := t'.events ++ [.reseeded g.blockCount] }
        g.fill supply n t =
          (({ rest.1.1 with bytes := bytes ++ rest.1.1.bytes }, rest.1.2), rest.2)

/-- A request that projects past the hard threshold draws a seed first. -/
theorem InOrder.seedsFirst (order : g.InOrder) (live : g.disposed = false) {n : Nat}
    (pos : 0 < n) (word : n < UInt64.size)
    (above : g.policy.hard.toNat < g.firstProjection n) (supply : Supply τ) (t : Traced τ) :
    SeedsFirst supply g n t := by
  have chunkPos := order.maxChunk_pos
  have some : ¬(n = 0 ∨ g.maxChunk = 0) := by omega
  have first : min g.maxChunk n = min n g.fullChunk := by
    rw [order.maxChunk_eq]
    omega
  have short : min g.maxChunk n ≤ g.fullChunk := by
    rw [first]
    exact Nat.min_le_right _ _
  have past : g.policy.hard < g.projected (min g.maxChunk n) := by
    rw [UInt64.lt_iff_toNat_lt, order.toNat_projected short, first]
    exact above
  have served := run_chunk_above past supply t
  rw [SeedsFirst, fill_eq_chunks live, chunkSizes, if_neg some]
  rcases drawn : (supply.draw g.seedSize).toAction t with ⟨result, t'⟩
  rw [drawn] at served
  cases result with
  | error e =>
      simp only
      rw [chunks, Action.run_bind, served]
      rfl
  | ok seed =>
      obtain ⟨bytes, next, generated, -, -⟩ := order.generate short seed
      rw [precaution_above past] at generated
      change (g.applyReseed seed).generate (min g.maxChunk n) = .ok (bytes, next) at generated
      simp only [generated] at served
      exact ⟨bytes, next, generated, chunks_cons_served served _⟩

end FastGenerator

namespace Session

open FastGenerator (InOrder StopsBefore SeedsFirst)

variable {policy : ReseedPolicy} {digest : Digest} {seeded : Stretcher} {history : List Act}
  {s : Session τ}

/-- A session that keeps its accounts has its generator in order. -/
theorem Kept.inOrder (kept : Kept policy digest seeded history s)
    (valid : policy.validate = .ok ()) (honours : digest.Honours) (sizePos : 0 < digest.size)
    (small : policy.hard.toNat < Nat.pow 2 63) : s.generator.InOrder where
  valid := kept.accounted.policy_eq ▸ valid
  small := kept.accounted.policy_eq ▸ small
  honours := kept.accounted.digest_eq ▸ honours
  sizePos := kept.accounted.digestSize_eq ▸ sizePos
  announced := by rw [kept.accounted.digestSize_eq, kept.accounted.digest_eq]
  within := by
    rw [kept.accounted.blockCount_eq, kept.accounted.policy_eq]
    exact kept.accounted.le_hard

/-- In every run of a generator that was made: a request that fails although the
generator was not disposed is stopped by the reseed before one of its chunks, and
is until then a request for the chunks before.  From what it leaves, whatever
happens next, a request that projects past the hard threshold draws a seed before
it generates anything. -/
theorem fill_interrupted {supply : Supply τ} {ownsSupply : Bool} {t t' : Traced τ}
    {g : FastGenerator}
    (made : (FastGenerator.make supply policy digest ownsSupply).toAction t = (.ok g, t'))
    (honours : digest.Honours) (small : policy.hard.toNat < Nat.pow 2 63)
    (run : Run supply (start g t') history s) (free : s.holder = none)
    (live : s.generator.disposed = false) {n : Nat} (word : n < UInt64.size) {e : Error}
    (failed : (s.generator.fill supply n s.world).1.1.failure = some e) :
    (∃ i, StopsBefore supply s.generator n s.world e i) ∧
    ∀ last : Session τ, last.holder = none →
      last.generator = (s.generator.fill supply n s.world).1.2 →
      ∀ acts later, Run supply last acts later → later.generator.disposed = false →
        ∀ m, 0 < m → m < UInt64.size →
          policy.hard.toNat < later.generator.firstProjection m →
          SeedsFirst supply later.generator m later.world := by
  obtain ⟨valid, sizePos, -⟩ := FastGenerator.make_cases made
  obtain ⟨softPos, below, -⟩ := policy.validate_eq_ok_iff.mp valid
  have positive : 0 < policy.hard.toNat :=
    Nat.lt_trans (UInt64.lt_iff_toNat_lt.mp softPos) (UInt64.lt_iff_toNat_lt.mp below)
  obtain ⟨seed, first⟩ := kept_start made
  have kept := run.kept first honours sizePos positive small
  refine ⟨(kept.inOrder valid honours sizePos small).exists_stopsBefore live word failed, ?_⟩
  intro last unheld left acts later further going m pos fits above
  obtain ⟨acts', ended, filling, -, reached⟩ := completes_fill supply free n
  have after := filling.kept_append kept honours.ample sizePos positive small
  have same : ended.generator = last.generator := (congrArg Prod.fst reached).trans left.symm
  have resumed : Kept policy digest _ (history ++ acts') last :=
    ⟨same ▸ after.accounted, by simp [unheld]⟩
  have kept' := further.kept_append resumed honours.ample sizePos positive small
  rw [← kept'.accounted.policy_eq] at above
  exact (kept'.inOrder valid honours sizePos small).seedsFirst going pos fits above supply _

/-! ### Two seeds for three chunks -/

/-- Seeds of a byte that counts them, two in all. -/
def pour (n : Nat) : Attempt UInt8 Bytes :=
  ExceptT.mk fun t =>
    if t.world < 2 then (.ok (List.replicate n t.world), { t with world := t.world + 1 })
    else (.error (.sourceFailed "cask" "empty"), t)

/-- A supply of two seeds. -/
def cask : Supply UInt8 where
  draw := pour
  drawInBackground := pour
  dispose := pure ()

/-- What three bytes of a generator of the narrow policy come to. -/
def overdrawn : (Delivery × FastGenerator) × Traced UInt8 :=
  narrowed.fill cask 3 ⟨1, []⟩

/-- The first chunk schedules a background reseed, the second one takes the last
seed, and the third one fails.  The next request fails as well, before it
generates anything. -/
theorem fill_interrupted_cask :
    (FastGenerator.make cask narrow checksum false).toAction ⟨0, []⟩ =
      (.ok narrowed, ⟨1, []⟩) ∧
    checksum.Honours ∧ narrow.hard.toNat < Nat.pow 2 63 ∧
    Run cask (start narrowed ⟨1, []⟩) [] (start narrowed ⟨1, []⟩) ∧
    narrowed.disposed = false ∧ 3 < UInt64.size ∧
    overdrawn.1.1.failure = some (.sourceFailed "cask" "empty") ∧
    overdrawn.1.1.bytes.length = 2 ∧ overdrawn.1.2.reseedCount = 1 ∧
    overdrawn.1.2.inFlight = true ∧
    (∃ i, StopsBefore cask narrowed 3 ⟨1, []⟩ (.sourceFailed "cask" "empty") i) ∧
    narrow.hard.toNat < overdrawn.1.2.firstProjection 1 ∧
    SeedsFirst cask overdrawn.1.2 1 overdrawn.2 := by
  have made : (FastGenerator.make cask narrow checksum false).toAction ⟨0, []⟩ =
      (.ok narrowed, ⟨1, []⟩) := rfl
  have honours : checksum.Honours := fun _ => rfl
  have small : narrow.hard.toNat < Nat.pow 2 63 := by decide
  have run : Run cask (start narrowed ⟨1, []⟩) [] (start narrowed ⟨1, []⟩) := .nothing
  have failed : overdrawn.1.1.failure = some (.sourceFailed "cask" "empty") := by
    decide +kernel
  have above : narrow.hard.toNat < overdrawn.1.2.firstProjection 1 := by decide +kernel
  have live : overdrawn.1.2.disposed = false := by decide +kernel
  obtain ⟨stops, later⟩ := fill_interrupted made honours small run rfl rfl (by decide) failed
  have again := later (start overdrawn.1.2 overdrawn.2) rfl rfl [] _ .nothing live 1
    Nat.one_pos (by decide) above
  exact ⟨made, honours, small, run, rfl, by decide, failed, by decide +kernel,
    by decide +kernel, by decide +kernel, stops, above, again⟩

end Session

end EntropySeal
