import EntropySeal.Proofs.Generator.Reseeding
import Mathlib.Algebra.BigOperators.Ring.List

/-!
# Requests in pieces

While the projected block count stays within the soft threshold, a request does
nothing but generate blocks: before its only chunk nothing is drawn and nothing
is scheduled (`Follows.fill_calm`).  Every request starts a new block and drops
what it leaves over of the last one.  So if every piece but the last one takes
whole blocks, nothing is dropped between the pieces, and they bring what one
request for all of them brings (`fills_eq_fill`).

The hard threshold may be any number here.  All that is needed of the
generator's past is that it still follows its policy and its digest, which every
step of a session keeps (`Session.Run.follows`).
-/

namespace EntropySeal

open Stretcher (Act blocksFor blocksFor_mul blocksFor_add_of_dvd bytes_served_add)

variable {τ : Type}

namespace FastGenerator

variable {policy : ReseedPolicy} {digest : Digest} {g : FastGenerator}

/-! ## Policy and digest -/

/-- The generator goes by this policy and stretches with this digest. -/
structure Follows (policy : ReseedPolicy) (digest : Digest) (g : FastGenerator) : Prop where
  policy_eq : g.policy = policy
  digest_eq : g.stretcher.digest = digest
  digestSize_eq : g.digestSize = digest.size

/-- The generator after `k` more blocks. -/
def advance (g : FastGenerator) (k : Nat) : FastGenerator :=
  { g with
    stretcher := g.stretcher.after k
    blockCount := g.blockCount + UInt64.ofNat k }

theorem advance_add (g : FastGenerator) (j k : Nat) :
    g.advance (j + k) = (g.advance j).advance k := by
  simp only [advance, Stretcher.after_add, UInt64.ofNat_add, UInt64.add_assoc]

theorem advance_zero (g : FastGenerator) : g.advance 0 = g := by
  simp [advance, Stretcher.after]

theorem Follows.advance (follows : Follows policy digest g) (k : Nat) :
    Follows policy digest (g.advance k) where
  policy_eq := follows.policy_eq
  digest_eq := (Stretcher.digest_after _ _).trans follows.digest_eq
  digestSize_eq := follows.digestSize_eq

/-- A chunk is served from the blocks that hold it, and these are counted. -/
theorem Follows.generate (follows : Follows policy digest g) (honours : digest.Honours)
    (sizePos : 0 < digest.size) (n : Nat) :
    g.generate n = .ok ((g.stretcher.served n (blocksFor digest.size n)).bytes,
      g.advance (blocksFor digest.size n)) := by
  obtain rfl := follows.digest_eq
  rw [FastGenerator.generate, Stretcher.nextBytes_eq honours sizePos]
  rfl

theorem Follows.reseedNow (follows : Follows policy digest g) (supply : Supply τ)
    (t : Traced τ) : Follows policy digest (g.reseedNow supply t).1.2 := by
  rcases g.reseedNow_cases supply t with ⟨e, t', failed⟩ | ⟨seed, t', applied⟩
  · rw [failed]
    exact follows
  · rw [applied]
    exact ⟨follows.policy_eq, follows.digest_eq, follows.digestSize_eq⟩

end FastGenerator

namespace Session

open FastGenerator (Follows)

variable {supply : Supply τ} {policy : ReseedPolicy} {digest : Digest} {s next : Session τ}
  {acts : List Act}

theorem follows_hold (follows : Follows policy digest s.generator) (honours : digest.Honours)
    (sizePos : 0 < digest.size) : Follows policy digest (s.hold supply).2.generator := by
  unfold Session.hold
  split
  next => exact follows
  next => exact follows
  next size rest _ =>
    rw [Session.look]
    split
    · exact ⟨follows.policy_eq, follows.digest_eq, follows.digestSize_eq⟩
    · split
      · exact ⟨follows.policy_eq, follows.digest_eq, follows.digestSize_eq⟩
      · exact follows
  next => exact follows.reseedNow supply s.world
  next claimed result size rest _ =>
    cases claimed with
    | false => exact follows
    | true => exact ⟨follows.policy_eq, follows.digest_eq, follows.digestSize_eq⟩
  next size rest _ =>
    rw [follows.generate honours sizePos]
    exact follows.advance _

/-- No step changes the policy or the digest. -/
theorem Step.follows (step : Step supply s acts next)
    (follows : Follows policy digest s.generator) (honours : digest.Honours)
    (sizePos : 0 < digest.size) : Follows policy digest next.generator := by
  cases step with
  | request n => exact follows
  | hold => exact follows_hold follows honours sizePos
  | demand => exact follows.reseedNow supply s.world
  | background i step =>
      rcases background_cases step with
        ⟨_, _, _, _, rfl⟩ | ⟨_, _, _, _, _, rfl⟩ |
        ⟨_, _, _, ⟨_, _, rfl⟩ | ⟨_, _, _, rfl⟩⟩ | ⟨_, _, _, _, _, rfl⟩
      all_goals exact ⟨follows.policy_eq, follows.digest_eq, follows.digestSize_eq⟩
  | unstarted => exact ⟨follows.policy_eq, follows.digest_eq, follows.digestSize_eq⟩
  | dispose =>
      have disposed := s.generator.dispose_fst supply s.world
      change Follows policy digest (s.generator.dispose supply s.world).1
      rw [disposed]
      exact ⟨follows.policy_eq, follows.digest_eq, follows.digestSize_eq⟩
  | others => exact follows

theorem Run.follows (run : Run supply s acts next)
    (follows : Follows policy digest s.generator) (honours : digest.Honours)
    (sizePos : 0 < digest.size) : Follows policy digest next.generator := by
  induction run with
  | nothing => exact follows
  | step _ step ih => exact step.follows ih honours sizePos

theorem follows_start {ownsSupply : Bool} {t t' : Traced τ} {g : FastGenerator}
    (made : (FastGenerator.make supply policy digest ownsSupply).toAction t = (.ok g, t')) :
    Follows policy digest (start g t').generator := by
  obtain ⟨-, -, seed, rfl⟩ := FastGenerator.make_cases made
  exact ⟨rfl, rfl, rfl⟩

end Session

namespace FastGenerator

variable {policy : ReseedPolicy} {digest : Digest} {g : FastGenerator} {m n : Nat}

/-! ## Calm requests -/

/-- A request of `n` bytes stays within the soft threshold. -/
def Calm (g : FastGenerator) (n : Nat) : Prop :=
  g.blockCount.toNat + 1 + n / g.digestSize ≤ g.policy.soft.toNat

theorem Calm.mono (calm : g.Calm n) (le : m ≤ n) : g.Calm m :=
  Nat.le_trans (Nat.add_le_add_left (Nat.div_le_div_right le) _) calm

theorem Calm.toNat_projected (calm : g.Calm n) :
    (g.projected n).toNat = g.blockCount.toNat + 1 + n / g.digestSize := by
  have range := g.policy.soft.toNat_lt
  unfold Calm at calm
  simp only [projected, UInt64.toNat_add, UInt64.toNat_ofNat', UInt64.reduceToNat]
  generalize n / g.digestSize = whole at calm ⊢
  omega

/-- Nothing is done before a calm chunk. -/
theorem Calm.precaution_eq (calm : g.Calm n) (below : g.policy.soft < g.policy.hard) :
    g.precaution n = .none := by
  have within : g.projected n ≤ g.policy.soft := by
    rw [UInt64.le_iff_toNat_le, calm.toNat_projected]
    exact calm
  have underHard : ¬g.projected n > g.policy.hard :=
    UInt64.not_lt.mpr (UInt64.le_of_lt (UInt64.lt_of_le_of_lt within below))
  have underSoft : ¬(g.projected n > g.policy.soft ∧ !g.inFlight) :=
    fun above => UInt64.not_lt.mpr within above.1
  rw [precaution, if_neg underHard, if_neg underSoft]

/-- A calm request is one chunk. -/
theorem Calm.chunkSizes_eq (calm : g.Calm n) (below : g.policy.soft < g.policy.hard)
    (sizePos : 0 < g.digestSize) (pos : 0 < n) (word : n < UInt64.size) :
    chunkSizes g.maxChunk n = [n] := by
  have belowNat := UInt64.lt_iff_toNat_lt.mp below
  have one : (1 : UInt64) ≤ g.policy.hard := UInt64.le_iff_toNat_le.mpr (Nat.zero_lt_of_lt belowNat)
  have blocks : n / g.digestSize < (g.policy.hard - 1).toNat := by
    unfold Calm at calm
    rw [UInt64.toNat_sub_of_le _ _ one, UInt64.toNat_one]
    omega
  apply chunkSizes_of_le pos
  apply Nat.le_min.mpr
  constructor
  · exact Nat.le_of_lt ((Nat.div_lt_iff_lt_mul sizePos).mp blocks)
  · exact Nat.le_sub_one_of_lt word

section Follows

variable (follows : Follows policy digest g) (below : policy.soft < policy.hard)
  (honours : digest.Honours) (sizePos : 0 < digest.size) (supply : Supply τ)

include follows below honours sizePos

/-- A calm chunk is generated at once. -/
theorem Follows.chunk_calm (calm : g.Calm n) (t : Traced τ) :
    g.chunk supply n t = ((.ok (g.stretcher.served n (blocksFor digest.size n)).bytes,
      g.advance (blocksFor digest.size n)), t) := by
  rw [← follows.policy_eq] at below
  rw [chunk, Action.run_bind, prepare_eq, calm.precaution_eq below]
  simp only [Action.run_pure, follows.generate honours sizePos]

theorem Follows.precautions_calm (calm : g.Calm n) (pos : 0 < n) (word : n < UInt64.size)
    (t : Traced τ) : precautions supply (chunkSizes g.maxChunk n) g t = [.none] := by
  have served := follows.chunk_calm below honours sizePos supply calm t
  rw [← follows.policy_eq] at below
  rw [← follows.digestSize_eq] at sizePos
  rw [calm.chunkSizes_eq below sizePos pos word, precautions, calm.precaution_eq below, served]
  rfl

/-- A calm request only generates blocks. -/
theorem Follows.fill_calm (live : g.disposed = false) (calm : g.Calm n) (pos : 0 < n)
    (word : n < UInt64.size) (t : Traced τ) :
    g.fill supply n t = ((⟨(g.stretcher.served n (blocksFor digest.size n)).bytes, none⟩,
      g.advance (blocksFor digest.size n)), t) := by
  have served := follows.chunk_calm below honours sizePos supply calm t
  rw [← follows.policy_eq] at below
  have cut := calm.chunkSizes_eq below (follows.digestSize_eq ▸ sizePos) pos word
  rw [FastGenerator.fill, if_neg (Nat.ne_of_gt pos), live]
  simp only [Bool.false_eq_true, ite_false, cut, chunks, Action.run_bind, served,
    Action.run_pure, List.append_nil]

end Follows

/-! ## Pieces -/

/-- After whole blocks, what was calm with them is still calm. -/
theorem Calm.advance (calm : g.Calm (m + n)) (sizePos : 0 < g.digestSize)
    (whole : g.digestSize ∣ m) : (g.advance (blocksFor g.digestSize m)).Calm n := by
  have range := g.policy.soft.toNat_lt
  obtain ⟨k, rfl⟩ := whole
  unfold Calm at calm ⊢
  rw [Nat.mul_add_div sizePos] at calm
  rw [blocksFor_mul sizePos]
  simp only [FastGenerator.advance, UInt64.toNat_add, UInt64.toNat_ofNat']
  generalize n / g.digestSize = rest at calm ⊢
  omega

/-- Fill buffers of these sizes, one after the other. -/
def fills (supply : Supply τ) :
    List Nat → FastGenerator → Action τ (List Delivery × FastGenerator)
  | [], g => pure ([], g)
  | n :: ns, g => do
      let (first, g) ← g.fill supply n
      let (later, g) ← fills supply ns g
      pure (first :: later, g)

/-- What the pieces of a request bring, put together. -/
def joined (deliveries : List Delivery) : Bytes :=
  (deliveries.map Delivery.bytes).flatten

/-- Calm pieces of whole blocks, but for the last one, only generate the blocks
that hold all of them. -/
theorem Follows.fills_calm (follows : Follows policy digest g) (below : policy.soft < policy.hard)
    (honours : digest.Honours) (sizePos : 0 < digest.size) (supply : Supply τ)
    (live : g.disposed = false) {pieces : List Nat} (positive : ∀ n ∈ pieces, 0 < n)
    (whole : ∀ n ∈ pieces.dropLast, digest.size ∣ n) (calm : g.Calm pieces.sum)
    (word : pieces.sum < UInt64.size) (t : Traced τ) :
    ∃ deliveries, g.fills supply pieces t =
        ((deliveries, g.advance (blocksFor digest.size pieces.sum)), t) ∧
      (∀ d ∈ deliveries, d.failure = none) ∧
      joined deliveries =
        (g.stretcher.served pieces.sum (blocksFor digest.size pieces.sum)).bytes := by
  induction pieces generalizing g with
  | nil =>
      have none : blocksFor digest.size 0 = 0 := blocksFor_mul sizePos 0
      refine ⟨[], ?_, by simp, ?_⟩
      · rw [List.sum_nil, none, advance_zero]
        rfl
      · rw [List.sum_nil, none]
        rfl
  | cons n rest ih =>
      obtain ⟨pos, later⟩ := List.forall_mem_cons.mp positive
      rw [List.sum_cons] at calm word ⊢
      have first := follows.fill_calm below honours sizePos supply live
        (calm.mono (Nat.le_add_right _ _)) pos (Nat.lt_of_le_of_lt (Nat.le_add_right _ _) word) t
      rw [fills, Action.run_bind, first]
      cases rest with
      | nil =>
          rw [List.sum_nil, Nat.add_zero]
          exact ⟨_, rfl, by simp, by simp [joined]⟩
      | cons k ks =>
          rw [List.dropLast_cons_cons] at whole
          obtain ⟨aligned, whole⟩ := List.forall_mem_cons.mp whole
          have calm' : (g.advance (blocksFor digest.size n)).Calm (k :: ks).sum := by
            rw [← follows.digestSize_eq] at sizePos aligned ⊢
            exact calm.advance sizePos aligned
          obtain ⟨deliveries, filled, met, bytes⟩ := ih (follows.advance _) live later whole
            calm' (Nat.lt_of_le_of_lt (Nat.le_add_left _ _) word)
          refine ⟨⟨(g.stretcher.served n (blocksFor digest.size n)).bytes, none⟩ :: deliveries,
            ?_, ?_, ?_⟩
          · simp only [Action.run_bind, filled]
            rw [blocksFor_add_of_dvd sizePos aligned, advance_add]
            rfl
          · exact List.forall_mem_cons.mpr ⟨rfl, met⟩
          · obtain rfl := follows.digest_eq
            rw [blocksFor_add_of_dvd sizePos aligned, bytes_served_add honours sizePos aligned]
            exact congrArg (List.append _) bytes

/-- What a request in pieces has in common with the one request for all of them. -/
structure InPieces (supply : Supply τ) (g : FastGenerator) (pieces : List Nat) (t : Traced τ) :
    Prop where
  /-- The one request brings all its bytes. -/
  met : (g.fill supply pieces.sum t).1.1.failure = none ∧
    (g.fill supply pieces.sum t).1.1.bytes.length = pieces.sum
  /-- So do the pieces, and their bytes are the same. -/
  pieces_met : ∀ d ∈ (g.fills supply pieces t).1.1, d.failure = none
  bytes_eq : joined (g.fills supply pieces t).1.1 = (g.fill supply pieces.sum t).1.1.bytes
  /-- Both leave the same generator, in which nothing but the blocks is new. -/
  next_eq : (g.fills supply pieces t).1.2 = (g.fill supply pieces.sum t).1.2
  advanced : (g.fill supply pieces.sum t).1.2 = g.advance (blocksFor g.digestSize pieces.sum)
  /-- Neither draws or logs anything. -/
  world_eq : (g.fills supply pieces t).2 = t ∧ (g.fill supply pieces.sum t).2 = t
  /-- Nothing is done before the chunks of the one request. -/
  whole_calm : ∀ p ∈ precautions supply (chunkSizes g.maxChunk pieces.sum) g t, p = .none
  /-- Nothing is done before the chunks of any piece. -/
  piece_calm : ∀ past piece later, pieces = past ++ piece :: later →
    ∀ p ∈ precautions supply (chunkSizes (g.fills supply past t).1.2.maxChunk piece)
      (g.fills supply past t).1.2 (g.fills supply past t).2, p = .none

/-- Up to any piece, the pieces before it only generated whole blocks. -/
theorem Follows.piece_calm (follows : Follows policy digest g) (below : policy.soft < policy.hard)
    (honours : digest.Honours) (sizePos : 0 < digest.size) (supply : Supply τ)
    (live : g.disposed = false) {past later : List Nat} {piece : Nat}
    (positive : ∀ n ∈ past ++ piece :: later, 0 < n)
    (whole : ∀ n ∈ (past ++ piece :: later).dropLast, digest.size ∣ n)
    (calm : g.Calm (past ++ piece :: later).sum)
    (word : (past ++ piece :: later).sum < UInt64.size) (t : Traced τ) :
    precautions supply (chunkSizes (g.fills supply past t).1.2.maxChunk piece)
      (g.fills supply past t).1.2 (g.fills supply past t).2 = [.none] := by
  have last : (past ++ piece :: later).dropLast = past ++ (piece :: later).dropLast :=
    List.dropLast_append_of_ne_nil (List.cons_ne_nil _ _)
  have pastWhole : ∀ n ∈ past, digest.size ∣ n := by
    intro n member
    rw [last] at whole
    exact whole n (List.mem_append_left _ member)
  have total : (past ++ piece :: later).sum = past.sum + piece + later.sum := by
    rw [List.sum_append, List.sum_cons, Nat.add_assoc]
  rw [total] at calm word
  have reached : g.Calm (past.sum + piece) := calm.mono (Nat.le_add_right _ _)
  obtain ⟨deliveries, filled, -, -⟩ := follows.fills_calm below honours sizePos supply live
    (fun n member => positive n (List.mem_append_left _ member))
    (fun n member => pastWhole n (List.dropLast_subset past member))
    (reached.mono (Nat.le_add_right _ _)) (by omega) t
  rw [filled]
  have calm' : (g.advance (blocksFor digest.size past.sum)).Calm piece := by
    rw [← follows.digestSize_eq] at sizePos pastWhole ⊢
    exact reached.advance sizePos (List.dvd_sum pastWhole)
  exact (follows.advance _).precautions_calm below honours sizePos supply calm'
    (positive piece (by simp)) (by omega) t

theorem Follows.inPieces (follows : Follows policy digest g) (below : policy.soft < policy.hard)
    (honours : digest.Honours) (sizePos : 0 < digest.size) (supply : Supply τ)
    (live : g.disposed = false) {pieces : List Nat} (some : pieces ≠ [])
    (positive : ∀ n ∈ pieces, 0 < n) (whole : ∀ n ∈ pieces.dropLast, digest.size ∣ n)
    (calm : g.Calm pieces.sum) (word : pieces.sum < UInt64.size) (t : Traced τ) :
    InPieces supply g pieces t := by
  have pos : 0 < pieces.sum := by
    obtain ⟨n, member⟩ := List.exists_mem_of_ne_nil pieces some
    exact List.sum_pos_iff_exists_pos_nat.mpr ⟨n, member, positive n member⟩
  have filled := follows.fill_calm below honours sizePos supply live calm pos word t
  obtain ⟨deliveries, pieced, met, bytes⟩ := follows.fills_calm below honours sizePos supply live
    positive whole calm word t
  exact {
    met := by
      rw [filled]
      obtain rfl := follows.digest_eq
      exact ⟨rfl, Stretcher.length_bytes_served honours sizePos pieces.sum⟩
    pieces_met := by
      rw [pieced]
      exact met
    bytes_eq := by
      rw [pieced, filled]
      exact bytes
    next_eq := by
      rw [pieced, filled]
    advanced := by
      rw [filled, follows.digestSize_eq]
    world_eq := by
      rw [pieced, filled]
      exact ⟨rfl, rfl⟩
    whole_calm := by
      rw [follows.precautions_calm below honours sizePos supply calm pos word t]
      simp
    piece_calm := by
      rintro past piece later rfl
      rw [follows.piece_calm below honours sizePos supply live positive whole calm word t]
      simp }

end FastGenerator

namespace Session

open FastGenerator (InPieces)

/-- In every run of a generator that was made, with any hard threshold: a
request that stays within the soft threshold can be made in pieces, all of whole
blocks but for the last one.  They bring the same bytes and leave the same
generator, and on neither way is anything reseeded or scheduled. -/
theorem fills_eq_fill {supply : Supply τ} {policy : ReseedPolicy} {digest : Digest}
    {ownsSupply : Bool} {t t' : Traced τ} {g : FastGenerator} {history : List Act}
    {s : Session τ}
    (made : (FastGenerator.make supply policy digest ownsSupply).toAction t = (.ok g, t'))
    (honours : digest.Honours) (run : Run supply (start g t') history s)
    (live : s.generator.disposed = false) {pieces : List Nat} (some : pieces ≠ [])
    (positive : ∀ n ∈ pieces, 0 < n) (whole : ∀ n ∈ pieces.dropLast, digest.size ∣ n)
    (word : pieces.sum < UInt64.size)
    (calm : s.generator.blockCount.toNat + 1 + pieces.sum / digest.size ≤ policy.soft.toNat) :
    InPieces supply s.generator pieces s.world := by
  obtain ⟨valid, sizePos, -⟩ := FastGenerator.make_cases made
  obtain ⟨-, below, -⟩ := policy.validate_eq_ok_iff.mp valid
  have follows := run.follows (follows_start made) honours sizePos
  rw [← follows.digestSize_eq, ← follows.policy_eq] at calm
  exact follows.inPieces below honours sizePos supply live some positive whole calm word s.world

/-! ### Seven bytes in three pieces -/

/-- A generator with blocks of two bytes that reseeds past six blocks. -/
def paired : FastGenerator :=
  (FastGenerator.unseeded six FastGenerator.doublet false).applySeed [0, 0]

/-- The generator after one block. -/
def pairedOnce : Session UInt8 :=
  (((start paired ⟨1, []⟩).request 1).held 3).2

/-- After one block, seven bytes come in three pieces as they come at once: four
more blocks, up to the soft threshold and not past it. -/
theorem fills_eq_fill_paired :
    (FastGenerator.make counting six FastGenerator.doublet false).toAction ⟨0, []⟩ =
      (.ok paired, ⟨1, []⟩) ∧
    FastGenerator.doublet.Honours ∧ Run counting (start paired ⟨1, []⟩) [.block] pairedOnce ∧
    pairedOnce.generator.disposed = false ∧ [2, 2, 3] ≠ [] ∧ (∀ n ∈ [2, 2, 3], 0 < n) ∧
    (∀ n ∈ [2, 2, 3].dropLast, FastGenerator.doublet.size ∣ n) ∧
    [2, 2, 3].sum < UInt64.size ∧
    pairedOnce.generator.blockCount.toNat + 1 + [2, 2, 3].sum / FastGenerator.doublet.size ≤
      six.soft.toNat ∧
    InPieces counting pairedOnce.generator [2, 2, 3] pairedOnce.world := by
  have made : (FastGenerator.make counting six FastGenerator.doublet false).toAction ⟨0, []⟩ =
      (.ok paired, ⟨1, []⟩) := rfl
  have honours : FastGenerator.doublet.Honours := fun _ => rfl
  have requested : Run counting (start paired ⟨1, []⟩) [] _ := .single (.request _ 1 rfl)
  have history : (((start paired ⟨1, []⟩).request 1).held 3).1 = [.block] := by
    decide +kernel
  have run : Run counting (start paired ⟨1, []⟩) [.block] pairedOnce := by
    have run := requested.held 3
    rwa [List.nil_append, history] at run
  have live : pairedOnce.generator.disposed = false := by decide +kernel
  have calm : pairedOnce.generator.blockCount.toNat + 1 +
      [2, 2, 3].sum / FastGenerator.doublet.size ≤ six.soft.toNat := by decide +kernel
  have whole : ∀ n ∈ [2, 2, 3].dropLast, FastGenerator.doublet.size ∣ n := by decide
  exact ⟨made, honours, run, live, by decide, by decide, whole, by decide, calm,
    fills_eq_fill made honours run live (by decide) (by decide) whole (by decide) calm⟩

end Session

end EntropySeal
