import EntropySeal.Proofs.Generator.Threshold
import EntropySeal.Proofs.Generator.Uninterrupted
import Mathlib.Algebra.Ring.Nat

/-!
# What a fast generator relies on of its digest

The thresholds are compared with a count that is projected from the size the
digest announces, and the blocks are cut from what it returns.  A digest that
never returns less than it announces keeps the two together: every request is
met in full or fails as the supply of seeds did, and the hard threshold holds.

Nothing checks what the digest returns.  One that returns less than it announces
drives the count past the hard threshold, and one that returns nothing leaves a
request without a block to read from (`hard_threshold_passed`).
-/

namespace EntropySeal

variable {τ : Type} {supply : Supply τ}

/-- The supply can fail to draw a seed with this error. -/
def Supply.Refuses (supply : Supply τ) (e : Error) : Prop :=
  ∃ size t t', (supply.draw size).toAction t = (.error e, t')

/-- All `n` bytes were brought, or the supply failed to draw a seed. -/
def Supply.Brings (supply : Supply τ) (n : Nat) (d : Delivery) : Prop :=
  d.failure = none ∧ d.bytes.length = n ∨ ∃ e, d.failure = some e ∧ supply.Refuses e

namespace FastGenerator

/-- The digest of the generator has a size and never returns less. -/
structure Ready (g : FastGenerator) : Prop where
  ample : g.stretcher.digest.Ample
  sizePos : 0 < g.stretcher.digest.size

variable {g : FastGenerator}

/-- A ready generator generates any chunk in full, and is ready for the next. -/
theorem Ready.generate (ready : g.Ready) (n : Nat) :
    ∃ bytes next, g.generate n = .ok (bytes, next) ∧ bytes.length = n ∧ next.Ready := by
  obtain ⟨k, ⟨enough, -⟩, served⟩ := Stretcher.exists_nextBytes ready.ample ready.sizePos n
  refine ⟨(g.stretcher.served n k).bytes, _, by rw [FastGenerator.generate, served]; rfl, ?_, ?_⟩
  · exact List.length_take_of_le enough
  · have same : (g.stretcher.after k).digest = g.stretcher.digest :=
      Stretcher.digest_after _ _
    exact ⟨same ▸ ready.ample, same ▸ ready.sizePos⟩

/-- A reseed leaves a ready generator ready, and fails only as the supply does. -/
theorem Ready.reseedNow (ready : g.Ready) (supply : Supply τ) (t : Traced τ) :
    (g.reseedNow supply t).1.2.Ready ∧
      ∀ e, (g.reseedNow supply t).1.1 = .error e → supply.Refuses e := by
  rw [FastGenerator.reseedNow, Action.run_bind]
  cases drawn : (supply.draw g.seedSize).toAction t with
  | mk result t' =>
      cases result with
      | error e =>
          constructor
          · exact ready
          · rintro e' ⟨⟩
            exact ⟨_, _, _, drawn⟩
      | ok seed =>
          constructor
          · exact ⟨ready.ample, ready.sizePos⟩
          · rintro e' ⟨⟩

theorem Ready.prepare (ready : g.Ready) (supply : Supply τ) (size : Nat) (t : Traced τ) :
    (g.prepare supply size t).1.2.Ready ∧
      ∀ e, (g.prepare supply size t).1.1 = .error e → supply.Refuses e := by
  unfold FastGenerator.prepare
  split
  · have flagged : Ready { g with inFlight := true } := ⟨ready.ample, ready.sizePos⟩
    obtain ⟨kept, refused⟩ := flagged.reseedNow supply t
    exact ⟨⟨kept.ample, kept.sizePos⟩, refused⟩
  · split
    · exact ⟨⟨ready.ample, ready.sizePos⟩, nofun⟩
    · exact ⟨ready, nofun⟩

/-- A ready generator serves its chunks in full, unless the supply fails. -/
theorem Ready.chunks (ready : g.Ready) (supply : Supply τ) (sizes : List Nat) (t : Traced τ) :
    supply.Brings sizes.sum (g.chunks supply sizes t).1.1 := by
  induction sizes generalizing g t with
  | nil => exact .inl ⟨rfl, rfl⟩
  | cons size sizes ih =>
      rw [FastGenerator.chunks, Action.run_bind, FastGenerator.chunk, Action.run_bind]
      obtain ⟨kept, refused⟩ := ready.prepare supply size t
      cases prepared : g.prepare supply size t with
      | mk answer t₁ =>
          obtain ⟨result, g₁⟩ := answer
          rw [prepared] at kept refused
          cases result with
          | error e => exact .inr ⟨e, rfl, refused e rfl⟩
          | ok u =>
              obtain ⟨bytes, next, generated, long, ready'⟩ := kept.generate size
              simp only [generated]
              rcases ih ready' t₁ with ⟨met, rest⟩ | ⟨e, failed, refused⟩
              · refine .inl ⟨met, ?_⟩
                rw [List.sum_cons, ← long, ← rest]
                exact List.length_append
              · exact .inr ⟨e, failed, refused⟩

theorem sum_chunkSizes {size : Nat} (sizePos : 0 < size) (n : Nat) :
    (chunkSizes size n).sum = n := by
  fun_induction chunkSizes size n with
  | case1 n done =>
      rcases done with rfl | empty
      · rfl
      · exact absurd empty (Nat.ne_of_gt sizePos)
  | case2 n more ih =>
      rw [List.sum_cons, ih]
      omega

/-- A ready generator meets any request in full, unless it was disposed or the
supply fails. -/
theorem Ready.fill (ready : g.Ready) (chunkPos : 0 < g.maxChunk) (supply : Supply τ) (n : Nat)
    (t : Traced τ) :
    supply.Brings n (g.fill supply n t).1.1 ∨
      (g.fill supply n t).1.1.failure = some (.disposed .fastGenerator) := by
  unfold FastGenerator.fill
  split
  next nothing => exact .inl (.inl ⟨rfl, nothing.symm⟩)
  next =>
    split
    next => exact .inr rfl
    next =>
      have served := ready.chunks supply (chunkSizes g.maxChunk n) t
      rw [sum_chunkSizes chunkPos] at served
      exact .inl served

end FastGenerator

namespace Session

open FastGenerator (Accounted)
open Stretcher (Act)

variable {policy : ReseedPolicy} {digest : Digest} {seeded : Stretcher} {history : List Act}
  {s : Session τ}

theorem Kept.ready (kept : Kept policy digest seeded history s) (ample : digest.Ample)
    (sizePos : 0 < digest.size) : s.generator.Ready where
  ample := kept.accounted.digest_eq ▸ ample
  sizePos := kept.accounted.digest_eq ▸ sizePos

theorem Kept.blockCount_le (kept : Kept policy digest seeded history s) :
    s.generator.blockCount ≤ policy.hard := by
  rw [UInt64.le_iff_toNat_le, kept.accounted.blockCount_eq]
  exact kept.accounted.le_hard

/-- Chunks have a byte. -/
theorem Kept.maxChunk_pos (kept : Kept policy digest seeded history s)
    (sizePos : 0 < digest.size) (two : 2 ≤ policy.hard.toNat) : 0 < s.generator.maxChunk := by
  have one : (1 : UInt64) ≤ policy.hard := UInt64.le_iff_toNat_le.mpr (Nat.le_of_lt two)
  rw [FastGenerator.maxChunk, kept.accounted.policy_eq, kept.accounted.digestSize_eq,
    UInt64.toNat_sub_of_le _ _ one]
  apply Nat.lt_min.mpr
  constructor
  · exact Nat.mul_pos (Nat.sub_pos_of_lt two) sizePos
  · decide

/-- In every run of a generator that was made with a digest that never returns
less than it announces, up to any point: the block count is within the hard
threshold, every chunk can be generated in full, and a fill, which also ends
within the threshold, brings all its bytes unless the generator was disposed or
the supply of seeds fails. -/
theorem fill_within_hard {ownsSupply : Bool} {t t' : Traced τ} {g : FastGenerator}
    (made : (FastGenerator.make supply policy digest ownsSupply).toAction t = (.ok g, t'))
    (ample : digest.Ample) (small : policy.hard.toNat < Nat.pow 2 63)
    (run : Run supply (start g t') history s) :
    s.generator.blockCount ≤ policy.hard ∧
    (∀ n, ∃ bytes next, s.generator.generate n = .ok (bytes, next) ∧ bytes.length = n) ∧
    (∀ n, s.holder = none →
      (s.generator.fill supply n s.world).1.2.blockCount ≤ policy.hard) ∧
    ∀ n, supply.Brings n (s.generator.fill supply n s.world).1.1 ∨
      (s.generator.fill supply n s.world).1.1.failure = some (.disposed .fastGenerator) := by
  obtain ⟨valid, sizePos, -⟩ := FastGenerator.make_cases made
  obtain ⟨softPos, below, -⟩ := policy.validate_eq_ok_iff.mp valid
  have two : 2 ≤ policy.hard.toNat :=
    Nat.lt_of_le_of_lt (UInt64.lt_iff_toNat_lt.mp softPos) (UInt64.lt_iff_toNat_lt.mp below)
  have positive : 0 < policy.hard.toNat := Nat.lt_of_lt_of_le Nat.two_pos two
  obtain ⟨seed, first⟩ := kept_start made
  have kept := run.kept_of_ample first ample sizePos positive small
  have ready := kept.ready ample sizePos
  refine ⟨kept.blockCount_le, ?_, ?_, ?_⟩
  · intro n
    obtain ⟨bytes, next, generated, long, -⟩ := ready.generate n
    exact ⟨bytes, next, generated, long⟩
  · intro n free
    obtain ⟨later, last, further, -, reached⟩ := completes_fill supply free n
    have same : last.generator = (s.generator.fill supply n s.world).1.2 :=
      congrArg Prod.fst reached
    rw [← same]
    exact ((run.trans further).kept_of_ample first ample sizePos positive small).blockCount_le
  · intro n
    exact ready.fill (kept.maxChunk_pos sizePos two) supply n s.world

/-! ### Digests that return more, less and nothing -/

/-- A digest that announces one byte and returns two. -/
def generous : Digest where
  name := "generous"
  bits := 8
  hash data := [data.foldl (· + ·) 0, 1]

/-- Three bytes of a generator of the narrow policy: with blocks of two bytes for
one, the second chunk still reseeds before it is generated. -/
theorem fill_within_hard_generous : ∃ g,
    (FastGenerator.make counting narrow generous false).toAction ⟨0, []⟩ = (.ok g, ⟨1, []⟩) ∧
    generous.Ample ∧ narrow.hard.toNat < Nat.pow 2 63 ∧
    Run counting (start g ⟨1, []⟩) [] (start g ⟨1, []⟩) ∧
    (g.fill counting 3 ⟨1, []⟩).1.2.blockCount ≤ narrow.hard ∧
    (counting.Brings 3 (g.fill counting 3 ⟨1, []⟩).1.1 ∨
      (g.fill counting 3 ⟨1, []⟩).1.1.failure = some (.disposed .fastGenerator)) := by
  let g : FastGenerator := (FastGenerator.unseeded narrow generous false).applySeed [0]
  have made : (FastGenerator.make counting narrow generous false).toAction ⟨0, []⟩ =
      (.ok g, ⟨1, []⟩) := rfl
  have ample : generous.Ample := fun _ => Nat.le_succ 1
  have small : narrow.hard.toNat < Nat.pow 2 63 := by decide
  have run : Run counting (start g ⟨1, []⟩) [] (start g ⟨1, []⟩) := .nothing
  obtain ⟨-, -, within, brings⟩ := fill_within_hard made ample small run
  exact ⟨g, made, ample, small, run, within 3 rfl, brings 3⟩

/-- A digest that announces eight bytes and returns this array. -/
def short (array : Bytes) : Digest where
  name := "short"
  bits := 64
  hash _ := array

/-- Reseed past six blocks at once. -/
def six : ReseedPolicy where
  soft := 5
  hard := 6

/-- Where the digest returns one byte for eight, seven bytes take seven blocks
without a reseed, although six is the hard threshold.  Where it returns nothing,
one byte cannot be read from any block. -/
theorem hard_threshold_passed : ∃ g h,
    (FastGenerator.make counting six (short [0]) false).toAction ⟨0, []⟩ = (.ok g, ⟨1, []⟩) ∧
    (g.fill counting 7 ⟨1, []⟩).1.1.failure = none ∧
    g.policy.hard < (g.fill counting 7 ⟨1, []⟩).1.2.blockCount ∧
    (FastGenerator.make counting six (short []) false).toAction ⟨0, []⟩ = (.ok h, ⟨1, []⟩) ∧
    (h.fill counting 1 ⟨1, []⟩).1.1.failure = some .emptyBlock := by
  let g : FastGenerator :=
    (FastGenerator.unseeded six (short [0]) false).applySeed (List.replicate 8 0)
  let h : FastGenerator :=
    (FastGenerator.unseeded six (short []) false).applySeed (List.replicate 8 0)
  exact ⟨g, h, rfl, by decide +kernel, by decide +kernel, rfl, by decide +kernel⟩

end Session

end EntropySeal
