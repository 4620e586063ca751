import EntropySeal.Generator.Policy
import EntropySeal.Generator.Slow
import EntropySeal.Generator.Stretch

/-!
# The fast generator

A stretching generator that is reseeded again and again from a supply of
seeds, in practice a slow generator.  It counts the state blocks generated
since the last seed.  Before a chunk of a request is served, the count it would
lead to is projected: past the hard threshold the request reseeds first, past
the soft one a reseed is scheduled in the background, at most one at a time.
Requests are cut into chunks of at most `hard - 1` blocks.

A background reseed goes through four steps: it starts, unless the generator
was disposed; it draws a seed; it applies the seed, unless the generator was
disposed meanwhile; it ends.  Each step is a function of its own, so that they
can be run in one go (`runBackground`) or between other operations.
-/

namespace EntropySeal

/-- Where seeds come from, as a part of a world. -/
structure Supply (τ : Type) where
  /-- Draw a seed of the given size. -/
  draw : Nat → Attempt τ Bytes
  /-- Draw a seed for a background reseed. -/
  drawInBackground : Nat → Attempt τ Bytes
  /-- Release what the seeds come from. -/
  dispose : Action τ Unit

/-- The background reseed of a generator. -/
inductive Background where
  /-- None was scheduled, or the last one was waited for. -/
  | idle
  /-- Scheduled, and yet to look at the generator. -/
  | scheduled
  /-- About to draw a seed. -/
  | drawing
  /-- Over, with this outcome. -/
  | ended (outcome : Except Error Unit)

/-- A stretching generator reseeded from a supply. -/
structure FastGenerator where
  policy : ReseedPolicy
  /-- The size that the digest announces. -/
  digestSize : Nat
  /-- Bytes of a seed. -/
  seedSize : Nat
  /-- The supply is disposed with the generator. -/
  ownsSupply : Bool
  stretcher : Stretcher
  /-- State blocks since the last seed. -/
  blockCount : UInt64 := 0
  /-- Seeds applied after the first one. -/
  reseedCount : UInt64 := 0
  /-- A background reseed is on its way. -/
  inFlight : Bool := false
  disposed : Bool := false
  background : Background := .idle

namespace FastGenerator

variable {τ : Type}

/-! ## Seeds -/

/-- Mix a seed in and start counting blocks anew. -/
def applySeed (g : FastGenerator) (seed : Bytes) : FastGenerator :=
  { g with stretcher := g.stretcher.addSeedMaterial seed, blockCount := 0 }

/-- Mix in a seed that counts as a reseed. -/
def applyReseed (g : FastGenerator) (seed : Bytes) : FastGenerator :=
  { g.applySeed seed with reseedCount := g.reseedCount + 1 }

/-- Draw a seed and apply it. -/
def reseedNow (supply : Supply τ) (g : FastGenerator) :
    Action τ (Except Error Unit × FastGenerator) := do
  match ← (supply.draw g.seedSize).toAction with
  | .error e => pure (.error e, g)
  | .ok seed => do
      Action.log (.reseeded g.blockCount)
      pure (.ok (), g.applyReseed seed)

/-! ## Disposal -/

/-- Serve nothing any more, and release the supply if it is owned; once. -/
def dispose (supply : Supply τ) (g : FastGenerator) : Action τ FastGenerator :=
  if g.disposed then pure g
  else do
    if g.ownsSupply then supply.dispose
    Action.log .fastDisposed
    pure { g with disposed := true }

/-! ## Construction -/

/-- A generator without a seed. -/
def unseeded (policy : ReseedPolicy) (digest : Digest) (ownsSupply : Bool) : FastGenerator where
  policy
  digestSize := digest.size
  seedSize := (policy.seedSize.map UInt64.toNat).getD digest.size
  ownsSupply
  stretcher := .new digest

/-- A generator with its first seed.  If that cannot be drawn, the generator is
disposed. -/
def make (supply : Supply τ) (policy : ReseedPolicy) (digest : Digest) (ownsSupply : Bool) :
    Attempt τ FastGenerator := do
  ExceptT.mk (pure policy.validate)
  if digest.size = 0 then throw (.emptyDigest digest.name)
  let g := unseeded policy digest ownsSupply
  match ← Attempt.always (supply.draw g.seedSize).toAction with
  | .ok seed => pure (g.applySeed seed)
  | .error e => do
      let _ ← Attempt.always (g.dispose supply)
      throw e

/-- A generator of the default policy, stretching with SHA-512. -/
def standard (supply : Supply τ) (ownsSupply : Bool) : Attempt τ FastGenerator :=
  make supply {} .sha512 ownsSupply

/-! ## Requests -/

/-- Bytes of the longest chunk, `hard - 1` blocks. -/
def maxChunk (g : FastGenerator) : Nat :=
  min ((g.policy.hard - 1).toNat * g.digestSize) (UInt64.size - 1)

/-- Cut a request of `n` bytes into chunks of `size`, the last one possibly
shorter. -/
def chunkSizes (size n : Nat) : List Nat :=
  if n = 0 ∨ size = 0 then []
  else min size n :: chunkSizes size (n - min size n)
termination_by n
decreasing_by omega

/-- The block count that a chunk may lead to. -/
def projected (g : FastGenerator) (size : Nat) : UInt64 :=
  g.blockCount + 1 + UInt64.ofNat (size / g.digestSize)

/-- Reseed at once, holding the flag of background reseeds where it was free.
A background reseed on its way keeps the flag and gives it back itself. -/
def reseedHolding (supply : Supply τ) (g : FastGenerator) :
    Action τ (Except Error Unit × FastGenerator) := do
  let pending := g.inFlight
  let (result, g) ← reseedNow supply { g with inFlight := true }
  pure (result, { g with inFlight := pending })

/-- Schedule a background reseed, which takes the flag. -/
def schedule (g : FastGenerator) : FastGenerator :=
  { g with inFlight := true, background := .scheduled }

/-- Do what the thresholds ask for before a chunk. -/
def prepare (supply : Supply τ) (g : FastGenerator) (size : Nat) :
    Action τ (Except Error Unit × FastGenerator) :=
  if g.projected size > g.policy.hard then g.reseedHolding supply
  else if g.projected size > g.policy.soft ∧ !g.inFlight then pure (.ok (), g.schedule)
  else pure (.ok (), g)

/-- Generate a chunk and count its blocks. -/
def generate (g : FastGenerator) (size : Nat) : Except Error (Bytes × FastGenerator) := do
  let s ← g.stretcher.nextBytes size
  pure (s.bytes,
    { g with stretcher := s.next, blockCount := g.blockCount + UInt64.ofNat s.blocks })

/-- Serve one chunk. -/
def chunk (supply : Supply τ) (g : FastGenerator) (size : Nat) :
    Action τ (Except Error Bytes × FastGenerator) := do
  match ← g.prepare supply size with
  | (.error e, g) => pure (.error e, g)
  | (.ok (), g) =>
      match g.generate size with
      | .error e => pure (.error e, g)
      | .ok (bytes, g) => pure (.ok bytes, g)

/-- Serve chunks until one fails. -/
def chunks (supply : Supply τ) : List Nat → FastGenerator → Action τ (Delivery × FastGenerator)
  | [], g => pure (⟨[], none⟩, g)
  | size :: sizes, g => do
      match ← g.chunk supply size with
      | (.error e, g) => pure (.failed e, g)
      | (.ok bytes, g) => do
          let (rest, g) ← chunks supply sizes g
          pure ({ rest with bytes := bytes ++ rest.bytes }, g)

/-- Fill a buffer of `n` bytes. -/
def fill (supply : Supply τ) (g : FastGenerator) (n : Nat) :
    Action τ (Delivery × FastGenerator) :=
  if n = 0 then pure (⟨[], none⟩, g)
  else if g.disposed then pure (.failed (.disposed .fastGenerator), g)
  else g.chunks supply (chunkSizes g.maxChunk n)

/-- Reseed on a caller's demand. -/
def reseed (supply : Supply τ) (g : FastGenerator) :
    Action τ (Except Error Unit × FastGenerator) :=
  if g.disposed then pure (.error (.disposed .fastGenerator), g) else g.reseedNow supply

/-! ## Background reseeds -/

/-- A background reseed gives the flag back and ends.  A failure is reported
unless the generator was disposed. -/
def endBackground (g : FastGenerator) (outcome : Except Error Unit) : Action τ FastGenerator :=
  match outcome with
  | .ok () => pure { g with inFlight := false, background := .ended (.ok ()) }
  | .error e => do
      if g.disposed then
        Action.log (.reseedAbandoned e)
        pure { g with inFlight := false, background := .ended (.ok ()) }
      else
        Action.log (.reseedFailed e)
        pure { g with inFlight := false, background := .ended (.error e) }

/-- A scheduled reseed looks whether the generator was disposed. -/
def startBackground (g : FastGenerator) : Action τ FastGenerator :=
  match g.background with
  | .scheduled =>
      if g.disposed then g.endBackground (.ok ()) else pure { g with background := .drawing }
  | _ => pure g

/-- Apply a background seed, unless the generator was disposed. -/
def applyBackground (g : FastGenerator) (seed : Bytes) : Action τ FastGenerator :=
  if g.disposed then pure g
  else do
    Action.log (.reseededInBackground g.blockCount)
    pure (g.applyReseed seed)

/-- Draw the background seed, apply it and end. -/
def finishBackground (supply : Supply τ) (g : FastGenerator) : Action τ FastGenerator :=
  match g.background with
  | .drawing => do
      match ← (supply.drawInBackground g.seedSize).toAction with
      | .error e => g.endBackground (.error e)
      | .ok seed => do
          let g ← g.applyBackground seed
          g.endBackground (.ok ())
  | _ => pure g

/-- Run a scheduled background reseed to its end. -/
def runBackground (supply : Supply τ) (g : FastGenerator) : Action τ FastGenerator := do
  let g ← g.startBackground
  g.finishBackground supply

/-- The outcome of the last background reseed, asked for once.  A reseed still
on its way has no outcome yet and stays. -/
def join (g : FastGenerator) : Except Error Unit × FastGenerator :=
  match g.background with
  | .ended outcome => (outcome, { g with background := .idle })
  | _ => (.ok (), g)

/-- Run a background reseed to its end and take its outcome. -/
def settle (supply : Supply τ) (g : FastGenerator) :
    Action τ (Except Error Unit × FastGenerator) := do
  let g ← g.runBackground supply
  pure g.join

end FastGenerator

/-! ## A slow generator as the supply -/

/-- A slow generator with the world of its sources. -/
structure Station (σ : Type) where
  slow : SlowGenerator σ
  world : σ

namespace Station

variable {σ : Type}

/-- Perform an action of the sources' world. -/
def onWorld {α : Type} (act : Action σ α) : Action (Station σ) α :=
  Action.focus Station.world (fun world s => { s with world }) act

/-- Perform an action on the slow generator. -/
def onSlow {α : Type} (act : SlowGenerator σ → Action σ (α × SlowGenerator σ)) :
    Action (Station σ) α := fun t =>
  let ((a, slow), next) := act t.world.slow ⟨t.world.world, t.events⟩
  (a, ⟨⟨slow, next.world⟩, next.events⟩)

/-- Fill a buffer from the slow generator. -/
def fill : Fill (Station σ) := fun n =>
  onSlow fun slow => slow.fill n

/-- Dispose the slow generator. -/
def dispose : Action (Station σ) Unit :=
  onSlow fun slow => do pure ((), ← slow.dispose)

/-- Seeds from the slow generator. -/
def supply : Supply (Station σ) where
  draw := Fill.getBytes fill
  drawInBackground := Fill.getBytes fill
  dispose := dispose

end Station

end EntropySeal
