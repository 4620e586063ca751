import EntropySeal.Source.Conditioner

/-!
# The slow generator

A combiner of several conditioned sources.  It works in rounds: every round
draws once from every source, in order, and gives the exclusive or of what
they gave, so a block is at least as unpredictable as the best source makes
it.  The witnesses of a round must be pairwise distinct; two equal ones point
to a stuck or cloned source and stop the whole request before any byte of it is
given.

Disposing a generator releases its sources.
-/

namespace EntropySeal

/-- What the sources gave in one round, in order. -/
abbrev Round : Type := List Conditioned

namespace Round

/-- The block that a round gives. -/
def output (size : Nat) (r : Round) : Bytes :=
  Conditioned.combine size (r.map (Conditioned.output size))

/-- All arrays of a round that must be pairwise distinct. -/
def witnesses (size : Nat) (r : Round) : List Bytes :=
  r.flatMap (Conditioned.witnesses size) ++ (if r.length > 1 then [output size r] else [])

end Round

/-- The places of the first two equal elements, counted from `start`: the
earliest element that occurs again, and where it does. -/
def firstRepeat {α : Type} [BEq α] (start : Nat) : List α → Option (Nat × Nat)
  | [] => none
  | a :: rest =>
      match rest.findIdx? (· == a) with
      | some k => some (start, start + 1 + k)
      | none => firstRepeat (start + 1) rest

/-- A combiner of conditioned sources of one size. -/
structure SlowGenerator (σ : Type) where
  conditioners : List (Conditioner σ)
  /-- Bytes in a block. -/
  size : Nat
  size_pos : 0 < size
  conditioner_size : ∀ c ∈ conditioners, c.size = size
  disposed : Bool := false
  /-- Bytes given so far, modulo `2 ^ 64`. -/
  totalOutput : UInt64 := 0

/-- What is known of a source and its digests. -/
structure SourceSummary where
  info : SourceInfo
  digests : List String
  deriving DecidableEq, Repr

namespace SlowGenerator

variable {σ : Type}

/-- Combine conditioned sources, of which there must be one, all of one size. -/
def make (conditioners : List (Conditioner σ)) : Except Error (SlowGenerator σ) :=
  match conditioners with
  | [] => .error .noSources
  | first :: rest =>
      match odd : (first :: rest).find? (fun c => c.size ≠ first.size) with
      | some c => .error (.unequalSource c.source.info.name c.size first.size)
      | none => .ok {
          conditioners := first :: rest
          size := first.size
          size_pos := first.size_pos
          conditioner_size := by simpa using odd }

/-- How many sources there are; none after disposal. -/
def sourceCount (g : SlowGenerator σ) : Nat :=
  g.conditioners.length

/-- What is known of the sources. -/
def summaries (g : SlowGenerator σ) : List SourceSummary :=
  g.conditioners.map fun c => ⟨c.source.info, c.digests.map Digest.name⟩

/-! ## Rounds -/

/-- Draw once from every source. -/
def drawRound : List (Conditioner σ) → Attempt σ Round
  | [] => pure []
  | c :: cs => do
      let first ← c.draw
      let rest ← drawRound cs
      pure (first :: rest)

/-- Fail if two witnesses of a round are equal. -/
def crossCheck (size : Nat) (r : Round) : Attempt σ Unit :=
  match firstRepeat 0 (r.witnesses size) with
  | none => pure ()
  | some (i, j) => do
      Attempt.log (.crossCheckFailed i j)
      throw (.repeatedIntermediate i j)

/-- One round and its cross-check. -/
def round (size : Nat) (conditioners : List (Conditioner σ)) : Attempt σ Bytes := do
  let r ← drawRound conditioners
  crossCheck size r
  pure (r.output size)

/-- The blocks of `k` rounds. -/
def rounds (size : Nat) (conditioners : List (Conditioner σ)) : Nat → Attempt σ (List Bytes)
  | 0 => pure []
  | k + 1 => do
      let block ← round size conditioners
      let blocks ← rounds size conditioners k
      pure (block :: blocks)

/-- How many rounds a request of `n` bytes takes. -/
def roundCount (size n : Nat) : Nat :=
  (n + size - 1) / size

/-- The bytes of a request, once it was let in. -/
def serve (g : SlowGenerator σ) (n : Nat) : Attempt σ Bytes := do
  let blocks ← rounds g.size g.conditioners (roundCount g.size n)
  pure (blocks.flatten.take n)

/-! ## Requests -/

/-- A request is let in unless the generator was disposed. -/
def letIn (g : SlowGenerator σ) : Except Error Unit :=
  if g.disposed then .error (.disposed .slowGenerator) else .ok ()

/-- Count bytes as given. -/
def credit (g : SlowGenerator σ) (n : Nat) : SlowGenerator σ :=
  { g with totalOutput := g.totalOutput + UInt64.ofNat n }

/-- Fill a buffer of `n` bytes.  A request for nothing always succeeds; any
other gives all its bytes or none. -/
def fill (g : SlowGenerator σ) (n : Nat) : Action σ (Delivery × SlowGenerator σ) :=
  if n = 0 then pure (⟨[], none⟩, g)
  else
    match g.letIn with
    | .error e => pure (.failed e, g)
    | .ok () => do
        match ← (g.serve n).toAction with
        | .ok bytes => pure (⟨bytes, none⟩, g.credit n)
        | .error e => pure (.failed e, g)

/-! ## Disposal -/

/-- Let no further request in. -/
def close (g : SlowGenerator σ) : SlowGenerator σ :=
  { g with disposed := true }

/-- Release every source. -/
def release (g : SlowGenerator σ) : SlowGenerator σ :=
  { g with conditioners := [], conditioner_size := by simp }

/-- Close the generator and release its sources, once. -/
def dispose (g : SlowGenerator σ) : Action σ (SlowGenerator σ) :=
  if g.disposed then pure g
  else do
    Action.log .slowDisposed
    pure g.close.release

end SlowGenerator

end EntropySeal
