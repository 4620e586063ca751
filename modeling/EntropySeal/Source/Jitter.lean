import EntropySeal.Machine

/-!
# Scheduling jitter

Durations of short threads vary with the load of the whole machine.  Their
successive differences are compared pairwise and folded to one byte each
(`timingBytes`), and all of these are folded into the bytes asked for
(`foldInto`).  Four samples go into every byte, and sixty-four more into the
whole, so no byte rests on a single sample.
-/

namespace EntropySeal.Jitter

/-- The exclusive or of the eight bytes of a word. -/
def foldWord (v : UInt64) : UInt8 :=
  (Bytes.toLe 8 v.toNat).foldl (· ^^^ ·) 0

/-- `f` of every two neighbours. -/
def neighbours {α β : Type} (f : α → α → β) : List α → List β
  | x :: y :: rest => f x y :: neighbours f (y :: rest)
  | _ => []

/-- One byte for every three successive readings, at most `n` of them. -/
def timingBytes (readings : List UInt64) (n : Nat) : Bytes :=
  let differences := neighbours (fun earlier later => later - earlier) readings
  (neighbours (fun a b => foldWord (a ^^^ b)) differences).take n

/-- The exclusive or of the whole blocks of `n` bytes and the last partial one;
nothing if there is no whole block. -/
def foldInto (raw : Bytes) (n : Nat) : Bytes :=
  if n = 0 ∨ raw.length < n then []
  else (Bytes.blocks n raw).foldl
    (fun acc block => Bytes.xor acc (block ++ Bytes.zeros (n - block.length))) (Bytes.zeros n)

/-- Samples that go into every byte. -/
def oversampling : Nat := 4

/-- Samples beside those. -/
def extraSamples : Nat := 64

/-- How many durations are read for `n` bytes. -/
def sampleCount (n : Nat) : Nat :=
  oversampling * n + extraSamples

/-- The name of the source. -/
def name : String := "thread_jitter"

/-- `n` bytes from the durations of threads. -/
def distil (durations : List UInt64) (n : Nat) : Except Error Bytes :=
  let bytes := foldInto (timingBytes durations durations.length) n
  if bytes.length < n then
    .error (.sourceFailed name s!"collected {bytes.length} of {n} bytes")
  else .ok bytes

/-- `n` bytes from the threads of a machine. -/
def fill {σ : Type} [Machine σ] (n : Nat) : Action σ Delivery :=
  if n = 0 then pure ⟨[], none⟩
  else do
    let durations ← Action.step (Machine.durations (sampleCount n))
    pure (.ofExcept (distil durations n))

end EntropySeal.Jitter
