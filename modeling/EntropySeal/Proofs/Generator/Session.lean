import EntropySeal.Proofs.Generator.Fast
import EntropySeal.Proofs.Generator.Stretch

/-!
# Sessions of a fast generator

A session is a fast generator in use by many callers at once: at most one of
them holds its lock, background reseeds come and go, and the supply may be
shared with others who use it at any time.  A fill does not do its work at one
stroke.  It looks at the thresholds, reseeds if it has to, gives the flag of
background reseeds back if it had taken it, generates, and goes on to the next
chunk; between any two of these, whatever needs no lock can happen.  A
background reseed starts, draws its seed without the lock, waits for the lock
to apply it, and ends.

Each step says what it does to the stretching generator, and a run collects
this history.
-/

namespace EntropySeal

open Stretcher (Act)

/-- What the holder of the lock is about to do for a fill; `rest` are the sizes
of the chunks after the current one. -/
inductive Holder where
  /-- Look at the thresholds for the first of these chunks. -/
  | looking (sizes : List Nat)
  /-- Reseed at once; `claimed` says that the flag was free and was taken. -/
  | reseeding (claimed : Bool) (size : Nat) (rest : List Nat)
  /-- Give the flag back if it was taken. -/
  | releasing (claimed : Bool) (result : Except Error Unit) (size : Nat) (rest : List Nat)
  /-- Generate the current chunk. -/
  | generating (size : Nat) (rest : List Nat)

/-- How far a background reseed has come. -/
inductive Phase where
  /-- It has yet to look whether the generator was disposed. -/
  | scheduled
  /-- It is about to draw its seed. -/
  | drawing
  /-- It has its seed and waits for the lock. -/
  | drawn (seed : Bytes)
  /-- It is about to give the flag back. -/
  | ending (outcome : Except Error Unit)

/-- A fast generator in use. -/
structure Session (τ : Type) where
  generator : FastGenerator
  /-- Where the supply's seeds come from, and the log. -/
  world : Traced τ
  /-- Who holds the lock. -/
  holder : Option Holder := none
  /-- The background reseeds on their way, oldest first. -/
  reseeds : List Phase := []

namespace Session

variable {τ : Type}

/-- A reseed that succeeded changed the seed. -/
def seedActs : Except Error Unit → List Act
  | .ok () => [.seed]
  | .error _ => []

/-- A request that was served generated blocks. -/
def blockActs : Except Error Stretched → List Act
  | .ok s => List.replicate s.blocks .block
  | .error _ => []

/-! ## Steps of the holder of the lock -/

/-- Take the lock for a fill of `n` bytes.  Whether the generator was disposed
is looked at before, so this can come after a disposal. -/
def request (s : Session τ) (n : Nat) : Session τ :=
  { s with
    holder := some (.looking (FastGenerator.chunkSizes s.generator.maxChunk n)) }

/-- Compare the projected count with the thresholds. -/
def look (s : Session τ) (size : Nat) (rest : List Nat) : Session τ :=
  let g := s.generator
  if g.projected size > g.policy.hard then
    { s with
      generator := { g with inFlight := true }
      holder := some (.reseeding (!g.inFlight) size rest) }
  else if g.projected size > g.policy.soft ∧ !g.inFlight then
    { s with
      generator := g.schedule
      holder := some (.generating size rest)
      reseeds := s.reseeds ++ [.scheduled] }
  else
    { s with holder := some (.generating size rest) }

/-- Give the flag back if it was taken, and go on unless the reseed failed. -/
def release (s : Session τ) (claimed : Bool) (result : Except Error Unit) (size : Nat)
    (rest : List Nat) : Session τ :=
  { s with
    generator := if claimed then { s.generator with inFlight := false } else s.generator
    holder :=
      match result with
      | .ok () => some (.generating size rest)
      | .error _ => none }

/-- The next step of the holder of the lock, with what it does to the stretching
generator.  If nobody holds the lock, nothing happens. -/
def hold (supply : Supply τ) (s : Session τ) : List Act × Session τ :=
  match s.holder with
  | none => ([], s)
  | some (.looking []) => ([], { s with holder := none })
  | some (.looking (size :: rest)) => ([], s.look size rest)
  | some (.reseeding claimed size rest) =>
      let ((result, generator), world) := s.generator.reseedNow supply s.world
      (seedActs result,
        { s with generator, world, holder := some (.releasing claimed result size rest) })
  | some (.releasing claimed result size rest) => ([], s.release claimed result size rest)
  | some (.generating size rest) =>
      match s.generator.generate size with
      | .error _ => ([], { s with holder := none })
      | .ok (_, generator) =>
          (blockActs (s.generator.stretcher.nextBytes size),
            { s with generator, holder := some (.looking rest) })

/-- Reseed on a caller's demand, the lock being taken and given back. -/
def demand (supply : Supply τ) (s : Session τ) : List Act × Session τ :=
  let ((result, generator), world) := s.generator.reseedNow supply s.world
  (seedActs result, { s with generator, world })

/-! ## Steps without the lock -/

/-- The next step of a background reseed, with what it does to the stretching
generator.  To apply its seed it waits for the lock. -/
def background (supply : Supply τ) (s : Session τ) (i : Nat) : Option (List Act × Session τ) :=
  match s.reseeds[i]? with
  | none => none
  | some .scheduled =>
      let next := if s.generator.disposed then .ending (.ok ()) else .drawing
      some ([], { s with reseeds := s.reseeds.set i next })
  | some .drawing =>
      match (supply.drawInBackground s.generator.seedSize).toAction s.world with
      | (.error e, world) =>
          some ([], { s with world, reseeds := s.reseeds.set i (.ending (.error e)) })
      | (.ok seed, world) =>
          some ([], { s with world, reseeds := s.reseeds.set i (.drawn seed) })
  | some (.drawn seed) =>
      if s.holder.isSome then none
      else
        let (generator, world) := s.generator.applyBackground seed s.world
        some (if s.generator.disposed then [] else [.seed],
          { s with generator, world, reseeds := s.reseeds.set i (.ending (.ok ())) })
  | some (.ending outcome) =>
      let (generator, world) := s.generator.endBackground outcome s.world
      some ([], { s with generator, world, reseeds := s.reseeds.eraseIdx i })

/-- Everything that a step of a background reseed can do. -/
theorem background_cases {supply : Supply τ} {s next : Session τ} {i : Nat} {acts : List Act}
    (step : s.background supply i = some (acts, next)) :
    (s.reseeds[i]? = some .scheduled ∧ acts = [] ∧ ∃ phase,
      phase = (if s.generator.disposed then .ending (.ok ()) else .drawing) ∧
      next = { s with reseeds := s.reseeds.set i phase }) ∨
    (s.reseeds[i]? = some .drawing ∧ acts = [] ∧ ∃ world phase,
      ((∃ seed, phase = .drawn seed) ∨ ∃ e, phase = .ending (.error e)) ∧
      next = { s with world, reseeds := s.reseeds.set i phase }) ∨
    (∃ seed, s.reseeds[i]? = some (.drawn seed) ∧ s.holder = none ∧
      ((s.generator.disposed = true ∧ acts = [] ∧
        next = { s with reseeds := s.reseeds.set i (.ending (.ok ())) }) ∨
      (s.generator.disposed = false ∧ acts = [.seed] ∧ ∃ world,
        next = { s with
          generator := s.generator.applyReseed seed
          world
          reseeds := s.reseeds.set i (.ending (.ok ())) }))) ∨
    (∃ outcome background world, s.reseeds[i]? = some (.ending outcome) ∧ acts = [] ∧
      next = { s with
        generator := { s.generator with inFlight := false, background }
        world
        reseeds := s.reseeds.eraseIdx i }) := by
  unfold Session.background at step
  split at step
  next => cases step
  next scheduled =>
    cases step
    exact .inl ⟨scheduled, rfl, _, rfl, rfl⟩
  next drawing =>
    split at step
    · cases step
      exact .inr (.inl ⟨drawing, rfl, _, _, .inr ⟨_, rfl⟩, rfl⟩)
    · cases step
      exact .inr (.inl ⟨drawing, rfl, _, _, .inl ⟨_, rfl⟩, rfl⟩)
  next seed drawn =>
    split at step
    next => cases step
    next waiting =>
      have free : s.holder = none := by simpa using waiting
      rcases s.generator.applyBackground_cases seed s.world with
        ⟨disposed, same⟩ | ⟨live, world, applied⟩
      · rw [same, disposed] at step
        cases step
        exact .inr (.inr (.inl ⟨seed, drawn, free, .inl ⟨disposed, rfl, rfl⟩⟩))
      · rw [applied, live] at step
        cases step
        exact .inr (.inr (.inl ⟨seed, drawn, free, .inr ⟨live, rfl, world, rfl⟩⟩))
  next outcome ending =>
    rcases s.generator.endBackground_eq outcome s.world with ⟨background, world, ended⟩
    rw [ended] at step
    cases step
    exact .inr (.inr (.inr ⟨outcome, background, world, ending, rfl, rfl⟩))

/-- A scheduled reseed that could not be started gives the flag back. -/
def unstarted (s : Session τ) (i : Nat) : Session τ :=
  { s with
    generator := { s.generator with inFlight := false }
    reseeds := s.reseeds.eraseIdx i }

/-- Dispose the generator. -/
def dispose (supply : Supply τ) (s : Session τ) : Session τ :=
  let (generator, world) := s.generator.dispose supply s.world
  { s with generator, world }

/-- A session that begins. -/
def start (generator : FastGenerator) (world : Traced τ) : Session τ where
  generator
  world

/-! ## Runs -/

/-- One step of a session, with what it does to the stretching generator. -/
inductive Step (supply : Supply τ) : Session τ → List Act → Session τ → Prop where
  | request (s : Session τ) (n : Nat) : s.holder = none → Step supply s [] (s.request n)
  | hold (s : Session τ) : Step supply s (s.hold supply).1 (s.hold supply).2
  | demand (s : Session τ) :
      s.holder = none → Step supply s (s.demand supply).1 (s.demand supply).2
  | background {s next : Session τ} {acts : List Act} (i : Nat) :
      s.background supply i = some (acts, next) → Step supply s acts next
  | unstarted (s : Session τ) (i : Nat) :
      s.reseeds[i]? = some .scheduled → Step supply s [] (s.unstarted i)
  | dispose (s : Session τ) : Step supply s [] (s.dispose supply)
  /-- Others use the supply, or the log. -/
  | others (s : Session τ) (world : Traced τ) : Step supply s [] { s with world }

/-- Any number of steps, with all that they do to the stretching generator. -/
inductive Run (supply : Supply τ) (start : Session τ) : List Act → Session τ → Prop where
  | nothing : Run supply start [] start
  | step {history acts : List Act} {s next : Session τ} :
      Run supply start history s → Step supply s acts next →
      Run supply start (history ++ acts) next

theorem Run.single {supply : Supply τ} {s next : Session τ} {acts : List Act}
    (step : Step supply s acts next) : Run supply s acts next :=
  Run.nothing.step step

theorem Run.trans {supply : Supply τ} {start middle next : Session τ}
    {history acts : List Act} (first : Run supply start history middle)
    (second : Run supply middle acts next) : Run supply start (history ++ acts) next := by
  induction second with
  | nothing => simpa using first
  | step _ last ih =>
      rw [← List.append_assoc]
      exact ih.step last

end Session

end EntropySeal
