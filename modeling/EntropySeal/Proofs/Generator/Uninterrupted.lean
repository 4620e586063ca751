import EntropySeal.Proofs.Generator.Session

/-!
# Operations that nobody interrupts

The operations of a fast generator do at one stroke what a session does step by
step.  Left to itself, each is a run of the session's steps that ends with the
same generator, the same world and a free lock.
-/

namespace EntropySeal

namespace FastGenerator

variable {τ α : Type}

/-- The generator and the world that an operation leaves behind. -/
def left (result : (α × FastGenerator) × Traced τ) : FastGenerator × Traced τ :=
  (result.1.2, result.2)

/-- The first chunk is prepared and generated; if that works, the others follow. -/
theorem left_chunks_cons (supply : Supply τ) (g : FastGenerator) (size : Nat)
    (rest : List Nat) (t : Traced τ) :
    left (g.chunks supply (size :: rest) t) =
      match g.prepare supply size t with
      | ((.error _, g), t) => (g, t)
      | ((.ok (), g), t) =>
          match g.generate size with
          | .error _ => (g, t)
          | .ok (_, g) => left (g.chunks supply rest t) := by
  rw [chunks, Action.run_bind, chunk, Action.run_bind]
  rcases g.prepare supply size t with ⟨⟨result, g⟩, t⟩
  cases result with
  | error e => rfl
  | ok u =>
      simp only
      cases g.generate size with
      | error e => rfl
      | ok served => rfl

/-- The end of a background reseed forgets how far the reseed had come. -/
theorem endBackground_drawing (g : FastGenerator) (outcome : Except Error Unit) :
    (endBackground { g with background := .drawing } outcome : Action τ FastGenerator) =
      g.endBackground outcome := by
  cases outcome <;> rfl

/-- A scheduled background reseed of a disposed generator ends at once. -/
theorem runBackground_disposed (supply : Supply τ) {g : FastGenerator}
    (scheduled : g.background = .scheduled) (disposed : g.disposed = true) (t : Traced τ) :
    g.runBackground supply t = g.endBackground (.ok ()) t := by
  rw [runBackground, Action.run_bind, startBackground, scheduled]
  simp only [if_pos disposed]
  rfl

/-- A scheduled background reseed draws its seed, applies it and ends. -/
theorem runBackground_live (supply : Supply τ) {g : FastGenerator}
    (scheduled : g.background = .scheduled) (live : g.disposed = false) (t : Traced τ) :
    g.runBackground supply t =
      match (supply.drawInBackground g.seedSize).toAction t with
      | (.error e, t) => g.endBackground (.error e) t
      | (.ok seed, t) => (g.applyBackground seed >>= fun g => g.endBackground (.ok ())) t := by
  have notDisposed : ¬g.disposed = true := by simp [live]
  rw [runBackground, Action.run_bind, startBackground, scheduled]
  simp only [if_neg notDisposed]
  simp only [Action.run_pure, finishBackground, Action.run_bind]
  rcases (supply.drawInBackground g.seedSize).toAction t with ⟨result, t⟩
  cases result with
  | error e =>
      simp only [endBackground_drawing]
  | ok seed =>
      simp only [applyBackground, if_neg notDisposed]
      rfl

end FastGenerator

namespace Session

open FastGenerator (left)
open Stretcher (Act)

variable {τ : Type} {supply : Supply τ} {s next : Session τ} {acts : List Act}
  {state : FastGenerator × Traced τ}

/-- From this session a run leads to a free lock and this generator and world. -/
def Completes (supply : Supply τ) (s : Session τ) (state : FastGenerator × Traced τ) : Prop :=
  ∃ history last, Run supply s history last ∧ last.holder = none ∧
    (last.generator, last.world) = state

/-- A session with a free lock is complete. -/
theorem completes_here (free : s.holder = none) : Completes supply s (s.generator, s.world) :=
  ⟨[], s, .nothing, free, rfl⟩

/-- What completes after a step completes before it. -/
theorem Step.completes (step : Step supply s acts next)
    (completes : Completes supply next state) : Completes supply s state := by
  rcases completes with ⟨history, last, run, free, reached⟩
  exact ⟨acts ++ history, last, (Run.single step).trans run, free, reached⟩

/-! ## Fills -/

/-- The current chunk is generated, and if that works the fill goes on. -/
theorem completes_generating {size : Nat} {rest : List Nat}
    (holds : s.holder = some (.generating size rest))
    (later : ∀ next : Session τ, next.holder = some (.looking rest) →
      Completes supply next (left (next.generator.chunks supply rest next.world))) :
    Completes supply s
      (match s.generator.generate size with
      | .error _ => (s.generator, s.world)
      | .ok (_, g) => left (g.chunks supply rest s.world)) := by
  have step : Step supply s (s.hold supply).1 (s.hold supply).2 := .hold s
  simp only [hold, holds] at step
  cases generated : s.generator.generate size with
  | error e =>
      rw [generated] at step
      exact step.completes (completes_here rfl)
  | ok served =>
      rw [generated] at step
      exact step.completes (later _ rfl)

/-- A flag that was taken if it was free is given back as it was. -/
theorem release_flag (pending : Bool) {g : FastGenerator} (flagged : g.inFlight = true) :
    (if !pending then { g with inFlight := false } else g) = { g with inFlight := pending } := by
  cases pending with
  | false => rfl
  | true =>
      change g = { g with inFlight := true }
      rw [← flagged]

/-- Past the hard threshold the fill reseeds, gives the flag back and goes on. -/
theorem completes_reseeding {pending : Bool} {size : Nat} {rest : List Nat}
    (holds : s.holder = some (.reseeding (!pending) size rest))
    (flagged : s.generator.inFlight = true)
    (later : ∀ next : Session τ, next.holder = some (.looking rest) →
      Completes supply next (left (next.generator.chunks supply rest next.world))) :
    Completes supply s
      (match s.generator.reseedNow supply s.world with
      | ((.error _, g), t) => ({ g with inFlight := pending }, t)
      | ((.ok (), g), t) =>
          match { g with inFlight := pending }.generate size with
          | .error _ => ({ g with inFlight := pending }, t)
          | .ok (_, g) => left (g.chunks supply rest t)) := by
  have drawn : Step supply s (s.hold supply).1 (s.hold supply).2 := .hold s
  simp only [hold, holds] at drawn
  apply drawn.completes
  rcases s.generator.reseedNow_cases supply s.world with
    ⟨e, t', failed⟩ | ⟨seed, t', applied⟩
  · rw [failed]
    have released : Step supply _ _ _ := .hold
      { s with world := t', holder := some (.releasing (!pending) (.error e) size rest) }
    simp only [hold, release, release_flag pending flagged] at released
    exact released.completes (completes_here rfl)
  · rw [applied]
    have released : Step supply _ _ _ := .hold
      { s with
        generator := s.generator.applyReseed seed
        world := t'
        holder := some (.releasing (!pending) (.ok ()) size rest) }
    have flagged' : (s.generator.applyReseed seed).inFlight = true := flagged
    simp only [hold, release, release_flag pending flagged'] at released
    exact released.completes (completes_generating rfl later)

/-- The holder of the lock serves its chunks as the generator does. -/
theorem completes_looking (sizes : List Nat) :
    ∀ s : Session τ, s.holder = some (.looking sizes) →
      Completes supply s (left (s.generator.chunks supply sizes s.world)) := by
  induction sizes with
  | nil =>
      intro s holds
      have step : Step supply s (s.hold supply).1 (s.hold supply).2 := .hold s
      simp only [hold, holds] at step
      exact step.completes (completes_here rfl)
  | cons size rest ih =>
      intro s holds
      have step : Step supply s (s.hold supply).1 (s.hold supply).2 := .hold s
      simp only [hold, holds] at step
      apply step.completes
      rw [FastGenerator.left_chunks_cons, FastGenerator.prepare, look]
      by_cases above : s.generator.projected size > s.generator.policy.hard
      · rw [if_pos above, if_pos above]
        have served : Completes supply _ _ := completes_reseeding
          (s := { s with
            generator := { s.generator with inFlight := true }
            holder := some (.reseeding (!s.generator.inFlight) size rest) })
          rfl rfl ih
        rw [FastGenerator.reseedHolding, Action.run_bind]
        generalize FastGenerator.reseedNow supply { s.generator with inFlight := true } s.world =
          reseeded at served ⊢
        rcases reseeded with ⟨⟨result, g⟩, t⟩
        cases result with
        | error e => exact served
        | ok u => exact served
      · rw [if_neg above, if_neg above]
        by_cases soon : s.generator.projected size > s.generator.policy.soft ∧
            !s.generator.inFlight
        · rw [if_pos soon, if_pos soon]
          exact completes_generating rfl ih
        · rw [if_neg soon, if_neg soon]
          exact completes_generating rfl ih

/-- A fill is a run. -/
theorem completes_fill (supply : Supply τ) (free : s.holder = none) (n : Nat) :
    Completes supply s (left (s.generator.fill supply n s.world)) := by
  unfold FastGenerator.fill
  split
  · exact completes_here free
  · split
    · exact completes_here free
    · exact (Step.request s n free).completes (completes_looking _ _ rfl)

/-! ## Other operations -/

/-- A reseed on a caller's demand is a run. -/
theorem completes_reseed (supply : Supply τ) (free : s.holder = none) :
    Completes supply s (left (s.generator.reseed supply s.world)) := by
  unfold FastGenerator.reseed
  split
  · exact completes_here free
  · exact (Step.demand s free).completes (completes_here free)

/-- A disposal is a run. -/
theorem completes_dispose (supply : Supply τ) (free : s.holder = none) :
    Completes supply s (s.generator.dispose supply s.world) :=
  (Step.dispose s).completes (completes_here free)

/-- A background reseed about to give the flag back ends. -/
theorem completes_ending (supply : Supply τ) (s : Session τ) (free : s.holder = none) {i : Nat}
    {outcome : Except Error Unit} (ending : s.reseeds[i]? = some (.ending outcome)) :
    Completes supply s (s.generator.endBackground outcome s.world) := by
  have step : s.background supply i = some ([],
      { s with
        generator := (s.generator.endBackground outcome s.world).1
        world := (s.generator.endBackground outcome s.world).2
        reseeds := s.reseeds.eraseIdx i }) := by
    rw [background, ending]
    rfl
  exact (Step.background i step).completes (completes_here free)

/-- A background reseed that has its seed applies it and ends. -/
theorem completes_drawn (supply : Supply τ) (s : Session τ) (free : s.holder = none) {i : Nat}
    {seed : Bytes} (drawn : s.reseeds[i]? = some (.drawn seed)) :
    Completes supply s
      ((s.generator.applyBackground seed >>= fun g => g.endBackground (.ok ())) s.world) := by
  have step : s.background supply i = some (if s.generator.disposed then [] else [.seed],
      { s with
        generator := (s.generator.applyBackground seed s.world).1
        world := (s.generator.applyBackground seed s.world).2
        reseeds := s.reseeds.set i (.ending (.ok ())) }) := by
    rw [background, drawn]
    simp only [free]
    rfl
  have within := (List.getElem?_eq_some_iff.mp drawn).1
  apply (Step.background i step).completes
  rw [Action.run_bind]
  apply completes_ending supply
  · exact free
  · exact List.getElem?_set_self within

/-- A background reseed about to draw its seed does so, applies it and ends. -/
theorem completes_drawing (supply : Supply τ) (s : Session τ) (free : s.holder = none) {i : Nat}
    (drawing : s.reseeds[i]? = some .drawing) :
    Completes supply s
      (match (supply.drawInBackground s.generator.seedSize).toAction s.world with
      | (.error e, t) => s.generator.endBackground (.error e) t
      | (.ok seed, t) =>
          (s.generator.applyBackground seed >>= fun g => g.endBackground (.ok ())) t) := by
  have within := (List.getElem?_eq_some_iff.mp drawing).1
  rcases drew : (supply.drawInBackground s.generator.seedSize).toAction s.world with ⟨result, t⟩
  cases result with
  | error e =>
      have step : s.background supply i = some ([],
          { s with world := t, reseeds := s.reseeds.set i (.ending (.error e)) }) := by
        rw [background, drawing]
        simp only [drew]
      apply (Step.background i step).completes
      apply completes_ending supply
      · exact free
      · exact List.getElem?_set_self within
  | ok seed =>
      have step : s.background supply i = some ([],
          { s with world := t, reseeds := s.reseeds.set i (.drawn seed) }) := by
        rw [background, drawing]
        simp only [drew]
      apply (Step.background i step).completes
      apply completes_drawn supply
      · exact free
      · exact List.getElem?_set_self within

/-- A background reseed that was scheduled and is run to its end is a run. -/
theorem completes_background (supply : Supply τ) (free : s.holder = none) {i : Nat}
    (scheduled : s.reseeds[i]? = some .scheduled)
    (noted : s.generator.background = .scheduled) :
    Completes supply s (s.generator.runBackground supply s.world) := by
  have within := (List.getElem?_eq_some_iff.mp scheduled).1
  cases disposed : s.generator.disposed with
  | true =>
      have step : s.background supply i = some ([],
          { s with reseeds := s.reseeds.set i (.ending (.ok ())) }) := by
        rw [background, scheduled]
        simp only [disposed]
        rfl
      apply (Step.background i step).completes
      rw [FastGenerator.runBackground_disposed supply noted disposed]
      apply completes_ending supply
      · exact free
      · exact List.getElem?_set_self within
  | false =>
      have step : s.background supply i = some ([],
          { s with reseeds := s.reseeds.set i .drawing }) := by
        rw [background, scheduled]
        simp only [disposed]
        rfl
      apply (Step.background i step).completes
      rw [FastGenerator.runBackground_live supply noted disposed]
      apply completes_drawing supply
      · exact free
      · exact List.getElem?_set_self within

end Session

end EntropySeal
