import EntropySeal.Proofs.Generator.Combiner
import Mathlib.Logic.Function.Basic

/-!
# Disposal of a slow generator in use

A slow generator in use by many callers at once.  A fill takes the lock, tests whether
the generator was disposed, runs its rounds and gives the lock back.  A disposal closes
the generator without the lock, and takes the lock to release the sources.  Between any
two of these steps other callers can take theirs.

A round over no source would give zeros.  It never happens (`rounds_keep_sources`): the
generator is closed before the sources are released, and a fill tests after it has the
lock.  So a fill that was let in keeps the lock, and with it the sources, until it
answers, and one that tests after the generator was closed is turned away.

What a call did is its `Course`.  Left alone, a fill and a disposal end as if they were
done at one stroke (`reaches_of_waiting`, `reaches_of_closing`).
-/

namespace EntropySeal

/-- What a caller asks of a slow generator. -/
inductive SlowCall where
  | fill (n : Nat)
  | dispose

namespace SlowCall

/-- How far a call has come. -/
inductive Stage where
  /-- A fill of `n` bytes is about to take the lock. -/
  | waiting (n : Nat)
  /-- It has the lock and is about to test whether the generator was disposed. -/
  | testing (n : Nat)
  /-- It was let in and has the blocks of the rounds so far. -/
  | serving (n : Nat) (blocks : List Bytes)
  /-- It has its answer and is about to give the lock back. -/
  | leaving (answer : Delivery)
  | answered (answer : Delivery)
  /-- A disposal is about to close the generator. -/
  | closing
  /-- It closed the generator and is about to take the lock. -/
  | queueing
  /-- It has the lock and is about to release the sources. -/
  | releasing
  /-- It released the sources and is about to give the lock back. -/
  | parting
  /-- It is about to log the disposal. -/
  | noting
  | ended

namespace Stage

/-- The call has the lock. -/
def Inside : Stage → Prop
  | testing _ | serving .. | leaving _ | releasing | parting => True
  | waiting _ | answered _ | closing | queueing | noting | ended => False

/-- The call is in its rounds. -/
def InRounds : Stage → Prop
  | serving .. => True
  | waiting _ | testing _ | leaving _ | answered _ | closing | queueing | releasing | parting
  | noting | ended => False

theorem InRounds.inside {stage : Stage} (rounds : stage.InRounds) : stage.Inside := by
  cases stage <;> trivial

/-- A disposal has closed the generator. -/
def HasClosed : Stage → Prop
  | queueing | releasing | parting | noting | ended => True
  | waiting _ | testing _ | serving .. | leaving _ | answered _ | closing => False

end Stage

/-- Where a call begins. -/
def stage : SlowCall → Stage
  | fill n => .waiting n
  | dispose => .closing

theorem not_inside_stage (call : SlowCall) : ¬call.stage.Inside := by
  cases call <;> exact id

theorem not_hasClosed_stage (call : SlowCall) : ¬call.stage.HasClosed := by
  cases call <;> exact id

end SlowCall

open SlowCall (Stage)

/-- What a call did that others can notice. -/
inductive SlowAct (σ : Type) where
  /-- Tested whether the generator was disposed, and found this. -/
  | tested (found : Bool)
  /-- Ran a round over these sources, with this result. -/
  | ran (sources : List (Conditioner σ)) (result : Except Error Bytes)
  /-- Closed the generator, or found it closed. -/
  | closed

/-- Who did what. -/
structure SlowDeed (ι σ : Type) where
  caller : ι
  act : SlowAct σ

/-- A slow generator that callers share. -/
structure SlowSession (ι σ : Type) where
  generator : SlowGenerator σ
  /-- The world of the sources, and the log. -/
  world : Traced σ
  /-- Who has the lock. -/
  lock : Option ι := none
  stage : ι → Stage

namespace SlowGenerator

variable {σ : Type}

/-- The sources of a generator are those it was made of, one at least. -/
theorem make_eq_ok {cs : List (Conditioner σ)} {g : SlowGenerator σ}
    (made : make cs = .ok g) :
    cs ≠ [] ∧ g.conditioners = cs ∧ g.disposed = false := by
  unfold make at made
  split at made
  · cases made
  · split at made
    · cases made
    · cases made
      exact ⟨List.cons_ne_nil _ _, rfl, rfl⟩

variable (g : SlowGenerator σ)

theorem letIn_eq_ok_iff : g.letIn = .ok () ↔ g.disposed = false := by
  rw [letIn]
  cases g.disposed <;> simp

theorem letIn_eq_error_iff {e : Error} :
    g.letIn = .error e ↔ g.disposed = true ∧ .disposed .slowGenerator = e := by
  rw [letIn]
  cases g.disposed <;> simp

end SlowGenerator

namespace SlowSession

variable {ι σ : Type} [DecidableEq ι]

/-! ## Steps -/

/-- A call goes on to this stage. -/
def goesTo (s : SlowSession ι σ) (i : ι) (stage : Stage) : SlowSession ι σ :=
  { s with stage := Function.update s.stage i stage }

/-- One step of one call, with what others can notice of it.  A fill of no bytes needs
no lock, any other takes it before the test; a disposal takes it after the generator
is closed. -/
inductive Step (s : SlowSession ι σ) (i : ι) :
    Option (SlowAct σ) → SlowSession ι σ → Prop where
  | nothing : s.stage i = .waiting 0 → Step s i none (s.goesTo i (.answered ⟨[], none⟩))
  | enter {n : Nat} : s.stage i = .waiting n → 0 < n → s.lock = none →
      Step s i none { s.goesTo i (.testing n) with lock := some i }
  | letIn {n : Nat} : s.stage i = .testing n → s.generator.letIn = .ok () →
      Step s i (some (.tested s.generator.disposed)) (s.goesTo i (.serving n []))
  | refuse {n : Nat} {e : Error} : s.stage i = .testing n → s.generator.letIn = .error e →
      Step s i (some (.tested s.generator.disposed)) (s.goesTo i (.leaving (.failed e)))
  | round {n : Nat} {blocks : List Bytes} {block : Bytes} {world : Traced σ} :
      s.stage i = .serving n blocks →
      blocks.length < SlowGenerator.roundCount s.generator.size n →
      (SlowGenerator.round s.generator.size s.generator.conditioners).toAction s.world =
        (.ok block, world) →
      Step s i (some (.ran s.generator.conditioners (.ok block)))
        { s.goesTo i (.serving n (blocks ++ [block])) with world }
  | stop {n : Nat} {blocks : List Bytes} {e : Error} {world : Traced σ} :
      s.stage i = .serving n blocks →
      blocks.length < SlowGenerator.roundCount s.generator.size n →
      (SlowGenerator.round s.generator.size s.generator.conditioners).toAction s.world =
        (.error e, world) →
      Step s i (some (.ran s.generator.conditioners (.error e)))
        { s.goesTo i (.leaving (.failed e)) with world }
  | finish {n : Nat} {blocks : List Bytes} : s.stage i = .serving n blocks →
      SlowGenerator.roundCount s.generator.size n ≤ blocks.length →
      Step s i none
        { s.goesTo i (.leaving ⟨blocks.flatten.take n, none⟩) with
          generator := s.generator.credit n }
  | leave {answer : Delivery} : s.stage i = .leaving answer →
      Step s i none { s.goesTo i (.answered answer) with lock := none }
  | close : s.stage i = .closing → s.generator.disposed = false →
      Step s i (some .closed) { s.goesTo i .queueing with generator := s.generator.close }
  | again : s.stage i = .closing → s.generator.disposed = true →
      Step s i (some .closed) (s.goesTo i .ended)
  | queue : s.stage i = .queueing → s.lock = none →
      Step s i none { s.goesTo i .releasing with lock := some i }
  | release : s.stage i = .releasing →
      Step s i none { s.goesTo i .parting with generator := s.generator.release }
  | part : s.stage i = .parting →
      Step s i none { s.goesTo i .noting with lock := none }
  | note : s.stage i = .noting →
      Step s i none { s.goesTo i .ended with
        world := { s.world with events := s.world.events ++ [.slowDisposed] } }

/-- Any number of steps, with all that can be noticed of them. -/
inductive Run (start : SlowSession ι σ) : List (SlowDeed ι σ) → SlowSession ι σ → Prop where
  | nothing : Run start [] start
  | step {history : List (SlowDeed ι σ)} {s next : SlowSession ι σ} {i : ι}
      {act : Option (SlowAct σ)} : Run start history s → Step s i act next →
      Run start (history ++ act.toList.map (SlowDeed.mk i)) next
  /-- Others use the sources, or the log. -/
  | others {history : List (SlowDeed ι σ)} {s : SlowSession ι σ} (world : Traced σ) :
      Run start history s → Run start history { s with world }

/-- Calls that begin. -/
def start (generator : SlowGenerator σ) (world : Traced σ) (calls : ι → SlowCall) :
    SlowSession ι σ where
  generator
  world
  stage i := (calls i).stage

/-! ## What calls did -/

/-- What one caller did. -/
def actsOf (i : ι) (history : List (SlowDeed ι σ)) : List (SlowAct σ) :=
  (history.filter fun d => d.caller = i).map SlowDeed.act

/-- Somebody closed the generator. -/
def Closed (history : List (SlowDeed ι σ)) : Prop :=
  ∃ d ∈ history, d.act = .closed

theorem actsOf_append_self (i : ι) (history : List (SlowDeed ι σ)) (act : Option (SlowAct σ)) :
    actsOf i (history ++ act.toList.map (SlowDeed.mk i)) = actsOf i history ++ act.toList := by
  cases act <;> simp [actsOf]

theorem actsOf_append_of_ne {i j : ι} (other : j ≠ i) (history : List (SlowDeed ι σ))
    (act : Option (SlowAct σ)) :
    actsOf j (history ++ act.toList.map (SlowDeed.mk i)) = actsOf j history := by
  cases act <;> simp [actsOf, other.symm]

omit [DecidableEq ι] in
theorem closed_append_iff (i : ι) (history : List (SlowDeed ι σ)) (act : Option (SlowAct σ)) :
    Closed (history ++ act.toList.map (SlowDeed.mk i)) ↔ Closed history ∨ act = some .closed := by
  cases act <;> simp [Closed, or_and_right, exists_or]

/-- What a call does on its way to a stage: a fill tests once, and either finds the
generator disposed, answers that and runs no round, or runs its rounds over these
sources, all of them or up to one that fails, and answers with what they gave. -/
inductive Course (size : Nat) (cs : List (Conditioner σ)) :
    SlowCall → List (SlowAct σ) → Stage → Prop where
  | waiting {n : Nat} : Course size cs (.fill n) [] (.waiting n)
  | nothing : Course size cs (.fill 0) [] (.answered ⟨[], none⟩)
  | testing {n : Nat} : 0 < n → Course size cs (.fill n) [] (.testing n)
  | refused {n : Nat} :
      Course size cs (.fill n) [.tested true] (.leaving (.failed (.disposed .slowGenerator)))
  | serving {n : Nat} {blocks : List Bytes} :
      blocks.length ≤ SlowGenerator.roundCount size n →
      Course size cs (.fill n) (.tested false :: blocks.map fun block => .ran cs (.ok block))
        (.serving n blocks)
  | served {n : Nat} {blocks : List Bytes} :
      blocks.length = SlowGenerator.roundCount size n →
      Course size cs (.fill n) (.tested false :: blocks.map fun block => .ran cs (.ok block))
        (.leaving ⟨blocks.flatten.take n, none⟩)
  | stopped {n : Nat} {blocks : List Bytes} {e : Error} :
      blocks.length < SlowGenerator.roundCount size n →
      Course size cs (.fill n)
        (.tested false :: blocks.map (fun block => .ran cs (.ok block)) ++ [.ran cs (.error e)])
        (.leaving (.failed e))
  | left {call : SlowCall} {acts : List (SlowAct σ)} {answer : Delivery} :
      Course size cs call acts (.leaving answer) → Course size cs call acts (.answered answer)
  | closing : Course size cs .dispose [] .closing
  | closed {stage : Stage} : stage.HasClosed → Course size cs .dispose [.closed] stage

section Course

variable {size : Nat} {cs : List (Conditioner σ)} {call : SlowCall} {acts : List (SlowAct σ)}
  {stage : Stage}

/-- All rounds of a call are over the same sources. -/
theorem Course.sources_eq (course : Course size cs call acts stage) {sources : List (Conditioner σ)}
    {result : Except Error Bytes} (ran : .ran sources result ∈ acts) : sources = cs := by
  induction course with
  | left _ ih => exact ih ran
  | waiting | nothing | testing | refused | closing | closed => simp at ran
  | serving | served | stopped => grind

/-- A fill that finds the generator disposed does nothing else. -/
theorem Course.of_refused (course : Course size cs call acts stage)
    (refused : .tested true ∈ acts) :
    acts = [.tested true] ∧ (stage = .leaving (.failed (.disposed .slowGenerator)) ∨
      stage = .answered (.failed (.disposed .slowGenerator))) := by
  induction course with
  | left _ ih =>
      obtain ⟨only, leaving | answered⟩ := ih refused
      · cases leaving
        exact ⟨only, .inr rfl⟩
      · cases answered
  | refused => exact ⟨rfl, .inl rfl⟩
  | waiting | nothing | testing | serving | served | stopped | closing | closed =>
      simp at refused

end Course

/-! ## What every step keeps -/

/-- What every run keeps. -/
structure Kept (size : Nat) (cs : List (Conditioner σ)) (calls : ι → SlowCall)
    (history : List (SlowDeed ι σ)) (s : SlowSession ι σ) : Prop where
  size_eq : s.generator.size = size
  /-- A call that is inside has the lock. -/
  holds : ∀ i, (s.stage i).Inside → s.lock = some i
  disposed_iff : s.generator.disposed = true ↔ Closed history
  /-- Sources are released after the generator is closed. -/
  closed : ∀ i, (s.stage i).HasClosed → s.generator.disposed = true
  /-- Sources are released while nobody is in its rounds. -/
  sources : s.generator.conditioners = cs ∨
    s.generator.disposed = true ∧ ∀ i, ¬(s.stage i).InRounds
  course : ∀ i, Course size cs (calls i) (actsOf i history) (s.stage i)

section Step

variable {size : Nat} {cs : List (Conditioner σ)} {calls : ι → SlowCall}
  {history : List (SlowDeed ι σ)} {s next : SlowSession ι σ} {i : ι} {act : Option (SlowAct σ)}

@[simp]
theorem stage_goesTo_self (s : SlowSession ι σ) (i : ι) (stage : Stage) :
    (s.goesTo i stage).stage i = stage :=
  Function.update_self ..

@[simp]
theorem stage_goesTo_of_ne {j : ι} (other : j ≠ i) (s : SlowSession ι σ) (stage : Stage) :
    (s.goesTo i stage).stage j = s.stage j :=
  Function.update_of_ne other ..

/-- A step of one call leaves the others where they are. -/
theorem Step.stage_of_ne (step : Step s i act next) {j : ι} (other : j ≠ i) :
    next.stage j = s.stage j := by
  cases step <;> exact stage_goesTo_of_ne other ..

/-- Only a disposal closes the generator, and nothing opens it again. -/
theorem Step.disposed_iff (step : Step s i act next) :
    next.generator.disposed = true ↔ s.generator.disposed = true ∨ act = some .closed := by
  cases step <;> simp_all [goesTo, SlowGenerator.credit, SlowGenerator.close,
    SlowGenerator.release]

/-- A test finds the flag as it is. -/
theorem Step.tested {found : Bool} (step : Step s i (some (.tested found)) next) :
    s.generator.disposed = found := by
  cases step <;> rfl

/-- A step leaves the lock as it is, takes it where it is free, or gives it back. -/
theorem Step.lock_cases (step : Step s i act next) :
    (next.lock = s.lock ∧ ((next.stage i).Inside → (s.stage i).Inside)) ∨
    (s.lock = none ∧ next.lock = some i) ∨
    ((s.stage i).Inside ∧ ¬(next.stage i).Inside ∧ next.lock = none) := by
  cases step with
  | enter _ _ free | queue _ free => exact .inr (.inl ⟨free, rfl⟩)
  | leave stage | part stage =>
      exact .inr (.inr ⟨by simp [stage, Stage.Inside], by simp [Stage.Inside], rfl⟩)
  | nothing stage | letIn stage | refuse stage | round stage | stop stage | finish stage
  | close stage | again stage | release stage | note stage =>
      exact .inl ⟨rfl, by simp [stage, Stage.Inside]⟩

theorem Kept.holds_step (kept : Kept size cs calls history s) (step : Step s i act next) (j : ι)
    (inside : (next.stage j).Inside) : next.lock = some j := by
  by_cases same : j = i
  · subst same
    rcases step.lock_cases with ⟨unchanged, before⟩ | ⟨-, taken⟩ | ⟨-, outside, -⟩
    · exact unchanged.trans (kept.holds j (before inside))
    · exact taken
    · exact absurd inside outside
  · rw [step.stage_of_ne same] at inside
    have held := kept.holds j inside
    rcases step.lock_cases with ⟨unchanged, -⟩ | ⟨free, -⟩ | ⟨before, -, -⟩
    · exact unchanged.trans held
    · rw [free] at held
      cases held
    · rw [kept.holds i before] at held
      cases held
      exact absurd rfl same

/-- A disposal goes on after it closed the generator. -/
theorem Kept.closed_step (kept : Kept size cs calls history s) (step : Step s i act next) (j : ι)
    (closed : (next.stage j).HasClosed) : next.generator.disposed = true := by
  rw [step.disposed_iff]
  by_cases same : j = i
  · subst same
    have before := kept.closed j
    cases step <;> simp_all [Stage.HasClosed]
  · rw [step.stage_of_ne same] at closed
    exact .inl (kept.closed j closed)

/-- In its rounds a call has the sources that were there at the beginning. -/
theorem Kept.conditioners_eq (kept : Kept size cs calls history s) {n : Nat} {blocks : List Bytes}
    (stage : s.stage i = .serving n blocks) : s.generator.conditioners = cs := by
  rcases kept.sources with same | ⟨-, nobody⟩
  · exact same
  · exact absurd (by rw [stage]; trivial) (nobody i)

/-- A step leaves the sources as they are, or it releases them after the generator is
closed, and with the lock. -/
theorem Step.conditioners_cases (step : Step s i act next) :
    next.generator.conditioners = s.generator.conditioners ∨
      s.stage i = .releasing := by
  cases step with
  | release stage => exact .inr stage
  | nothing | enter | letIn | refuse | round | stop | finish | leave | close | again | queue
  | part | note => exact .inl rfl

/-- No call gets to its rounds after the generator is closed. -/
theorem Step.inRounds (step : Step s i act next) (rounds : (next.stage i).InRounds) :
    (s.stage i).InRounds ∨ s.generator.disposed = false := by
  cases step with
  | letIn _ letIn => exact .inr (s.generator.letIn_eq_ok_iff.mp letIn)
  | round stage => exact .inl (by simp [stage, Stage.InRounds])
  | nothing | enter | refuse | stop | finish | leave | close | again | queue | release
  | part | note => simp [Stage.InRounds] at rounds

theorem Kept.sources_step (kept : Kept size cs calls history s) (step : Step s i act next) :
    next.generator.conditioners = cs ∨
      next.generator.disposed = true ∧ ∀ j, ¬(next.stage j).InRounds := by
  have stays : s.generator.disposed = true → (∀ j, ¬(s.stage j).InRounds) →
      next.generator.disposed = true ∧ ∀ j, ¬(next.stage j).InRounds := by
    intro disposed nobody
    refine ⟨step.disposed_iff.mpr (.inl disposed), ?_⟩
    intro j rounds
    by_cases same : j = i
    · subst same
      rcases step.inRounds rounds with before | live
      · exact nobody j before
      · rw [disposed] at live
        cases live
    · rw [step.stage_of_ne same] at rounds
      exact nobody j rounds
  rcases kept.sources with same | ⟨disposed, nobody⟩
  · rcases step.conditioners_cases with unchanged | stage
    · exact .inl (unchanged.trans same)
    · have held := kept.holds i (by rw [stage]; trivial)
      refine .inr (stays (kept.closed i (by rw [stage]; trivial)) ?_)
      intro j rounds
      -- Two calls would have the lock.
      have both := kept.holds j (Stage.InRounds.inside rounds)
      rw [held] at both
      cases both
      rw [stage] at rounds
      exact rounds
  · exact .inr (stays disposed nobody)

theorem Course.goesTo {call : SlowCall} {acts : List (SlowAct σ)} {stage : Stage}
    (s : SlowSession ι σ) (i : ι) (course : Course size cs call acts stage) :
    Course size cs call acts ((s.goesTo i stage).stage i) := by
  rwa [stage_goesTo_self]

/-- A step goes on with the course of its call. -/
theorem Kept.course_step (kept : Kept size cs calls history s) (step : Step s i act next) :
    Course size cs (calls i) (actsOf i history ++ act.toList) (next.stage i) := by
  have course := kept.course i
  generalize calls i = call at course ⊢
  generalize actsOf i history = acts at course ⊢
  cases step with
  | nothing stage =>
      rw [stage] at course
      cases course with
      | waiting => exact .goesTo s i .nothing
      | closed closed => cases closed
  | enter stage pos =>
      rw [stage] at course
      cases course with
      | waiting => exact .goesTo s i (.testing pos)
      | closed closed => cases closed
  | letIn stage letIn =>
      rw [stage] at course
      rw [(s.generator.letIn_eq_ok_iff).mp letIn]
      cases course with
      | testing => exact .goesTo s i (@Course.serving σ size cs _ [] (Nat.zero_le _))
      | closed closed => cases closed
  | refuse stage letIn =>
      obtain ⟨disposed, rfl⟩ := (s.generator.letIn_eq_error_iff).mp letIn
      rw [stage] at course
      rw [disposed]
      cases course with
      | testing => exact .goesTo s i .refused
      | closed closed => cases closed
  | @round n blocks block _ stage more ran =>
      rw [stage] at course
      rw [kept.size_eq] at more
      rw [kept.conditioners_eq stage]
      cases course with
      | serving =>
          have further : (blocks ++ [block]).length ≤ SlowGenerator.roundCount size n := by
            rw [List.length_append]
            exact more
          have course : Course size cs (.fill n) _ _ := .goesTo s i (.serving further)
          rw [List.map_append] at course
          exact course
      | closed closed => cases closed
  | stop stage more ran =>
      rw [stage] at course
      rw [kept.size_eq] at more
      rw [kept.conditioners_eq stage]
      cases course with
      | serving => exact .goesTo s i (.stopped more)
      | closed closed => cases closed
  | finish stage enough =>
      rw [stage] at course
      rw [kept.size_eq] at enough
      cases course with
      | serving within =>
          rw [Option.toList, List.append_nil]
          exact .goesTo s i (.served (Nat.le_antisymm within enough))
      | closed closed => cases closed
  | leave stage =>
      rw [stage] at course
      rw [Option.toList, List.append_nil]
      exact .goesTo s i course.left
  | close stage | again stage =>
      rw [stage] at course
      cases course with
      | closing => exact .goesTo s i (.closed trivial)
      | closed closed => cases closed
  | queue stage | release stage | part stage | note stage =>
      rw [stage] at course
      cases course with
      | closed => exact .goesTo s i (.closed trivial)

theorem Step.size_eq (step : Step s i act next) : next.generator.size = s.generator.size := by
  cases step <;> rfl

/-- What every run keeps is kept by a step. -/
theorem Kept.step (kept : Kept size cs calls history s) (step : Step s i act next) :
    Kept size cs calls (history ++ act.toList.map (SlowDeed.mk i)) next where
  size_eq := step.size_eq.trans kept.size_eq
  holds := kept.holds_step step
  disposed_iff := by rw [step.disposed_iff, kept.disposed_iff, closed_append_iff]
  closed := kept.closed_step step
  sources := kept.sources_step step
  course := by
    intro j
    by_cases same : j = i
    · subst same
      rw [actsOf_append_self]
      exact kept.course_step step
    · rw [actsOf_append_of_ne same, step.stage_of_ne same]
      exact kept.course j

theorem Kept.others (kept : Kept size cs calls history s) (world : Traced σ) :
    Kept size cs calls history { s with world } :=
  { kept with }

/-- Calls begin outside. -/
theorem kept_start {generator : SlowGenerator σ} (live : generator.disposed = false)
    (world : Traced σ) (calls : ι → SlowCall) :
    Kept generator.size generator.conditioners calls [] (start generator world calls) where
  size_eq := rfl
  holds i inside := absurd inside (calls i).not_inside_stage
  disposed_iff := by simp [start, live, Closed]
  closed i closed := absurd closed (calls i).not_hasClosed_stage
  sources := .inl rfl
  course i := by
    change Course _ _ (calls i) [] (calls i).stage
    cases calls i with
    | fill n => exact .waiting
    | dispose => exact .closing

end Step

section Run

variable {size : Nat} {cs : List (Conditioner σ)} {calls : ι → SlowCall}
  {history : List (SlowDeed ι σ)} {first s : SlowSession ι σ}

theorem Run.kept (run : Run first history s) (kept : Kept size cs calls [] first) :
    Kept size cs calls history s := by
  induction run with
  | nothing => exact kept
  | step _ step ih => exact ih.step step
  | others world _ ih => exact ih.others world

/-- A test finds the generator disposed where a disposal closed it before. -/
theorem Run.tested_iff (run : Run first history s) (kept : Kept size cs calls [] first)
    {past : List (SlowDeed ι σ)} {i : ι} {found : Bool}
    (tested : past ++ [⟨i, .tested found⟩] <+: history) : found = true ↔ Closed past := by
  induction run with
  | nothing => simp at tested
  | others world _ ih => exact ih tested
  | @step history s next j act run step ih =>
      cases act with
      | none => exact ih (by simpa using tested)
      | some act =>
          have tested : past ++ [⟨i, .tested found⟩] <+: history ++ [⟨j, act⟩] := tested
          rcases List.prefix_concat_iff.mp tested with last | earlier
          · obtain ⟨rfl, same⟩ := List.append_inj' last rfl
            cases same
            rw [← step.tested]
            exact (run.kept kept).disposed_iff
          · exact ih earlier

end Run

/-! ## Calls that are not interrupted -/

section Alone

variable {s next later : SlowSession ι σ} {i : ι} {n : Nat}

/-- Some steps lead from one session to another. -/
def Reaches (s next : SlowSession ι σ) : Prop :=
  ∃ history, Run s history next

theorem Step.reaches {act : Option (SlowAct σ)} (step : Step s i act next) : s.Reaches next :=
  ⟨_, .step .nothing step⟩

theorem Reaches.trans (first : s.Reaches next) (second : next.Reaches later) :
    s.Reaches later := by
  obtain ⟨history, first⟩ := first
  obtain ⟨further, second⟩ := second
  induction second with
  | nothing => exact ⟨_, first⟩
  | step _ step ih =>
      obtain ⟨_, before⟩ := ih
      exact ⟨_, .step before step⟩
  | others world _ ih =>
      obtain ⟨_, before⟩ := ih
      exact ⟨_, .others world before⟩

@[simp]
theorem goesTo_goesTo (s : SlowSession ι σ) (i : ι) (a b : Stage) :
    (s.goesTo i a).goesTo i b = s.goesTo i b := by
  simp [goesTo]

/-- A call that has its answer gives the lock back. -/
theorem reaches_of_leaving {answer : Delivery} (stage : s.stage i = .leaving answer) :
    s.Reaches { s.goesTo i (.answered answer) with lock := none } :=
  (Step.leave stage).reaches

/-- A fill that is left alone in its rounds runs the rest of them and answers. -/
theorem reaches_of_serving {k : Nat} {blocks : List Bytes}
    (stage : s.stage i = .serving n blocks)
    (rest : blocks.length + k = SlowGenerator.roundCount s.generator.size n) :
    s.Reaches
      (match (SlowGenerator.rounds s.generator.size s.generator.conditioners k).toAction
          s.world with
      | (.ok more, world) =>
          { s.goesTo i (.answered ⟨(blocks ++ more).flatten.take n, none⟩) with
            generator := s.generator.credit n, world, lock := none }
      | (.error e, world) =>
          { s.goesTo i (.answered (.failed e)) with world, lock := none }) := by
  induction k generalizing s blocks with
  | zero =>
      have finished := (Step.finish stage (Nat.le_of_eq rest.symm)).reaches
      have left := finished.trans (reaches_of_leaving (stage_goesTo_self s i _))
      simpa [goesTo, SlowGenerator.rounds] using left
  | succ k ih =>
      have more : blocks.length < SlowGenerator.roundCount s.generator.size n := by omega
      rcases ran : (SlowGenerator.round s.generator.size s.generator.conditioners).toAction
        s.world with ⟨result, world⟩
      cases result with
      | error e =>
          have stopped := (Step.stop stage more ran).reaches
          have left := stopped.trans (reaches_of_leaving (stage_goesTo_self s i _))
          rw [SlowGenerator.rounds, Attempt.run_bind_error ran]
          simpa [goesTo] using left
      | ok block =>
          have one := (Step.round stage more ran).reaches
          have fewer : (blocks ++ [block]).length + k =
              SlowGenerator.roundCount s.generator.size n := by
            rw [List.length_append, List.length_singleton]
            omega
          have others := one.trans (ih (stage_goesTo_self s i _) fewer)
          rw [SlowGenerator.rounds, Attempt.run_bind_ok ran, Attempt.run_bind]
          rcases later : (SlowGenerator.rounds s.generator.size s.generator.conditioners
            k).toAction world with ⟨result, world'⟩
          simp only [goesTo, Function.update_idem] at others
          rw [later] at others
          cases result with
          | error e => exact others
          | ok more => simpa [goesTo] using others

/-- A fill that is left alone before its test does what a fill does at one stroke. -/
theorem reaches_of_testing (stage : s.stage i = .testing n) (pos : 0 < n) :
    s.Reaches
      { s.goesTo i (.answered (s.generator.fill n s.world).1.1) with
        generator := (s.generator.fill n s.world).1.2
        world := (s.generator.fill n s.world).2
        lock := none } := by
  rcases live : s.generator.disposed with _ | _
  · have letIn := s.generator.letIn_eq_ok_iff.mpr live
    have begun := (Step.letIn stage letIn).reaches
    have served := begun.trans (reaches_of_serving (stage_goesTo_self s i _) (Nat.zero_add _))
    simp only [goesTo, Function.update_idem, List.nil_append] at served
    rw [SlowGenerator.run_fill live pos]
    rcases ran : (SlowGenerator.rounds s.generator.size s.generator.conditioners
      (SlowGenerator.roundCount s.generator.size n)).toAction s.world with ⟨result, world⟩
    rw [ran] at served
    cases result with
    | error e => exact served
    | ok blocks => exact served
  · have letIn := s.generator.letIn_eq_error_iff.mpr ⟨live, rfl⟩
    have refused := (Step.refuse stage letIn).reaches
    have left := refused.trans (reaches_of_leaving (stage_goesTo_self s i _))
    have filled : s.generator.fill n s.world =
        ((.failed (.disposed .slowGenerator), s.generator), s.world) := by
      rw [SlowGenerator.fill, if_neg (Nat.ne_of_gt pos), letIn]
      rfl
    rw [goesTo_goesTo] at left
    rw [filled]
    exact left

/-- A fill that takes the lock and is left alone does what a fill does at one stroke. -/
theorem reaches_of_waiting (stage : s.stage i = .waiting n) (free : s.lock = none) :
    s.Reaches
      { s.goesTo i (.answered (s.generator.fill n s.world).1.1) with
        generator := (s.generator.fill n s.world).1.2
        world := (s.generator.fill n s.world).2 } := by
  rcases Nat.eq_zero_or_pos n with rfl | pos
  · exact (Step.nothing stage).reaches
  · have entered := (Step.enter stage pos free).reaches
    have served := entered.trans (reaches_of_testing (stage_goesTo_self s i _) pos)
    simp only [goesTo, Function.update_idem] at served
    rw [← free] at served
    exact served

/-- A disposal that is left alone does what a disposal does at one stroke. -/
theorem reaches_of_closing (stage : s.stage i = .closing) (free : s.lock = none) :
    s.Reaches
      { s.goesTo i .ended with
        generator := (s.generator.dispose s.world).1
        world := (s.generator.dispose s.world).2 } := by
  rcases live : s.generator.disposed with _ | _
  · have closed := (Step.close stage live).reaches
    have queued := closed.trans (Step.reaches (.queue (stage_goesTo_self s i _) free))
    have released := queued.trans (Step.reaches (.release (stage_goesTo_self _ i _)))
    have parted := released.trans (Step.reaches (.part (stage_goesTo_self _ i _)))
    have noted := parted.trans (Step.reaches (.note (stage_goesTo_self _ i _)))
    simp only [goesTo, Function.update_idem] at noted
    rw [← free] at noted
    simpa [goesTo, SlowGenerator.dispose, live] using noted
  · have again := (Step.again stage live).reaches
    simpa [goesTo, SlowGenerator.dispose, live] using again

/-- A fill that has the lock cannot be kept from answering. -/
theorem exists_answered {size : Nat} {cs : List (Conditioner σ)} {calls : ι → SlowCall}
    {history : List (SlowDeed ι σ)} (kept : Kept size cs calls history s)
    (fills : calls i = .fill n) (inside : (s.stage i).Inside) :
    ∃ answer next, s.Reaches next ∧ next.stage i = .answered answer := by
  have course := kept.course i
  rw [fills] at course
  generalize actsOf i history = acts at course
  rcases stage : s.stage i with m | m | ⟨m, blocks⟩ | answer | answer | _ | _ | _ | _ | _ | _
  case testing =>
    rw [stage] at course
    cases course with
    | testing pos => exact ⟨_, _, reaches_of_testing stage pos, stage_goesTo_self s i _⟩
  case serving =>
    rw [stage] at course
    cases course with
    | serving within =>
        rw [← kept.size_eq] at within
        have served := reaches_of_serving stage (Nat.add_sub_cancel' within)
        split at served
        · exact ⟨_, _, served, stage_goesTo_self s i _⟩
        · exact ⟨_, _, served, stage_goesTo_self s i _⟩
  case leaving => exact ⟨_, _, reaches_of_leaving stage, stage_goesTo_self s i _⟩
  -- A fill does not come to the stages of a disposal.
  case releasing =>
    rw [stage] at course
    cases course
  case parting =>
    rw [stage] at course
    cases course
  all_goals
    rw [stage] at inside
    exact inside.elim

end Alone

/-! ## Every run -/

/-- Fills and disposals share a generator that was made of these sources, in any
number and any order of their steps.  Every round is over all of these sources, and
never over none, which would give zeros.  A test finds the generator disposed where a
disposal closed it before, and then the fill answers that and runs no round.  Every
call takes its course: a fill that was let in runs all its rounds over these sources,
or those up to one that fails, and answers with what they gave; and once it has the
lock, nothing keeps it from answering. -/
theorem rounds_keep_sources {cs : List (Conditioner σ)} {g : SlowGenerator σ}
    (made : SlowGenerator.make cs = .ok g) {world : Traced σ} {calls : ι → SlowCall}
    {history : List (SlowDeed ι σ)} {s : SlowSession ι σ}
    (run : Run (start g world calls) history s) :
    (cs ≠ [] ∧ ∀ t : Traced σ,
      (SlowGenerator.round g.size []).toAction t = (.ok (Bytes.zeros g.size), t)) ∧
    (∀ i sources result, ⟨i, .ran sources result⟩ ∈ history → sources = cs) ∧
    (∀ past i found, past ++ [⟨i, .tested found⟩] <+: history →
      (found = true ↔ Closed past) ∧
      (found = true → actsOf i history = [.tested true] ∧
        (s.stage i = .leaving (.failed (.disposed .slowGenerator)) ∨
          s.stage i = .answered (.failed (.disposed .slowGenerator))))) ∧
    (∀ i, Course g.size cs (calls i) (actsOf i history) (s.stage i)) ∧
    ∀ i n, calls i = .fill n → (s.stage i).Inside →
      ∃ answer next, s.Reaches next ∧ next.stage i = .answered answer := by
  obtain ⟨some, rfl, live⟩ := SlowGenerator.make_eq_ok made
  have first := kept_start live world calls
  have kept := run.kept first
  have among : ∀ {i act}, ⟨i, act⟩ ∈ history → act ∈ actsOf i history := by
    intro i act member
    exact List.mem_map.mpr ⟨_, List.mem_filter.mpr ⟨member, by simp⟩, rfl⟩
  refine ⟨⟨some, fun _ => rfl⟩, ?_, ?_, kept.course, ?_⟩
  · intro i sources result member
    exact (kept.course i).sources_eq (among member)
  · intro past i found tested
    refine ⟨run.tested_iff first tested, ?_⟩
    rintro rfl
    exact (kept.course i).of_refused (among (tested.subset (by simp)))
  · intro i n fills inside
    exact exists_answered kept fills inside

/-! ### A disposal between two rounds -/

/-- Two fills and a disposal. -/
def three : Fin 3 → SlowCall
  | 0 => .fill 2
  | 1 => .dispose
  | 2 => .fill 1

/-- The disposal closes the generator between the two rounds of the first fill. -/
def before : List (SlowDeed (Fin 3) Unit) :=
  [⟨0, .tested false⟩, ⟨0, .ran SlowGenerator.duo.conditioners (.ok [4])⟩, ⟨1, .closed⟩,
    ⟨0, .ran SlowGenerator.duo.conditioners (.ok [4])⟩]

/-- The first fill gets both rounds in full, and the other one comes too late. -/
theorem rounds_keep_sources_duo : ∃ s,
    SlowGenerator.make SlowGenerator.duo.conditioners = .ok SlowGenerator.duo ∧
    Run (start SlowGenerator.duo ⟨(), []⟩ three) (before ++ [⟨2, .tested true⟩]) s ∧
    s.generator.conditioners = [] ∧ s.stage 0 = .answered ⟨[4, 4], none⟩ ∧
    Course 1 SlowGenerator.duo.conditioners (.fill 2) (actsOf 0 before) (s.stage 0) ∧
    Closed before ∧ s.stage 2 = .answered (.failed (.disposed .slowGenerator)) := by
  have made : SlowGenerator.make SlowGenerator.duo.conditioners = .ok SlowGenerator.duo := rfl
  have begun : Run (start SlowGenerator.duo ⟨(), []⟩ three) [] _ := .nothing
  have letIn := (begun.step (.enter (i := 0) rfl (by decide) rfl)).step (.letIn (i := 0) rfl rfl)
  have once := letIn.step (.round (i := 0) rfl (by decide) rfl)
  have closed := once.step (.close (i := 1) rfl rfl)
  have twice := closed.step (.round (i := 0) rfl (by decide) rfl)
  have served := (twice.step (.finish (i := 0) rfl (by decide))).step (.leave (i := 0) rfl)
  have late := (served.step (.enter (i := 2) rfl (by decide) rfl)).step (.refuse (i := 2) rfl rfl)
  have refused := late.step (.leave (i := 2) rfl)
  have run := (refused.step (.queue (i := 1) rfl rfl)).step (.release (i := 1) rfl)
  obtain ⟨-, -, tests, courses, -⟩ := rounds_keep_sources made run
  exact ⟨_, made, run, rfl, rfl, courses 0, (tests before 2 true ⟨[], rfl⟩).1.mp rfl, rfl⟩

end SlowSession

end EntropySeal
