import EntropySeal.Proofs.Generator.Threshold
import EntropySeal.Proofs.Generator.Uninterrupted

/-!
# The flag of background reseeds

Two parties compete for one flag: whoever crosses the soft threshold takes it
for a background reseed, which gives it back when it ends, and whoever crosses
the hard threshold borrows it if it is free.  The invariant counts them: there
are as many claims on the flag as the flag says, none or one
(`Session.Counted`).  So there is never more than one background reseed, and
whoever finds the flag taken leaves it to its owner.

Disposal is for ever, and a background reseed that finds the generator disposed
applies nothing.
-/

namespace EntropySeal

open Stretcher (Act)

namespace FastGenerator

variable {τ : Type}

/-- Generating touches neither flag. -/
theorem flags_of_generate {g next : FastGenerator} {size : Nat} {bytes : Bytes}
    (generated : g.generate size = .ok (bytes, next)) :
    next.inFlight = g.inFlight ∧ next.disposed = g.disposed := by
  rw [generate] at generated
  cases served : g.stretcher.nextBytes size with
  | error e =>
      rw [served] at generated
      cases generated
  | ok s =>
      rw [served] at generated
      cases generated
      exact ⟨rfl, rfl⟩

/-- A reseed touches neither flag, whether it fails or not. -/
theorem flags_of_reseedNow (supply : Supply τ) (g : FastGenerator) (t : Traced τ) :
    (g.reseedNow supply t).1.2.inFlight = g.inFlight ∧
      (g.reseedNow supply t).1.2.disposed = g.disposed := by
  rcases g.reseedNow_cases supply t with ⟨e, t', failed⟩ | ⟨seed, t', applied⟩
  · rw [failed]
    exact ⟨rfl, rfl⟩
  · rw [applied]
    exact ⟨rfl, rfl⟩

/-- A reseed whose draw fails changes nothing. -/
theorem reseedNow_of_draw_error {supply : Supply τ} {g : FastGenerator} {t t' : Traced τ}
    {e : Error} (failed : (supply.draw g.seedSize).toAction t = (.error e, t')) :
    g.reseedNow supply t = ((.error e, g), t') := by
  rw [reseedNow, Action.run_bind, failed]
  rfl

/-- The end of a background reseed leaves the flag free. -/
theorem inFlight_of_endBackground (g : FastGenerator) (outcome : Except Error Unit)
    (t : Traced τ) : (g.endBackground outcome t).1.inFlight = false := by
  obtain ⟨background, t', ended⟩ := g.endBackground_eq outcome t
  rw [ended]

/-- So does the application of a background seed with the end after it. -/
theorem inFlight_of_applied (g : FastGenerator) (seed : Bytes) (t : Traced τ) :
    ((g.applyBackground seed >>= fun g => g.endBackground (.ok ())) t).1.inFlight = false := by
  rw [Action.run_bind]
  exact inFlight_of_endBackground _ _ _

end FastGenerator

/-- Claims on the flag that the holder of the lock has made and not given up. -/
def Holder.claims : Holder → Nat
  | .reseeding claimed _ _ | .releasing claimed _ _ _ => claimed.toNat
  | .looking _ | .generating _ _ => 0

namespace Session

variable {τ : Type} {supply : Supply τ} {s next : Session τ} {acts : List Act}

/-! ## Claims on the flag -/

/-- Claims of the holder of the lock, if there is one. -/
def heldClaims (s : Session τ) : Nat :=
  (s.holder.map Holder.claims).getD 0

/-- Claims on the flag: one of each background reseed on its way, and those of
the holder of the lock. -/
def claims (s : Session τ) : Nat :=
  s.reseeds.length + s.heldClaims

/-- There are as many claims on the flag as it says. -/
def Counted (s : Session τ) : Prop :=
  s.claims = s.generator.inFlight.toNat

theorem heldClaims_none (free : s.holder = none) : s.heldClaims = 0 := by
  rw [heldClaims, free]
  rfl

theorem heldClaims_some {holder : Holder} (holds : s.holder = some holder) :
    s.heldClaims = holder.claims := by
  rw [heldClaims, holds]
  rfl

/-- No more than one background reseed is on its way. -/
theorem Counted.length_le (counted : s.Counted) : s.reseeds.length ≤ 1 :=
  calc
    s.reseeds.length ≤ s.claims := Nat.le_add_right _ _
    _ = s.generator.inFlight.toNat := counted
    _ ≤ 1 := s.generator.inFlight.toNat_le

/-- A background reseed on its way is the only one to claim the flag. -/
theorem Counted.pending (counted : s.Counted) (pending : s.reseeds ≠ []) :
    s.generator.inFlight = true ∧ s.reseeds.length = 1 ∧ s.heldClaims = 0 := by
  have some := List.length_pos_iff.mpr pending
  have flag := s.generator.inFlight.toNat_le
  rw [Counted, claims] at counted
  refine ⟨?_, ?_, ?_⟩
  · apply Bool.toNat_eq_one.mp
    omega
  · omega
  · omega

/-- If the holder of the lock claims nothing, the flag says whether a background
reseed is on its way. -/
theorem Counted.inFlight_iff (counted : s.Counted) (unclaimed : s.heldClaims = 0) :
    s.generator.inFlight = true ↔ s.reseeds.length = 1 := by
  rw [Counted, claims, unclaimed, Nat.add_zero] at counted
  rw [← Bool.toNat_eq_one, counted]

/-! ## Steps -/

/-- What touches neither the flag nor a claim keeps the count. -/
theorem Counted.frame (counted : s.Counted)
    (flag : next.generator.inFlight = s.generator.inFlight)
    (reseeds : next.reseeds.length = s.reseeds.length)
    (held : next.heldClaims = s.heldClaims) : next.Counted := by
  rw [Counted, claims, reseeds, held, flag]
  exact counted

/-- Without the background reseed that is on its way, there is none. -/
theorem Counted.eraseIdx (counted : s.Counted) {i : Nat} (within : i < s.reseeds.length) :
    s.reseeds.eraseIdx i = [] := by
  apply List.length_eq_zero_iff.mp
  have one := counted.length_le
  rw [List.length_eraseIdx_of_lt within]
  omega

/-- Whoever removes the background reseed and gives the flag back keeps the count. -/
theorem Counted.giveBack (counted : s.Counted) {i : Nat} (within : i < s.reseeds.length)
    (free : next.generator.inFlight = false) (erased : next.reseeds = s.reseeds.eraseIdx i)
    (held : next.heldClaims = s.heldClaims) : next.Counted := by
  have pending : s.reseeds ≠ [] := List.length_pos_iff.mp (Nat.zero_lt_of_lt within)
  obtain ⟨-, -, unclaimed⟩ := counted.pending pending
  rw [Counted, claims, erased, counted.eraseIdx within, held, unclaimed, free]
  rfl

theorem Counted.look (counted : s.Counted) {size : Nat} {rest : List Nat}
    (holds : s.holder = some (.looking (size :: rest))) : (s.look size rest).Counted := by
  have reseeds : s.reseeds.length = s.generator.inFlight.toNat := by
    rw [Counted, claims, heldClaims_some holds] at counted
    exact counted
  rw [Session.look]
  split
  · -- The flag is up now, and is the holder's unless it was up before.
    change s.reseeds.length + (!s.generator.inFlight).toNat = 1
    rw [reseeds]
    cases s.generator.inFlight <;> rfl
  · split
    next soon =>
      have free : s.generator.inFlight = false := by simpa using soon.2
      rw [free] at reseeds
      change (s.reseeds ++ [Phase.scheduled]).length + 0 = 1
      rw [List.length_append, reseeds]
      rfl
    next => exact reseeds

theorem heldClaims_release (s : Session τ) (claimed : Bool) (result : Except Error Unit)
    (size : Nat) (rest : List Nat) : (s.release claimed result size rest).heldClaims = 0 := by
  cases result <;> rfl

theorem Counted.release (counted : s.Counted) {claimed : Bool} {result : Except Error Unit}
    {size : Nat} {rest : List Nat}
    (holds : s.holder = some (.releasing claimed result size rest)) :
    (s.release claimed result size rest).Counted := by
  have held := heldClaims_some holds
  cases claimed with
  | false => exact counted.frame rfl rfl ((s.heldClaims_release _ _ _ _).trans held.symm)
  | true =>
      -- The claim was the only one, so none is left.
      have flag := s.generator.inFlight.toNat_le
      rw [Counted, claims, held] at counted
      change s.reseeds.length + 1 = _ at counted
      rw [Counted, claims, heldClaims_release]
      change s.reseeds.length + 0 = 0
      omega

theorem Counted.hold (counted : s.Counted) (supply : Supply τ) : (s.hold supply).2.Counted := by
  unfold Session.hold
  split
  next => exact counted
  next holds => exact counted.frame rfl rfl (heldClaims_some holds).symm
  next size rest holds => exact counted.look holds
  next claimed size rest holds =>
    have flag := (s.generator.flags_of_reseedNow supply s.world).1
    exact counted.frame flag rfl (heldClaims_some holds).symm
  next claimed result size rest holds => exact counted.release holds
  next size rest holds =>
    split
    next => exact counted.frame rfl rfl (heldClaims_some holds).symm
    next bytes g generated =>
      have flag := (FastGenerator.flags_of_generate generated).1
      exact counted.frame flag rfl (heldClaims_some holds).symm

theorem Counted.background (counted : s.Counted) {i : Nat}
    (step : s.background supply i = some (acts, next)) : next.Counted := by
  rcases background_cases step with
    ⟨_, _, _, _, rfl⟩ | ⟨_, _, _, _, _, rfl⟩ |
    ⟨_, _, _, ⟨_, _, rfl⟩ | ⟨_, _, _, rfl⟩⟩ | ⟨_, _, _, ending, _, rfl⟩
  case inr.inr.inr =>
    exact counted.giveBack (List.getElem?_eq_some_iff.mp ending).1 rfl rfl rfl
  all_goals exact counted.frame rfl List.length_set rfl

/-- Every step keeps as many claims as the flag says. -/
theorem Step.counted (step : Step supply s acts next) (counted : s.Counted) : next.Counted := by
  cases step with
  | request n free => exact counted.frame rfl rfl (heldClaims_none free).symm
  | hold => exact counted.hold supply
  | demand =>
      exact counted.frame (s.generator.flags_of_reseedNow supply s.world).1 rfl rfl
  | background i step => exact counted.background step
  | unstarted i scheduled =>
      exact counted.giveBack (List.getElem?_eq_some_iff.mp scheduled).1 rfl rfl rfl
  | dispose =>
      have flag := congrArg FastGenerator.inFlight (s.generator.dispose_fst supply s.world)
      exact counted.frame flag rfl rfl
  | others world => exact counted

/-- So does every run. -/
theorem Run.counted (run : Run supply s acts next) (counted : s.Counted) : next.Counted := by
  induction run with
  | nothing => exact counted
  | step _ step ih => exact step.counted ih

/-- A generator that was just made has its flag free, and nobody claims it. -/
theorem counted_start {policy : ReseedPolicy} {digest : Digest} {ownsSupply : Bool}
    {t t' : Traced τ} {g : FastGenerator}
    (made : (FastGenerator.make supply policy digest ownsSupply).toAction t = (.ok g, t')) :
    (start g t').Counted := by
  obtain ⟨-, -, seed, rfl⟩ := FastGenerator.make_cases made
  rfl

/-! ## The end of a background reseed -/

/-- The last step of a background reseed is always possible, and gives the flag
back. -/
theorem Counted.ending (counted : s.Counted) (supply : Supply τ) {i : Nat}
    {outcome : Except Error Unit} (ending : s.reseeds[i]? = some (.ending outcome)) :
    ∃ next background, s.background supply i = some ([], next) ∧ next.reseeds = [] ∧
      next.generator = { s.generator with inFlight := false, background } := by
  obtain ⟨background, t, ended⟩ := s.generator.endBackground_eq outcome s.world
  let next : Session τ := { s with
    generator := { s.generator with inFlight := false, background }
    world := t
    reseeds := s.reseeds.eraseIdx i }
  have step : s.background supply i = some ([], next) := by
    rw [Session.background, ending]
    simp only [ended, next]
  have within := (List.getElem?_eq_some_iff.mp ending).1
  exact ⟨next, background, step, counted.eraseIdx within, rfl⟩

/-- A step of the holder of the lock ends no background reseed and disposes
nothing. -/
theorem hold_keeps (supply : Supply τ) (s : Session τ) :
    s.reseeds <+: (s.hold supply).2.reseeds ∧
      (s.hold supply).2.generator.disposed = s.generator.disposed := by
  unfold hold
  split
  next => exact ⟨List.prefix_rfl, rfl⟩
  next => exact ⟨List.prefix_rfl, rfl⟩
  next size rest _ =>
    rw [look]
    split
    · exact ⟨List.prefix_rfl, rfl⟩
    · split
      · exact ⟨List.prefix_append _ _, rfl⟩
      · exact ⟨List.prefix_rfl, rfl⟩
  next => exact ⟨List.prefix_rfl, (s.generator.flags_of_reseedNow supply s.world).2⟩
  next claimed result size rest _ =>
    constructor
    · exact List.prefix_rfl
    · cases claimed <;> rfl
  next =>
    split
    next => exact ⟨List.prefix_rfl, rfl⟩
    next bytes g generated =>
      exact ⟨List.prefix_rfl, (FastGenerator.flags_of_generate generated).2⟩

/-- A background reseed that comes to its end leaves the flag free. -/
theorem Step.released (step : Step supply s acts next) (pending : s.reseeds ≠ [])
    (gone : next.reseeds = []) : next.generator.inFlight = false := by
  cases step with
  | request | demand | dispose | others => exact absurd gone pending
  | hold =>
      obtain ⟨kept, -⟩ := s.hold_keeps supply
      rw [gone] at kept
      exact absurd (List.prefix_nil.mp kept) pending
  | background i step =>
      rcases background_cases step with
        ⟨_, _, _, _, rfl⟩ | ⟨_, _, _, _, _, rfl⟩ |
        ⟨_, _, _, ⟨_, _, rfl⟩ | ⟨_, _, _, rfl⟩⟩ | ⟨_, _, _, _, _, rfl⟩
      case inr.inr.inr => rfl
      all_goals exact absurd ((List.set_eq_nil_iff _ _).mp gone) pending
  | unstarted => rfl

/-- The session can come to a state with a free lock and a free flag. -/
def Settles (supply : Supply τ) (s : Session τ) : Prop :=
  ∃ state, Completes supply s state ∧ state.1.inFlight = false

theorem Step.settles (step : Step supply s acts next) (settles : Settles supply next) :
    Settles supply s := by
  obtain ⟨state, completes, flag⟩ := settles
  exact ⟨state, step.completes completes, flag⟩

theorem settles_ending (supply : Supply τ) (s : Session τ) (free : s.holder = none) {i : Nat}
    {outcome : Except Error Unit} (ending : s.reseeds[i]? = some (.ending outcome)) :
    Settles supply s :=
  ⟨_, completes_ending supply s free ending, FastGenerator.inFlight_of_endBackground _ _ _⟩

theorem settles_drawing (supply : Supply τ) (s : Session τ) (free : s.holder = none) {i : Nat}
    (drawing : s.reseeds[i]? = some .drawing) : Settles supply s := by
  refine ⟨_, completes_drawing supply s free drawing, ?_⟩
  rcases (supply.drawInBackground s.generator.seedSize).toAction s.world with ⟨result, t⟩
  cases result with
  | error e => exact FastGenerator.inFlight_of_endBackground _ _ _
  | ok seed => exact FastGenerator.inFlight_of_applied _ _ _

/-- A background reseed that nobody keeps from the lock can come to its end,
however far it has come. -/
theorem settles_pending (supply : Supply τ) (s : Session τ) (free : s.holder = none) {i : Nat}
    {phase : Phase} (pending : s.reseeds[i]? = some phase) : Settles supply s := by
  have within := (List.getElem?_eq_some_iff.mp pending).1
  cases phase with
  | ending outcome => exact settles_ending supply s free pending
  | drawn seed =>
      exact ⟨_, completes_drawn supply s free pending, FastGenerator.inFlight_of_applied _ _ _⟩
  | drawing => exact settles_drawing supply s free pending
  | scheduled =>
      have step : s.background supply i = some ([], { s with
          reseeds := s.reseeds.set i
            (if s.generator.disposed then .ending (.ok ()) else .drawing) }) := by
        rw [background, pending]
      apply (Step.background i step).settles
      cases s.generator.disposed with
      | true =>
          apply settles_ending supply
          · exact free
          · exact List.getElem?_set_self within
      | false =>
          apply settles_drawing supply
          · exact free
          · exact List.getElem?_set_self within

/-- While nobody holds the lock, a background reseed can go on to its end. -/
theorem Counted.ends (counted : s.Counted) (supply : Supply τ) (free : s.holder = none) :
    ∃ acts last, Run supply s acts last ∧ last.holder = none ∧ last.reseeds = [] ∧
      last.generator.inFlight = false := by
  obtain ⟨state, ⟨acts, last, run, unheld, reached⟩, flag⟩ : Settles supply s := by
    cases reseeds : s.reseeds with
    | nil =>
        refine ⟨_, completes_here free, ?_⟩
        rw [Counted, claims, reseeds, heldClaims_none free] at counted
        exact Bool.toNat_eq_zero.mp counted.symm
    | cons phase later =>
        have first : s.reseeds[0]? = some phase := by
          rw [reseeds]
          rfl
        exact settles_pending supply s free first
  cases reached
  have after := run.counted counted
  refine ⟨acts, last, run, unheld, ?_, flag⟩
  rw [Counted, claims, heldClaims_none unheld, flag] at after
  exact List.length_eq_zero_iff.mp after

/-! ## Draws that fail -/

/-- A step that draws a seed and gets none: of the holder of the lock past the
hard threshold, on a caller's demand, or in the background. -/
inductive FailedDraw (supply : Supply τ) (s : Session τ) : Session τ → Prop where
  | hard {claimed : Bool} {size : Nat} {rest : List Nat} {e : Error} {t : Traced τ} :
      s.holder = some (.reseeding claimed size rest) →
      (supply.draw s.generator.seedSize).toAction s.world = (.error e, t) →
      FailedDraw supply s (s.hold supply).2
  | demand {e : Error} {t : Traced τ} :
      s.holder = none →
      (supply.draw s.generator.seedSize).toAction s.world = (.error e, t) →
      FailedDraw supply s (s.demand supply).2
  | background {i : Nat} {e : Error} {t : Traced τ} {acts : List Act} {next : Session τ} :
      s.reseeds[i]? = some .drawing →
      (supply.drawInBackground s.generator.seedSize).toAction s.world = (.error e, t) →
      s.background supply i = some (acts, next) →
      FailedDraw supply s next

/-- A draw that fails leaves the whole generator as it was. -/
theorem FailedDraw.generator_eq (failed : FailedDraw supply s next) :
    next.generator = s.generator := by
  cases failed with
  | hard holds drawn =>
      simp only [Session.hold, holds, FastGenerator.reseedNow_of_draw_error drawn]
  | demand free drawn =>
      simp only [Session.demand, FastGenerator.reseedNow_of_draw_error drawn]
  | background drawing drawn step =>
      simp only [Session.background, drawing, drawn] at step
      cases step
      rfl

/-! ## Disposal -/

theorem disposed_dispose (supply : Supply τ) (s : Session τ) :
    (s.dispose supply).generator.disposed = true :=
  congrArg FastGenerator.disposed (s.generator.dispose_fst supply s.world)

theorem Step.disposed (step : Step supply s acts next) (disposed : s.generator.disposed = true) :
    next.generator.disposed = true := by
  cases step with
  | request n free => exact disposed
  | hold =>
      rw [← disposed]
      exact (s.hold_keeps supply).2
  | demand =>
      rw [← disposed]
      exact (s.generator.flags_of_reseedNow supply s.world).2
  | background i step =>
      rcases background_cases step with
        ⟨_, _, _, _, rfl⟩ | ⟨_, _, _, _, _, rfl⟩ |
        ⟨_, _, _, ⟨_, _, rfl⟩ | ⟨_, _, _, rfl⟩⟩ | ⟨_, _, _, _, _, rfl⟩
      all_goals exact disposed
  | unstarted i scheduled => exact disposed
  | dispose => exact s.disposed_dispose supply
  | others world => exact disposed

/-- A generator that was disposed stays so. -/
theorem Run.disposed (run : Run supply s acts next) (disposed : s.generator.disposed = true) :
    next.generator.disposed = true := by
  induction run with
  | nothing => exact disposed
  | step _ step ih => exact step.disposed ih

/-- A background reseed that finds the generator disposed applies nothing. -/
theorem unapplied_of_disposed {i : Nat} {seed : Bytes} (disposed : s.generator.disposed = true)
    (drawn : s.reseeds[i]? = some (.drawn seed))
    (step : s.background supply i = some (acts, next)) :
    acts = [] ∧ next.generator = s.generator := by
  rcases background_cases step with
    ⟨scheduled, _⟩ | ⟨drawing, _⟩ | ⟨_, _, _, ⟨_, rfl, rfl⟩ | ⟨live, _⟩⟩ | ⟨_, _, _, ending, _⟩
  · rw [drawn] at scheduled
    cases scheduled
  · rw [drawn] at drawing
    cases drawing
  · exact ⟨rfl, rfl⟩
  · rw [disposed] at live
    cases live
  · rw [drawn] at ending
    cases ending

/-! ## Every moment of a run -/

/-- The flag of background reseeds is with whom it belongs to. -/
structure FlagInPlace (supply : Supply τ) (s : Session τ) : Prop where
  /-- Never are two background reseeds on their way. -/
  atMostOne : s.reseeds.length ≤ 1
  /-- While nobody holds the lock, the flag says whether one is. -/
  tells : s.holder = none → (s.generator.inFlight = true ↔ s.reseeds.length = 1)
  /-- Whoever holds the lock, a background reseed on its way has its flag. -/
  pending : s.reseeds ≠ [] → s.generator.inFlight = true
  /-- After a reseed past the hard threshold, whatever came of it, the flag is with a
  background reseed on its way, or free. -/
  released : ∀ claimed result size rest, s.holder = some (.releasing claimed result size rest) →
    ((s.hold supply).2.generator.inFlight = true ↔ s.reseeds.length = 1)
  /-- A reseed on a caller's demand does not touch it. -/
  demanded : (s.demand supply).2.generator.inFlight = s.generator.inFlight
  /-- It is free as soon as no background reseed is on its way any more. -/
  ended : ∀ acts next, Step supply s acts next → s.reseeds ≠ [] → next.reseeds = [] →
    next.generator.inFlight = false
  /-- The last step of a background reseed gives it back, whatever the outcome, and
  changes nothing else of the generator but what is known of that reseed. -/
  ending : ∀ i outcome, s.reseeds[i]? = some (.ending outcome) →
    ∃ next background, s.background supply i = some ([], next) ∧ next.reseeds = [] ∧
      next.generator = { s.generator with inFlight := false, background }
  /-- Every background reseed can come to that step. -/
  ends : s.holder = none → ∃ acts last, Run supply s acts last ∧ last.holder = none ∧
    last.reseeds = [] ∧ last.generator.inFlight = false

theorem Counted.flagInPlace (counted : s.Counted) (supply : Supply τ) : FlagInPlace supply s where
  atMostOne := counted.length_le
  tells := by
    intro free
    exact counted.inFlight_iff (heldClaims_none free)
  pending := fun pending => (counted.pending pending).1
  released := by
    intro claimed result size rest holds
    have after := (counted.release holds).inFlight_iff (s.heldClaims_release _ _ _ _)
    rw [Session.hold, holds]
    exact after
  demanded := (s.generator.flags_of_reseedNow supply s.world).1
  ended := fun _ _ step pending gone => step.released pending gone
  ending := fun _ _ ending => counted.ending supply ending
  ends := counted.ends supply

/-- In every run of a generator that was made, up to any point: at most one
background reseed is on its way, and the flag is with whom it belongs to.  A
draw that fails leaves the generator as it was, and once the generator is
disposed no background reseed applies its seed. -/
theorem one_reseed_in_flight {policy : ReseedPolicy} {digest : Digest} {ownsSupply : Bool}
    {t t' : Traced τ} {g : FastGenerator} {history : List Act}
    (made : (FastGenerator.make supply policy digest ownsSupply).toAction t = (.ok g, t'))
    (run : Run supply (start g t') history s) :
    FlagInPlace supply s ∧
    (∀ next, FailedDraw supply s next → next.generator = s.generator) ∧
    ∀ later acts, Run supply (s.dispose supply) acts later →
      ∀ i seed acts next, later.reseeds[i]? = some (.drawn seed) →
        later.background supply i = some (acts, next) →
        acts = [] ∧ next.generator = later.generator := by
  have counted := run.counted (counted_start made)
  refine ⟨counted.flagInPlace supply, fun next failed => failed.generator_eq, ?_⟩
  intro later acts run i seed acts' next drawn step
  exact unapplied_of_disposed (run.disposed (s.disposed_dispose supply)) drawn step

/-! ### A supply that runs dry -/

/-- One seed, and nothing from then on. -/
def drip (n : Nat) : Attempt UInt8 Bytes :=
  ExceptT.mk fun t =>
    if t.world = 0 then (.ok (List.replicate n 0), { t with world := 1 })
    else (.error (.sourceFailed "well" "dry"), t)

/-- A supply that runs dry. -/
def well : Supply UInt8 where
  draw := drip
  drawInBackground := drip
  dispose := pure ()

/-- One byte past the soft threshold: a background reseed is scheduled. -/
def crossedSoft : Session UInt8 :=
  (((((start narrowed ⟨1, []⟩).request 1).hold well).2.hold well).2.hold well).2

/-- Another one, past the hard threshold: the reseed fails. -/
def crossedHard : Session UInt8 :=
  ((((crossedSoft.request 1).hold well).2.hold well).2.hold well).2

/-- The reseed that failed has left the flag to the background reseed, which can
end and gives it back. -/
theorem one_reseed_in_flight_dry : ∃ history,
    (FastGenerator.make well narrow checksum false).toAction ⟨0, []⟩ =
      (.ok narrowed, ⟨1, []⟩) ∧
    Run well (start narrowed ⟨1, []⟩) history crossedHard ∧ crossedHard.holder = none ∧
    crossedHard.generator.reseedCount = 0 ∧ crossedHard.reseeds.length = 1 ∧
    crossedHard.generator.inFlight = true ∧
    ∃ acts last, Run well crossedHard acts last ∧ last.reseeds = [] ∧
      last.generator.inFlight = false := by
  have made : (FastGenerator.make well narrow checksum false).toAction ⟨0, []⟩ =
      (.ok narrowed, ⟨1, []⟩) := rfl
  have free (s : Session UInt8) (unheld : s.holder.isNone = true) : s.holder = none :=
    Option.isNone_iff_eq_none.mp unheld
  have requested : Run well (start narrowed ⟨1, []⟩) _ _ := .single (.request _ 1 rfl)
  have soft : Run well (start narrowed ⟨1, []⟩) _ crossedSoft :=
    ((requested.step (.hold _)).step (.hold _)).step (.hold _)
  have again := soft.step (.request crossedSoft 1 (free _ (by decide +kernel)))
  have hard : Run well (start narrowed ⟨1, []⟩) _ crossedHard :=
    ((again.step (.hold _)).step (.hold _)).step (.hold _)
  have unheld : crossedHard.holder = none := free _ (by decide +kernel)
  have failed : crossedHard.generator.reseedCount = 0 := by decide +kernel
  have pending : crossedHard.reseeds.length = 1 := by decide +kernel
  obtain ⟨flag, -, -⟩ := one_reseed_in_flight made hard
  obtain ⟨acts, last, run, -, gone, given⟩ := flag.ends unheld
  exact ⟨_, made, hard, unheld, failed, pending, (flag.tells unheld).mpr pending, acts, last, run,
    gone, given⟩

end Session

end EntropySeal
