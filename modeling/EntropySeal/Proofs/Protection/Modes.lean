import EntropySeal.Proofs.Protection.Changes

/-!
# Setting the mode of a container

A container cannot be protected in another mode if it holds a dictionary whose code
would be scanned, if it was disposed, or if its state comes to be scanned and cannot
be stamped.  Then it stays as it is.  Otherwise a dimension that comes to be scanned
accepts the value as it is, and no other baseline changes.

So a detector always scans what the mode says, against baselines that it has.
-/

namespace EntropySeal.Container

variable {α : Type} [Protectable α] {c : Container α} {a : Account α} {mode : ProtectionMode}

/-! ## Refusals -/

variable (α) in
/-- Values of the type can be protected in the mode. -/
def Supports (mode : ProtectionMode) : Prop :=
  mode.scansCode = true → (Protectable.info α).isDictionary = false

instance (mode : ProtectionMode) : Decidable (Supports α mode) :=
  inferInstanceAs (Decidable (_ → _))

variable (α) in
theorem ensureSupported_eq (mode : ProtectionMode) :
    ensureSupported α mode = if Supports α mode then .ok ()
      else .error (.dictionaryMode (Protectable.info α).name mode) := by
  unfold ensureSupported
  by_cases supported : Supports α mode
  · have allowed : ¬(mode.scansCode && (Protectable.info α).isDictionary) = true := by
      simpa [Supports] using supported
    rw [if_pos supported]
    exact if_neg allowed
  · have banned : (mode.scansCode && (Protectable.info α).isDictionary) = true := by
      simpa [Supports] using supported
    rw [if_neg supported]
    exact if_pos banned

/-- Why a container cannot be protected in a mode. -/
inductive ModeRefused (c : Container α) (mode : ProtectionMode) : Error → Prop where
  | dictionary : ¬Supports α mode →
      ModeRefused c mode (.dictionaryMode (Protectable.info α).name mode)
  | gone : Supports α mode → c.disposed = true → ModeRefused c mode gone
  /-- The state comes to be scanned, and there is nothing to compare it with later. -/
  | unstamped {v : α} {e : Error} : Supports α mode → c.live = .ok v →
      mode.scansState = true → c.mode.scansState = false →
      Protectable.stateStamp v = .error e → ModeRefused c mode e

theorem setMode_refused {e : Error} (refused : c.ModeRefused mode e) :
    (c.setMode mode).result = .error e ∧ (c.setMode mode).next = c := by
  unfold setMode
  rw [ensureSupported_eq]
  cases refused with
  | dictionary unsupported => simp [unsupported]
  | gone supported disposed => simp [supported, disposed]
  | unstamped supported live scans idle unstamped =>
      have present : ¬c.disposed = true := by
        rw [(live_eq_ok_iff.mp live).1]
        exact Bool.false_ne_true
      have other : ¬c.mode = mode := by
        rintro rfl
        rw [scans] at idle
        cases idle
      simp only [if_pos supported, if_neg present, if_neg other, live, scans, idle,
        Bool.not_false, Bool.and_self, Detector.notifyIn_error unstamped, and_self]

/-- A container in a mode that is not refused has a value that can be accepted in
the dimensions that come to be scanned. -/
theorem Stocked.mode_cases (stocked : Stocked c) (mode : ProtectionMode) :
    (∃ e, c.ModeRefused mode e) ∨ Supports α mode ∧ ∃ v, c.live = .ok v ∧
      ((mode.scansState && !c.mode.scansState) = true →
        ∃ stamp, Protectable.stateStamp v = .ok stamp) := by
  by_cases supported : Supports α mode
  · rcases stocked with disposed | ⟨v, live⟩
    · exact .inl ⟨_, .gone supported disposed⟩
    · cases stamped : Protectable.stateStamp v with
      | ok stamp => exact .inr ⟨supported, v, live, fun _ => ⟨stamp, stamped⟩⟩
      | error e =>
          by_cases turned : (mode.scansState && !c.mode.scansState) = true
          · have on : mode.scansState = true ∧ c.mode.scansState = false := by
              simpa using turned
            exact .inl ⟨e, .unstamped supported live on.1 on.2 stamped⟩
          · exact .inr ⟨supported, v, live, fun on => absurd on turned⟩
  · exact .inl ⟨_, .dictionary supported⟩

/-! ## Changes of the mode -/

/-- The container with its value, in another mode. -/
def turned (c : Container α) (mode : ProtectionMode) (v : α) : Container α :=
  { c with
    detector := (c.detector.accept (mode.scansState && !c.mode.scansState)
      (mode.scansCode && !c.mode.scansCode) v).setScanning mode.scansState mode.scansCode
    mode }

/-- Setting the mode that is set changes nothing, because the detector is in step
with it. -/
theorem Sound.turned_same (sound : Sound c a) (v : α) : c.turned c.mode v = c := by
  have scanState : c.detector.scanState = c.mode.scansState :=
    sound.mode_eq ▸ sound.scanState_eq
  have scanCode : c.detector.scanCode = c.mode.scansCode := sound.mode_eq ▸ sound.scanCode_eq
  simp [turned, Detector.accept, Detector.setScanning, ← scanState, ← scanCode]

theorem Sound.setMode_accepted (sound : Sound c a) (supported : Supports α mode) {v : α}
    (live : c.live = .ok v)
    (stamped : (mode.scansState && !c.mode.scansState) = true →
      ∃ stamp, Protectable.stateStamp v = .ok stamp) :
    (c.setMode mode).result = .ok () ∧ (c.setMode mode).next = c.turned mode v := by
  have ensured : ensureSupported α mode = .ok () := by
    rw [ensureSupported_eq, if_pos supported]
  have present := (live_eq_ok_iff.mp live).1
  by_cases same : c.mode = mode
  · subst same
    rw [sound.turned_same]
    simp [Container.setMode, ensured, present]
  · have codeStamped : (mode.scansCode && !c.mode.scansCode) = true →
        ∃ stamp, Protectable.codeStamp α = .ok stamp := by
      intro on
      rw [Bool.and_eq_true] at on
      exact codeStamp_of_supported ensured on.1
    simp [Container.setMode, ensured, present, same, live,
      Detector.notifyIn_ok stamped codeStamped, turned]

/-- Setting the mode of a container gives this container, where the baselines are
those of the dimensions that came to be scanned, and all else is as it was. -/
structure TurnedTo (c : Container α) (mode : ProtectionMode) (next : Container α) : Prop where
  mode_eq : next.mode = mode
  scanState_eq : next.detector.scanState = mode.scansState
  scanCode_eq : next.detector.scanCode = mode.scansCode
  stateOn : mode.scansState = true → c.mode.scansState = false →
    ∃ v stamp, c.live = .ok v ∧ Protectable.stateStamp v = .ok stamp ∧
      next.detector.lastState = some stamp
  stateKept : ¬(mode.scansState = true ∧ c.mode.scansState = false) →
    next.detector.lastState = c.detector.lastState
  codeOn : mode.scansCode = true → c.mode.scansCode = false →
    ∃ stamp, Protectable.codeStamp α = .ok stamp ∧ next.detector.lastCode = some stamp
  codeKept : ¬(mode.scansCode = true ∧ c.mode.scansCode = false) →
    next.detector.lastCode = c.detector.lastCode
  channel_eq : next.detector.channel = c.detector.channel
  value_eq : next.value = c.value
  readOnly_eq : next.readOnly = c.readOnly
  disposed_eq : next.disposed = c.disposed

theorem turnedTo_turned (supported : Supports α mode) {v : α} (live : c.live = .ok v)
    (stamped : (mode.scansState && !c.mode.scansState) = true →
      ∃ stamp, Protectable.stateStamp v = .ok stamp) : TurnedTo c mode (c.turned mode v) where
  mode_eq := rfl
  scanState_eq := rfl
  scanCode_eq := rfl
  stateOn := by
    intro scans idle
    have on : (mode.scansState && !c.mode.scansState) = true := by simp [scans, idle]
    obtain ⟨stamp, stampedV⟩ := stamped on
    have last := Detector.lastState_accept stampedV c.detector
      (mode.scansCode && !c.mode.scansCode)
    refine ⟨v, stamp, live, stampedV, ?_⟩
    rw [turned, on]
    exact last
  stateKept := by
    intro kept
    have off : (mode.scansState && !c.mode.scansState) = false := by simpa using kept
    rw [turned, off]
    rfl
  codeOn := by
    intro scans idle
    have on : (mode.scansCode && !c.mode.scansCode) = true := by simp [scans, idle]
    have ensured : ensureSupported α mode = .ok () := by
      rw [ensureSupported_eq, if_pos supported]
    obtain ⟨stamp, stampedCode⟩ := codeStamp_of_supported ensured scans
    have last := Detector.lastCode_accept stampedCode c.detector
      (mode.scansState && !c.mode.scansState) v
    refine ⟨stamp, stampedCode, ?_⟩
    rw [turned, on]
    exact last
  codeKept := by
    intro kept
    have off : (mode.scansCode && !c.mode.scansCode) = false := by simpa using kept
    rw [turned, off]
    rfl
  channel_eq := rfl
  value_eq := rfl
  readOnly_eq := rfl
  disposed_eq := rfl

/-- Setting the mode is refused, or turns the container to the mode. -/
theorem Sound.setMode_settled (sound : Sound c a) (stocked : Stocked c)
    (mode : ProtectionMode) : (∃ e, c.ModeRefused mode e) ∨
      (c.setMode mode).result = .ok () ∧ TurnedTo c mode (c.setMode mode).next := by
  rcases stocked.mode_cases mode with refused | ⟨supported, v, live, stamped⟩
  · exact .inl refused
  · rcases sound.setMode_accepted supported live stamped with ⟨done, next⟩
    rw [next]
    exact .inr ⟨done, turnedTo_turned supported live stamped⟩

theorem Sound.setMode_eq_error_iff (sound : Sound c a) (stocked : Stocked c)
    (mode : ProtectionMode) (e : Error) :
    (c.setMode mode).result = .error e ↔ c.ModeRefused mode e := by
  constructor
  · intro failed
    rcases sound.setMode_settled stocked mode with ⟨e', refused⟩ | ⟨done, _⟩
    · rw [(setMode_refused refused).1] at failed
      cases failed
      exact refused
    · rw [done] at failed
      cases failed
  · intro refused
    exact (setMode_refused refused).1

/-! ## Detectors in step with the mode -/

/-- The detector scans what the mode says, against baselines that it has. -/
structure InStep (c : Container α) : Prop where
  scanState_eq : c.detector.scanState = c.mode.scansState
  scanCode_eq : c.detector.scanCode = c.mode.scansCode
  state : c.detector.scanState = true → ∃ stamp, c.detector.lastState = some stamp
  code : c.detector.scanCode = true →
    ∃ stamp, Protectable.codeStamp α = .ok stamp ∧ c.detector.lastCode = some stamp
  dictionary : (Protectable.info α).isDictionary = true → c.detector.scanCode = false

theorem Sound.inStep (sound : Sound c a) : InStep c where
  scanState_eq := by rw [sound.mode_eq, sound.scanState_eq]
  scanCode_eq := by rw [sound.mode_eq, sound.scanCode_eq]
  state := by
    intro scans
    obtain ⟨stamp, _, last⟩ := sound.state (sound.scanState_eq ▸ scans)
    exact ⟨stamp, last⟩
  code := sound.knowsCode
  dictionary := by
    intro dictionary
    cases scans : c.detector.scanCode with
    | false => rfl
    | true =>
        obtain ⟨stamp, stamped⟩ := sound.codeStamped scans
        simp [Protectable.codeStamp, dictionary] at stamped

/-- The container after a sequence of operations. -/
def through (c : Container α) (ops : List (Operation α)) : Container α :=
  ops.foldl (fun c op => (c.perform op).next) c

theorem Watched.through (watched : Watched c a) (ops : List (Operation α)) :
    ∃ a', Watched (c.through ops) a' := by
  induction ops generalizing c a with
  | nil => exact ⟨a, watched⟩
  | cons op rest ih => exact ih (.step op watched)

/-- Setting the mode of a container fails exactly if it is refused, and then leaves
everything as it was.  Otherwise the container is turned to the mode.  No alert is
raised.  So the detector of the container is in step with its mode, whatever modes
it is set to, and whatever happens to it in between. -/
theorem Watched.setMode_all_or_nothing (watched : Watched c a) (mode : ProtectionMode) :
    (∀ e, (c.setMode mode).result = .error e ↔ c.ModeRefused mode e) ∧
    (∀ e, (c.setMode mode).result = .error e → (c.setMode mode).next = c) ∧
    ((c.setMode mode).result = .ok () → TurnedTo c mode (c.setMode mode).next) ∧
    (c.setMode mode).raised = [] ∧
    ∀ ops, InStep (c.through ops) := by
  have error_iff := watched.sound.setMode_eq_error_iff watched.stocked mode
  constructor
  · exact error_iff
  · constructor
    · intro e failed
      exact (setMode_refused ((error_iff e).mp failed)).2
    · constructor
      · intro done
        rcases watched.sound.setMode_settled watched.stocked mode with ⟨e, refused⟩ | ⟨_, turned⟩
        · rw [(setMode_refused refused).1] at done
          cases done
        · exact turned
      · constructor
        · exact setMode_raised c mode
        · intro ops
          obtain ⟨a', after⟩ := watched.through ops
          exact after.sound.inStep

/-! ### A mode that cannot be set -/

/-- The gauge after it got stuck while nothing was scanned. -/
def jammed : Container Gauge :=
  gauge.through [.setMode .noProtection, .change jam]

/-- The stuck gauge cannot be protected in its state, but in its code. -/
theorem setMode_all_or_nothing_jammed : ∃ a, Watched jammed a ∧
    (jammed.setMode .justState).result = .error (.notEncodable "Gauge" "stuck") ∧
    (jammed.setMode .justState).next = jammed ∧
    TurnedTo jammed .justCode (jammed.setMode .justCode).next := by
  obtain ⟨a, watched⟩ := gauge_watched.through [.setMode .noProtection, .change jam]
  rcases watched.setMode_all_or_nothing .justState with ⟨error_iff, unchanged, _⟩
  rcases watched.setMode_all_or_nothing .justCode with ⟨_, _, turned, _⟩
  have supported : Supports Gauge .justState := nofun
  have refused : jammed.ModeRefused .justState (.notEncodable "Gauge" "stuck") :=
    .unstamped (v := .stuck) supported rfl rfl rfl rfl
  have failed := (error_iff _).mpr refused
  exact ⟨a, watched, failed, unchanged _ failed, turned rfl⟩

end EntropySeal.Container
