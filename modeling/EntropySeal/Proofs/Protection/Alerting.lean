import EntropySeal.Proofs.Protection.Account
import EntropySeal.Proofs.Protection.Detector

/-!
# A container alerts exactly what its account says

`Sound` ties the detector of a container to its account: it scans what the mode
says and sends alerts where the account says; while the state is scanned, the
baseline is the stamp of the value that was last accepted, and while the code is
scanned, the baseline is the stamp of the type.  A baseline of a dimension that
is not scanned may be stale, which is why nothing is said of it.

Every operation keeps this, whether it succeeds or fails.
-/

namespace EntropySeal.Container

variable {α : Type} [Protectable α] {c : Container α} {a : Account α}

/-! ## What operations do -/

omit [Protectable α] in
theorem live_eq_ok_iff {v : α} : c.live = .ok v ↔ c.disposed = false ∧ c.value = some v := by
  unfold live
  cases c.disposed with
  | true => simp
  | false => cases c.value <;> simp

/-- The value of a live container is checked and handed out. -/
theorem withValue_live {β : Type} {v : α} (live : c.live = .ok v) (f : α → β) :
    c.withValue f = {
      result := (c.detector.check v).result.map fun _ => f v
      next := c
      raised := (c.detector.check v).alert.toList.map (c.detector.channel, ·)
      events := c.detector.checkEvents (c.detector.check v) } := by
  simp only [withValue, live]

/-- Looking at a container changes nothing. -/
theorem withValue_next {β : Type} (c : Container α) (f : α → β) : (c.withValue f).next = c := by
  unfold withValue
  cases c.live <;> rfl

/-- A container is made of a supported type, and the value is accepted. -/
theorem make_cases {v : α} {mode : ProtectionMode} {channel : Channel}
    (made : make v mode channel = .ok c) :
    ensureSupported α mode = .ok () ∧
    (mode.scansState = true → ∃ stamp, Protectable.stateStamp v = .ok stamp) ∧
    c.mode = mode ∧
    c.detector = Detector.accept ⟨mode.scansState, mode.scansCode, channel, none, none⟩
      mode.scansState mode.scansCode v := by
  unfold make at made
  cases supported : ensureSupported α mode with
  | error e =>
      rw [supported] at made
      cases made
  | ok u =>
      have codeStamped := codeStamp_of_supported supported
      rcases Detector.notifyIn_cases ⟨mode.scansState, mode.scansCode, channel, none, none⟩
        mode.scansState mode.scansCode v codeStamped with ⟨e, _, _, failed⟩ | ⟨stamped, accepted⟩
      · simp only [supported, Detector.notify, failed] at made
        cases made
      · simp only [supported, Detector.notify, accepted] at made
        cases made
        exact ⟨rfl, stamped, rfl, rfl⟩

/-- A change of a live container that is not stopped changes the value and
accepts it, if it has a stamp where one is needed. -/
theorem applyChanges_passed {v : α} (writable : c.readOnly = false) (live : c.live = .ok v)
    (passed : (c.detector.check v).result = .ok ()) (change : Change α) :
    (c.applyChanges change).result = (c.detector.notify (change.apply v)).1 ∧
    (c.applyChanges change).next = { c with
      value := some (change.apply v)
      detector := (c.detector.notify (change.apply v)).2
      readOnly := change.locks } := by
  unfold applyChanges
  simp [writable, live, passed]

theorem applyChanges_stopped {v : α} {e : Error} (writable : c.readOnly = false)
    (live : c.live = .ok v) (stopped : (c.detector.check v).result = .error e)
    (change : Change α) :
    (c.applyChanges change).result = .error e ∧ (c.applyChanges change).next = c := by
  unfold applyChanges
  simp [writable, live, stopped]

theorem applyChanges_raised {v : α} (writable : c.readOnly = false) (live : c.live = .ok v)
    (change : Change α) :
    (c.applyChanges change).raised =
      (c.detector.check v).alert.toList.map (c.detector.channel, ·) := by
  unfold applyChanges
  simp only [writable, live]
  cases (c.detector.check v).result <;> rfl

/-- Everything that a change can do to the detector. -/
theorem applyChanges_cases (c : Container α) (change : Change α)
    (codeStamped : c.detector.scanCode = true → ∃ stamp, Protectable.codeStamp α = .ok stamp) :
    (∃ e, (c.applyChanges change).result = .error e ∧
      (c.applyChanges change).next.mode = c.mode ∧
      (c.applyChanges change).next.detector = c.detector) ∨
    ∃ v, (c.applyChanges change).result = .ok () ∧
      (c.applyChanges change).next.mode = c.mode ∧
      (c.applyChanges change).next.value = some v ∧
      (c.detector.scanState = true → ∃ stamp, Protectable.stateStamp v = .ok stamp) ∧
      (c.applyChanges change).next.detector =
        c.detector.accept c.detector.scanState c.detector.scanCode v := by
  cases writable : c.readOnly with
  | true => exact .inl ⟨.readOnly, by simp [applyChanges, writable]⟩
  | false =>
      cases live : c.live with
      | error e => exact .inl ⟨e, by simp [applyChanges, writable, live]⟩
      | ok v =>
          cases checked : (c.detector.check v).result with
          | error e =>
              have stopped := applyChanges_stopped writable live checked change
              exact .inl ⟨e, stopped.1, by rw [stopped.2], by rw [stopped.2]⟩
          | ok u =>
              have passed := applyChanges_passed writable live checked change
              rcases c.detector.notifyIn_cases c.detector.scanState c.detector.scanCode
                (change.apply v) codeStamped with ⟨e, _, _, failed⟩ | ⟨stamped, accepted⟩
              · rw [Detector.notify, failed] at passed
                exact .inl ⟨e, passed.1, by rw [passed.2], by rw [passed.2]⟩
              · rw [Detector.notify, accepted] at passed
                exact .inr ⟨change.apply v, passed.1, by rw [passed.2], by rw [passed.2],
                  stamped, by rw [passed.2]⟩

/-- Everything that setting the mode can do. -/
theorem setMode_cases (c : Container α) (mode : ProtectionMode) :
    (∃ e, (c.setMode mode).result = .error e ∧ (c.setMode mode).next = c) ∨
    ((c.setMode mode).result = .ok () ∧ c.mode = mode ∧ (c.setMode mode).next = c) ∨
    ∃ v, (c.setMode mode).result = .ok () ∧ ensureSupported α mode = .ok () ∧
      c.value = some v ∧
      ((mode.scansState && !c.mode.scansState) = true →
        ∃ stamp, Protectable.stateStamp v = .ok stamp) ∧
      (c.setMode mode).next = { c with
        detector := (c.detector.accept (mode.scansState && !c.mode.scansState)
          (mode.scansCode && !c.mode.scansCode) v).setScanning mode.scansState mode.scansCode
        mode } := by
  cases supported : ensureSupported α mode with
  | error e => exact .inl ⟨e, by simp [setMode, supported]⟩
  | ok u =>
      by_cases disposed : c.disposed = true
      · exact .inl ⟨gone, by simp [setMode, supported, disposed]⟩
      · by_cases same : c.mode = mode
        · exact .inr (.inl (by simp [setMode, supported, disposed, same]))
        · cases live : c.live with
          | error e => exact .inl ⟨e, by simp [setMode, supported, disposed, same, live]⟩
          | ok v =>
              have codeStamped : (mode.scansCode && !c.mode.scansCode) = true →
                  ∃ stamp, Protectable.codeStamp α = .ok stamp := by
                intro scans
                rw [Bool.and_eq_true] at scans
                exact codeStamp_of_supported supported scans.1
              rcases c.detector.notifyIn_cases (mode.scansState && !c.mode.scansState)
                (mode.scansCode && !c.mode.scansCode) v codeStamped with
                ⟨e, _, _, failed⟩ | ⟨stamped, accepted⟩
              · have next : (c.setMode mode).next = c := by
                  simp only [setMode, supported, if_neg disposed, if_neg same, live, failed]
                exact .inl ⟨e, by simp [setMode, supported, disposed, same, live, failed], next⟩
              · have value := (live_eq_ok_iff.mp live).2
                have result : (c.setMode mode).result = .ok () := by
                  simp [setMode, supported, disposed, same, live, accepted]
                have next : (c.setMode mode).next = { c with
                    detector := (c.detector.accept (mode.scansState && !c.mode.scansState)
                      (mode.scansCode && !c.mode.scansCode) v).setScanning mode.scansState
                        mode.scansCode
                    mode } := by
                  simp [setMode, supported, disposed, same, live, accepted]
                exact .inr (.inr ⟨v, result, rfl, value, stamped, next⟩)

/-- Setting the mode raises nothing. -/
theorem setMode_raised (c : Container α) (mode : ProtectionMode) :
    (c.setMode mode).raised = [] := by
  unfold setMode
  cases ensureSupported α mode with
  | error e => rfl
  | ok u =>
      simp only
      split
      · rfl
      · split
        · rfl
        · cases c.live with
          | error e => rfl
          | ok v =>
              simp only
              split <;> rfl

/-! ## The invariant -/

/-- The detector of a container agrees with its account. -/
structure Sound (c : Container α) (a : Account α) : Prop where
  mode_eq : c.mode = a.mode
  scanState_eq : c.detector.scanState = a.mode.scansState
  scanCode_eq : c.detector.scanCode = a.mode.scansCode
  channel_eq : c.detector.channel = a.channel
  state : a.mode.scansState = true →
    ∃ stamp, a.baseline = some stamp ∧ c.detector.lastState = some stamp
  code : a.mode.scansCode = true →
    ∃ stamp, Protectable.codeStamp α = .ok stamp ∧ c.detector.lastCode = some stamp

/-- The value and the flags of the container do not matter. -/
theorem Sound.frame {next : Container α} (sound : Sound c a) (modes : next.mode = c.mode)
    (detectors : next.detector = c.detector) : Sound next a where
  mode_eq := modes.trans sound.mode_eq
  scanState_eq := detectors ▸ sound.scanState_eq
  scanCode_eq := detectors ▸ sound.scanCode_eq
  channel_eq := detectors ▸ sound.channel_eq
  state := detectors ▸ sound.state
  code := detectors ▸ sound.code

theorem Sound.codeStamped (sound : Sound c a) (scans : c.detector.scanCode = true) :
    ∃ stamp, Protectable.codeStamp α = .ok stamp := by
  obtain ⟨stamp, stamped, _⟩ := sound.code (sound.scanCode_eq ▸ scans)
  exact ⟨stamp, stamped⟩

theorem sound_opened {v : α} {mode : ProtectionMode} {channel : Channel}
    (made : make v mode channel = .ok c) : Sound c (.opened v mode channel) := by
  rcases make_cases made with ⟨supported, stateStamped, modes, detectors⟩
  exact {
    mode_eq := modes
    scanState_eq := by
      rw [detectors]
      rfl
    scanCode_eq := by
      rw [detectors]
      rfl
    channel_eq := by
      rw [detectors]
      rfl
    state := by
      intro scans
      change mode.scansState = true at scans
      obtain ⟨stamp, stamped⟩ := stateStamped scans
      rw [detectors, scans]
      have accepted : (Account.opened v mode channel).accepted = some v := if_pos scans
      exact ⟨stamp, Account.baseline_of_accepted accepted stamped,
        Detector.lastState_accept stamped _ _⟩
    code := by
      intro scans
      change mode.scansCode = true at scans
      obtain ⟨stamp, stamped⟩ := codeStamp_of_supported supported scans
      rw [detectors, scans]
      exact ⟨stamp, stamped, Detector.lastCode_accept stamped _ _ _⟩ }

theorem Sound.applyChanges (sound : Sound c a) (change : Change α) :
    Sound (c.applyChanges change).next (a.after (.change change) (c.applyChanges change).result
      (c.applyChanges change).next.value) := by
  rcases applyChanges_cases c change sound.codeStamped with
    ⟨e, failed, modes, detectors⟩ | ⟨v, changed, modes, values, stateStamped, detectors⟩
  · rw [failed]
    exact sound.frame modes detectors
  · rw [changed, values]
    exact {
      mode_eq := modes.trans sound.mode_eq
      scanState_eq := by
        rw [detectors]
        exact sound.scanState_eq
      scanCode_eq := by
        rw [detectors]
        exact sound.scanCode_eq
      channel_eq := by
        rw [detectors]
        exact sound.channel_eq
      state := by
        intro scans
        change a.mode.scansState = true at scans
        have scanning : c.detector.scanState = true := sound.scanState_eq.trans scans
        obtain ⟨stamp, stamped⟩ := stateStamped scanning
        have accepted : (a.after (.change change) (.ok ()) (some v)).accepted = some v :=
          if_pos scans
        rw [detectors, scanning]
        exact ⟨stamp, Account.baseline_of_accepted accepted stamped,
          Detector.lastState_accept stamped _ _⟩
      code := by
        intro scans
        change a.mode.scansCode = true at scans
        obtain ⟨stamp, stamped, _⟩ := sound.code scans
        have scanning : c.detector.scanCode = true := sound.scanCode_eq.trans scans
        rw [detectors, scanning]
        exact ⟨stamp, stamped, Detector.lastCode_accept stamped _ _ _⟩ }

theorem Sound.setMode (sound : Sound c a) (mode : ProtectionMode) :
    Sound (c.setMode mode).next (a.after (.setMode mode) (c.setMode mode).result
      (c.setMode mode).next.value) := by
  rcases setMode_cases c mode with
    ⟨e, failed, same⟩ | ⟨done, modes, same⟩ | ⟨v, done, supported, value, stateStamped, changed⟩
  · rw [failed, same]
    exact sound
  · have kept : a.after (.setMode mode) (.ok ()) c.value = a := by
      have modes' : mode = a.mode := modes.symm.trans sound.mode_eq
      simp [Account.after, modes']
    rw [done, same, kept]
    exact sound
  · rw [done, changed, value]
    rw [sound.mode_eq] at stateStamped ⊢
    exact {
      mode_eq := rfl
      scanState_eq := rfl
      scanCode_eq := rfl
      channel_eq := sound.channel_eq
      state := by
        intro scans
        change mode.scansState = true at scans
        cases before : a.mode.scansState with
        | true =>
            obtain ⟨stamp, baseline, last⟩ := sound.state before
            have kept : (a.after (.setMode mode) (.ok ()) (some v)).baseline = some stamp := by
              rw [← baseline]
              simp [Account.baseline, Account.after, before]
            exact ⟨stamp, kept, by simp [Detector.setScanning, Detector.accept, last]⟩
        | false =>
            have turned : (mode.scansState && !a.mode.scansState) = true := by
              simp [scans, before]
            obtain ⟨stamp, stamped⟩ := stateStamped turned
            have accepted : (a.after (.setMode mode) (.ok ()) (some v)).accepted = some v :=
              if_pos turned
            have last := Detector.lastState_accept stamped c.detector
              (mode.scansCode && !a.mode.scansCode)
            rw [← before, turned]
            exact ⟨stamp, Account.baseline_of_accepted accepted stamped, last⟩
      code := by
        intro scans
        change mode.scansCode = true at scans
        cases before : a.mode.scansCode with
        | true =>
            obtain ⟨stamp, stamped, last⟩ := sound.code before
            exact ⟨stamp, stamped, by simp [Detector.setScanning, Detector.accept, last]⟩
        | false =>
            have turned : (mode.scansCode && !a.mode.scansCode) = true := by
              simp [scans, before]
            obtain ⟨stamp, stamped⟩ := codeStamp_of_supported supported scans
            have last := Detector.lastCode_accept stamped c.detector
              (mode.scansState && !a.mode.scansState) v
            rw [← before, turned]
            exact ⟨stamp, stamped, last⟩ }

theorem Sound.setChannel (sound : Sound c a) (channel : Channel) :
    Sound (c.setChannel channel) { a with channel } where
  mode_eq := sound.mode_eq
  scanState_eq := sound.scanState_eq
  scanCode_eq := sound.scanCode_eq
  channel_eq := rfl
  state := sound.state
  code := sound.code

/-- Every operation keeps the detector in agreement with the account. -/
theorem Sound.perform (sound : Sound c a) (op : Operation α) :
    Sound (c.perform op).next
      (a.after op (c.perform op).result (c.perform op).next.value) := by
  cases op with
  | access =>
      have same := c.withValue_next fun _ => ()
      exact sound.frame (congrArg Container.mode same) (congrArg Container.detector same)
  | change change => exact sound.applyChanges change
  | setMode mode => exact sound.setMode mode
  | setChannel channel => exact sound.setChannel channel
  | makeReadOnly => exact sound.frame rfl rfl
  | dispose =>
      change Sound c.dispose a
      unfold Container.dispose
      by_cases disposed : c.disposed = true
      · rw [if_pos disposed]
        exact sound
      · rw [if_neg disposed]
        exact sound.frame rfl rfl
  | tamper f => exact sound.frame rfl rfl

/-- The detector of a watched container agrees with its account. -/
theorem Watched.sound (watched : Watched c a) : Sound c a := by
  induction watched with
  | made made => exact sound_opened made
  | step op _ sound => exact sound.perform op

/-! ## Alerts -/

theorem Sound.knowsCode (sound : Sound c a) : c.detector.KnowsCode α := by
  intro scans
  exact sound.code (sound.scanCode_eq ▸ scans)

/-- The detector shows an injection where the account demands an alert. -/
theorem Sound.shows_iff (sound : Sound c a) (stamp : Stamp) :
    c.detector.Shows stamp ↔ a.Due stamp := by
  have alerting : a.channel.isAlerting = true ↔ a.channel ≠ .suppressed := by
    cases a.channel <;> decide
  unfold Detector.Shows Account.Due
  rw [sound.scanState_eq, sound.channel_eq, alerting]
  constructor
  · rintro ⟨scans, heard, differs⟩
    obtain ⟨last, baseline, same⟩ := sound.state scans
    rw [same, ← baseline] at differs
    exact ⟨scans, heard, differs⟩
  · rintro ⟨scans, heard, differs⟩
    obtain ⟨last, baseline, same⟩ := sound.state scans
    rw [baseline, ← same] at differs
    exact ⟨scans, heard, differs⟩

/-- The alerts that are due when a value is checked. -/
def owed (a : Account α) (v : α) : List (Channel × Alert) :=
  match Protectable.stateStamp v with
  | .ok stamp => if a.Due stamp then [(a.channel, Detector.stateAlert α)] else []
  | .error _ => []

/-- What a check raises is what is due. -/
theorem Sound.raised_eq (sound : Sound c a) (v : α) :
    (c.detector.check v).alert.toList.map (c.detector.channel, ·) = owed a v := by
  unfold owed
  cases stamped : Protectable.stateStamp v with
  | error e =>
      rw [Detector.check_unstamped sound.knowsCode stamped]
      rfl
  | ok stamp =>
      by_cases due : a.Due stamp
      · rw [Detector.check_shows sound.knowsCode stamped ((sound.shows_iff stamp).mpr due)]
        simp [due, sound.channel_eq]
      · have quiet : ¬c.detector.Shows stamp := fun shows => due ((sound.shows_iff stamp).mp shows)
        rw [Detector.check_quiet sound.knowsCode stamped quiet]
        simp [due]

/-- Only a due alert on the raising channel stops who looks. -/
theorem Sound.check_result (sound : Sound c a) {v : α} {stamp : Stamp}
    (stamped : Protectable.stateStamp v = .ok stamp) :
    (c.detector.check v).result =
      if a.Due stamp ∧ a.channel = .raise then .error (.injection (Detector.stateAlert α))
      else .ok () := by
  by_cases due : a.Due stamp
  · rw [Detector.check_shows sound.knowsCode stamped ((sound.shows_iff stamp).mpr due),
      sound.channel_eq]
    cases a.channel <;> simp [due, Channel.answer]
  · have quiet : ¬c.detector.Shows stamp := fun shows => due ((sound.shows_iff stamp).mp shows)
    rw [Detector.check_quiet sound.knowsCode stamped quiet]
    simp [due]

/-- A container alerts exactly what its account says. -/
structure AlertsExactly (c : Container α) (a : Account α) : Prop where
  mode_eq : c.mode = a.mode
  /-- While the state is scanned, some value was accepted and has a stamp. -/
  baseline : a.mode.scansState = true → ∃ stamp, a.baseline = some stamp
  /-- An operation raises what is due for the value that it checks, and nothing
  if it checks none. -/
  raised : ∀ op, (c.perform op).raised =
    match c.checked op with
    | some v => owed a v
    | none => []
  /-- However the value is looked at, this changes nothing, and fails only where
  an alert is due on the raising channel. -/
  access : ∀ {β : Type} (f : α → β) {v : α} {stamp : Stamp},
    c.live = .ok v → Protectable.stateStamp v = .ok stamp →
    (c.withValue f).raised = owed a v ∧ (c.withValue f).next = c ∧
    (c.withValue f).result =
      if a.Due stamp ∧ a.channel = .raise then .error (.injection (Detector.stateAlert α))
      else .ok (f v)
  /-- A change fails without having been made where an alert is due on the
  raising channel.  Otherwise it is made, and succeeds if the changed value can
  be accepted. -/
  change : ∀ (change : Change α) {v : α} {stamp : Stamp},
    c.readOnly = false → c.live = .ok v → Protectable.stateStamp v = .ok stamp →
    if a.Due stamp ∧ a.channel = .raise then
      (c.applyChanges change).result = .error (.injection (Detector.stateAlert α)) ∧
      (c.applyChanges change).next = c
    else
      (c.applyChanges change).next.value = some (change.apply v) ∧
      ((c.applyChanges change).result = .ok () ↔
        (a.mode.scansState = true → ∃ accepted,
          Protectable.stateStamp (change.apply v) = .ok accepted))

/-- Agreement is all that exact alerts need. -/
theorem alertsExactly_of_sound (sound : Sound c a) : AlertsExactly c a where
  mode_eq := sound.mode_eq
  baseline := by
    intro scans
    obtain ⟨stamp, baseline, _⟩ := sound.state scans
    exact ⟨stamp, baseline⟩
  raised := by
    intro op
    cases op with
    | access =>
        cases live : c.live with
        | error e => simp [perform, withValue, checked, live, Except.toOption]
        | ok v =>
            rw [perform, withValue_live live]
            simp [checked, live, Except.toOption, sound.raised_eq]
    | change change =>
        cases writable : c.readOnly with
        | true => simp [perform, applyChanges, checked, writable]
        | false =>
            cases live : c.live with
            | error e => simp [perform, applyChanges, checked, writable, live, Except.toOption]
            | ok v =>
                rw [perform, applyChanges_raised writable live, sound.raised_eq]
                simp [checked, writable, live, Except.toOption]
    | setMode mode => exact setMode_raised c mode
    | setChannel channel => rfl
    | makeReadOnly => rfl
    | dispose => rfl
    | tamper f => rfl
  access := by
    intro β f v stamp live stamped
    rw [withValue_live live]
    have checked := sound.check_result stamped
    constructor
    · exact sound.raised_eq v
    · constructor
      · rfl
      · by_cases stops : a.Due stamp ∧ a.channel = .raise
        · rw [if_pos stops] at checked ⊢
          rw [checked]
          rfl
        · rw [if_neg stops] at checked ⊢
          rw [checked]
          rfl
  change := by
    intro change v stamp writable live stamped
    have checked := sound.check_result stamped
    by_cases stops : a.Due stamp ∧ a.channel = .raise
    · rw [if_pos stops] at checked ⊢
      exact applyChanges_stopped writable live checked change
    · rw [if_neg stops] at checked ⊢
      rcases applyChanges_passed writable live checked change with ⟨results, nexts⟩
      constructor
      · rw [nexts]
      · rw [results, Detector.notify]
        rcases c.detector.notifyIn_cases c.detector.scanState c.detector.scanCode
          (change.apply v) sound.codeStamped with
          ⟨e, scans, unstamped, failed⟩ | ⟨accepts, accepted⟩
        · rw [failed]
          have needed : a.mode.scansState = true := sound.scanState_eq ▸ scans
          simp [needed, unstamped]
        · rw [accepted]
          rw [sound.scanState_eq] at accepts
          constructor
          · intro _
            exact accepts
          · intro _
            rfl

/-- Whatever a container that was made goes through, it alerts exactly what its
account says. -/
theorem Watched.alertsExactly (watched : Watched c a) : AlertsExactly c a :=
  alertsExactly_of_sound watched.sound

/-! ### An injection -/

/-- A flag whose state is protected, with alerts that stop who looks. -/
def flag : Container Shape.bool.Value where
  value := some true
  detector := {
    scanState := true
    scanCode := false
    channel := .raise
    lastState := some (Stamp.of [1, 1]) }
  mode := .justState

/-- Turning the flag over behind the container's back. -/
def turnOver : Operation Shape.bool.Value :=
  .tamper not

/-- A flag that was turned over is alerted, and whoever looks at it is stopped. -/
theorem alertsExactly_turnOver : ∃ (c : Container Shape.bool.Value)
    (a : Account Shape.bool.Value), Watched c a ∧ AlertsExactly c a ∧
      (c.perform .access).raised = [(.raise, Detector.stateAlert Shape.bool.Value)] := by
  have made : make (α := Shape.bool.Value) true .justState .raise = .ok flag := rfl
  have watched : Watched (flag.perform turnOver).next (.opened true .justState .raise) :=
    .step turnOver (.made made)
  have exactly := watched.alertsExactly
  have alerted : ((flag.perform turnOver).next.perform .access).raised =
      [(.raise, Detector.stateAlert Shape.bool.Value)] := by
    rw [exactly.raised]
    decide +kernel
  exact ⟨_, _, watched, exactly, alerted⟩

end EntropySeal.Container
