import EntropySeal.Protection.Container

/-!
# What a detector accepts and finds

Accepting a value fails when its state has no stamp, and then changes nothing;
otherwise the baselines of the given dimensions become the stamps of the value
and of its type.  Of a type that is supported, the code always has a stamp.

A detector whose code baseline is the stamp of the type finds injections into
the state only.
-/

namespace EntropySeal

variable {α : Type} [Protectable α]

theorem Container.codeStamp_of_supported {mode : ProtectionMode}
    (supported : Container.ensureSupported α mode = .ok ()) (scans : mode.scansCode = true) :
    ∃ stamp, Protectable.codeStamp α = .ok stamp := by
  unfold Container.ensureSupported at supported
  unfold Protectable.codeStamp
  cases dictionary : (Protectable.info α).isDictionary with
  | true => simp [scans, dictionary] at supported
  | false => exact ⟨_, rfl⟩

namespace Detector

/-- The detector after it accepted a value in a set of dimensions. -/
def accept (d : Detector) (state code : Bool) (v : α) : Detector :=
  { d with
    lastState := if state then (Protectable.stateStamp v).toOption else d.lastState
    lastCode := if code then (Protectable.codeStamp α).toOption else d.lastCode }

theorem lastState_accept {v : α} {stamp : Stamp}
    (stamped : Protectable.stateStamp v = .ok stamp) (d : Detector) (code : Bool) :
    (d.accept true code v).lastState = some stamp := by
  simp [accept, stamped, Except.toOption]

theorem lastCode_accept {stamp : Stamp} (stamped : Protectable.codeStamp α = .ok stamp)
    (d : Detector) (state : Bool) (v : α) : (d.accept state true v).lastCode = some stamp := by
  simp [accept, stamped, Except.toOption]

theorem notifyIn_error {d : Detector} {v : α} {e : Error}
    (unstamped : Protectable.stateStamp v = .error e) (code : Bool) :
    d.notifyIn true code v = (.error e, d) := by
  simp [notifyIn, notifyState, unstamped]

theorem notifyIn_ok {d : Detector} {state code : Bool} {v : α}
    (stateStamped : state = true → ∃ stamp, Protectable.stateStamp v = .ok stamp)
    (codeStamped : code = true → ∃ stamp, Protectable.codeStamp α = .ok stamp) :
    d.notifyIn state code v = (.ok (), d.accept state code v) := by
  have accepted : (if state then d.notifyState v else (.ok (), d)) =
      (.ok (), d.accept state false v) := by
    cases state with
    | false => rfl
    | true =>
        obtain ⟨stamp, stamped⟩ := stateStamped rfl
        simp [notifyState, accept, stamped, Except.toOption]
  rw [notifyIn, accepted]
  cases code with
  | false => rfl
  | true =>
      obtain ⟨stamp, stamped⟩ := codeStamped rfl
      simp [notifyCode, accept, stamped, Except.toOption]

/-- Accepting a value works unless its state is to be accepted and has no
stamp. -/
theorem notifyIn_cases (d : Detector) (state code : Bool) (v : α)
    (codeStamped : code = true → ∃ stamp, Protectable.codeStamp α = .ok stamp) :
    (∃ e, state = true ∧ Protectable.stateStamp v = .error e ∧
      d.notifyIn state code v = (.error e, d)) ∨
    (state = true → ∃ stamp, Protectable.stateStamp v = .ok stamp) ∧
      d.notifyIn state code v = (.ok (), d.accept state code v) := by
  cases state with
  | false =>
      exact .inr ⟨by simp, notifyIn_ok (by simp) codeStamped⟩
  | true =>
      cases stamped : Protectable.stateStamp v with
      | error e => exact .inl ⟨e, rfl, rfl, notifyIn_error stamped code⟩
      | ok stamp =>
          have accepted : d.notifyIn true code v = (.ok (), d.accept true code v) :=
            notifyIn_ok (fun _ => ⟨stamp, stamped⟩) codeStamped
          exact .inr ⟨fun _ => ⟨stamp, rfl⟩, accepted⟩

/-! ## Checks -/

/-- The code baseline, where code is scanned, is the stamp of the type. -/
def KnowsCode (α : Type) [Protectable α] (d : Detector) : Prop :=
  d.scanCode = true → ∃ stamp, Protectable.codeStamp α = .ok stamp ∧ d.lastCode = some stamp

theorem differs_code {d : Detector} (known : d.KnowsCode α) :
    differs d.scanCode d.lastCode (Protectable.codeStamp α) = .ok false := by
  unfold differs
  cases scans : d.scanCode with
  | false => rfl
  | true =>
      obtain ⟨stamp, stamped, last⟩ := known scans
      simp [stamped, last, Except.map]

/-- The state of a value with this stamp shows an injection. -/
def Shows (d : Detector) (stamp : Stamp) : Prop :=
  d.scanState = true ∧ d.channel.isAlerting = true ∧ d.lastState ≠ some stamp

instance (d : Detector) (stamp : Stamp) : Decidable (d.Shows stamp) :=
  inferInstanceAs (Decidable (_ ∧ _ ∧ _))

theorem Shows.canAlert {d : Detector} {stamp : Stamp} (shows : d.Shows stamp) :
    d.canAlert = true := by
  rcases shows with ⟨scans, alerting, _⟩
  simp [Detector.canAlert, scans, alerting]

theorem differs_ok (scans : Bool) (baseline : Option Stamp) (stamp : Stamp) :
    differs scans baseline (.ok stamp) = .ok (decide (scans = true ∧ baseline ≠ some stamp)) := by
  cases scans <;> simp [differs, Except.map]

/-- Where both dimensions can be compared, their mismatches make up what is found. -/
theorem find_of_differs {d : Detector} {v : α} {state code : Bool} (able : d.canAlert = true)
    (inState : differs d.scanState d.lastState (Protectable.stateStamp v) = .ok state)
    (inCode : differs d.scanCode d.lastCode (Protectable.codeStamp α) = .ok code) :
    d.find v = .ok (InjectionKind.ofMismatch? state code) := by
  rw [find, if_pos able, inState, inCode]
  rfl

/-- Of a value with a stamp, an injection is found exactly in the state. -/
theorem find_stamped {d : Detector} (known : d.KnowsCode α) {v : α} {stamp : Stamp}
    (stamped : Protectable.stateStamp v = .ok stamp) :
    d.find v = .ok (if d.Shows stamp then some .state else none) := by
  by_cases able : d.canAlert = true
  · have inState := differs_ok d.scanState d.lastState stamp
    rw [← stamped] at inState
    rw [find_of_differs able inState (differs_code known)]
    have alerting : d.channel.isAlerting = true := by
      simp only [canAlert, Bool.and_eq_true] at able
      exact able.2
    by_cases differ : d.scanState = true ∧ d.lastState ≠ some stamp
    · rw [if_pos ⟨differ.1, alerting, differ.2⟩, decide_eq_true differ]
      rfl
    · have quiet : ¬d.Shows stamp := fun shows => differ ⟨shows.1, shows.2.2⟩
      rw [if_neg quiet, decide_eq_false differ]
      rfl
  · have quiet : ¬d.Shows stamp := fun shows => able shows.canAlert
    rw [find, if_neg able, if_neg quiet]

/-- The alert of an injection into the state. -/
def stateAlert (α : Type) [Protectable α] : Alert :=
  ⟨.state, (Protectable.info α).name⟩

theorem check_shows {d : Detector} (known : d.KnowsCode α) {v : α} {stamp : Stamp}
    (stamped : Protectable.stateStamp v = .ok stamp) (shows : d.Shows stamp) :
    d.check v = ⟨some (stateAlert α), d.channel.answer (stateAlert α)⟩ := by
  rw [check, find_stamped known stamped, if_pos shows]
  rfl

theorem check_quiet {d : Detector} (known : d.KnowsCode α) {v : α} {stamp : Stamp}
    (stamped : Protectable.stateStamp v = .ok stamp) (quiet : ¬d.Shows stamp) :
    d.check v = ⟨none, .ok ()⟩ := by
  rw [check, find_stamped known stamped, if_neg quiet]

/-- A value without a stamp cannot be checked where its state is scanned, and is
not looked at elsewhere. -/
theorem check_unstamped_eq {d : Detector} (known : d.KnowsCode α) {v : α} {e : Error}
    (unstamped : Protectable.stateStamp v = .error e) :
    d.check v = ⟨none, if d.canAlert = true ∧ d.scanState = true then .error e else .ok ()⟩ := by
  have found : d.find v =
      if d.canAlert = true ∧ d.scanState = true then .error e else .ok none := by
    unfold find
    by_cases able : d.canAlert = true
    · rw [if_pos able, differs_code known, unstamped]
      cases scans : d.scanState with
      | false => simp [differs, InjectionKind.ofMismatch?, bind, Except.bind, pure, Except.pure]
      | true => simp [differs, able, Except.map, bind, Except.bind]
    · simp [able]
  rw [check, found]
  by_cases blind : d.canAlert = true ∧ d.scanState = true
  · rw [if_pos blind, if_pos blind]
  · rw [if_neg blind, if_neg blind]

/-- A value without a stamp gives no alert. -/
theorem check_unstamped {d : Detector} (known : d.KnowsCode α) {v : α} {e : Error}
    (unstamped : Protectable.stateStamp v = .error e) : (d.check v).alert = none := by
  rw [check_unstamped_eq known unstamped]

end Detector

end EntropySeal
