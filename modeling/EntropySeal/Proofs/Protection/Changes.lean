import EntropySeal.Proofs.Protection.Alerting

/-!
# What a failed change leaves

A change of a container can fail in five ways.  Four of them stop it before it is
made: the container is read-only or disposed, an injection is found, or the value
cannot be stamped for the check.  Then nothing has happened.

The fifth comes after the change was made: the changed value has no stamp to become
the baseline.  Baselines, mode and disposal are still as they were, but the changed
value stays, since there is no copy of the one before it.
-/

namespace EntropySeal.Container

variable {α : Type} [Protectable α] {c : Container α} {a : Account α}

/-! ## Containers hold a value until they are disposed -/

/-- The container was disposed or holds a value. -/
def Stocked (c : Container α) : Prop :=
  c.disposed = true ∨ ∃ v, c.live = .ok v

/-- A change leaves a container as it is, or makes it hold the changed value. -/
theorem applyChanges_next (c : Container α) (change : Change α) :
    (c.applyChanges change).next = c ∨ ∃ v, c.live = .ok v ∧
      (c.applyChanges change).next = { c with
        value := some (change.apply v)
        detector := (c.detector.notify (change.apply v)).2
        readOnly := change.locks } := by
  cases writable : c.readOnly with
  | true => exact .inl (by simp [applyChanges, writable])
  | false =>
      cases live : c.live with
      | error e => exact .inl (by simp [applyChanges, writable, live])
      | ok v =>
          cases checked : (c.detector.check v).result with
          | error e => exact .inl (applyChanges_stopped writable live checked change).2
          | ok u => exact .inr ⟨v, rfl, (applyChanges_passed writable live checked change).2⟩

/-- Setting the mode reaches neither the value nor the flags. -/
theorem setMode_next (c : Container α) (mode : ProtectionMode) :
    ∃ detector mode', (c.setMode mode).next = { c with detector, mode := mode' } := by
  rcases setMode_cases c mode with ⟨_, _, same⟩ | ⟨_, _, same⟩ | ⟨_, _, _, _, _, changed⟩
  · exact ⟨c.detector, c.mode, same⟩
  · exact ⟨c.detector, c.mode, same⟩
  · exact ⟨_, _, changed⟩

/-- An operation leaves a value where one was, or is the disposal. -/
theorem isSome_value_perform (c : Container α) (op : Operation α) :
    ((c.perform op).next.disposed = c.disposed ∧
      (c.perform op).next.value.isSome = c.value.isSome) ∨
    ((c.perform op).next.disposed = true ∧ (c.perform op).next.value = none) := by
  cases op with
  | access =>
      rw [perform, withValue_next]
      exact .inl ⟨rfl, rfl⟩
  | change change =>
      rcases c.applyChanges_next change with same | ⟨v, live, next⟩
      · rw [perform, same]
        exact .inl ⟨rfl, rfl⟩
      · rw [perform, next, (live_eq_ok_iff.mp live).2]
        exact .inl ⟨rfl, rfl⟩
  | setMode mode =>
      obtain ⟨detector, mode', next⟩ := c.setMode_next mode
      rw [perform, next]
      exact .inl ⟨rfl, rfl⟩
  | setChannel channel => exact .inl ⟨rfl, rfl⟩
  | makeReadOnly => exact .inl ⟨rfl, rfl⟩
  | dispose =>
      by_cases disposed : c.disposed = true
      · have same : c.dispose = c := if_pos disposed
        rw [perform, same]
        exact .inl ⟨rfl, rfl⟩
      · have given : c.dispose = { c with disposed := true, value := none } := if_neg disposed
        rw [perform, given]
        exact .inr ⟨rfl, rfl⟩
  | tamper f => exact .inl ⟨rfl, Option.isSome_map⟩

/-- A container that was made holds the value, and is neither read-only nor disposed. -/
theorem exists_of_make {v : α} {mode : ProtectionMode} {channel : Channel}
    (made : make v mode channel = .ok c) :
    ∃ detector, c = { value := some v, detector, mode } := by
  unfold make at made
  cases supported : ensureSupported α mode with
  | error e =>
      rw [supported] at made
      cases made
  | ok u =>
      cases accepted : Detector.notify ⟨mode.scansState, mode.scansCode, channel, none, none⟩ v with
      | mk result detector =>
          rw [supported, accepted] at made
          cases result with
          | error e => cases made
          | ok u =>
              cases made
              exact ⟨detector, rfl⟩

theorem Watched.isSome_value (watched : Watched c a) : c.value.isSome = !c.disposed := by
  induction watched with
  | made made =>
      obtain ⟨_, rfl⟩ := exists_of_make made
      rfl
  | @step c _ op _ ih =>
      rcases c.isSome_value_perform op with ⟨disposals, values⟩ | ⟨disposed, value⟩
      · rw [disposals, values, ih]
      · rw [disposed, value]
        rfl

theorem Watched.stocked (watched : Watched c a) : Stocked c := by
  have holds := watched.isSome_value
  cases disposed : c.disposed with
  | true => exact .inl disposed
  | false =>
      rw [disposed] at holds
      obtain ⟨v, value⟩ := Option.isSome_iff_exists.mp holds
      exact .inr ⟨v, live_eq_ok_iff.mpr ⟨disposed, value⟩⟩

/-! ## The ways to fail -/

/-- Why a change is stopped before it is made. -/
inductive Refused (c : Container α) : Error → Prop where
  | readOnly : c.readOnly = true → Refused c .readOnly
  | gone : c.readOnly = false → c.disposed = true → Refused c gone
  /-- The value is not the one that was accepted, and alerts stop who looks. -/
  | injection {v : α} {stamp : Stamp} : c.readOnly = false → c.live = .ok v →
      Protectable.stateStamp v = .ok stamp → c.detector.Shows stamp →
      c.detector.channel = .raise → Refused c (.injection (Detector.stateAlert α))
  /-- The value cannot be compared with the one that was accepted. -/
  | unstamped {v : α} {e : Error} : c.readOnly = false → c.live = .ok v →
      c.detector.canAlert = true → c.detector.scanState = true →
      Protectable.stateStamp v = .error e → Refused c e

/-- The change is made, of this value, and leaves one that cannot be accepted. -/
structure Spoils (c : Container α) (change : Change α) (v : α) (e : Error) : Prop where
  writable : c.readOnly = false
  live : c.live = .ok v
  passed : (c.detector.check v).result = .ok ()
  scans : c.detector.scanState = true
  unstamped : Protectable.stateStamp (change.apply v) = .error e

/-- A change that is refused leaves everything as it was. -/
theorem Sound.change_refused (sound : Sound c a) {e : Error} (refused : c.Refused e)
    (change : Change α) :
    (c.applyChanges change).result = .error e ∧ (c.applyChanges change).next = c := by
  cases refused with
  | readOnly locked => simp [Container.applyChanges, locked]
  | gone writable disposed => simp [Container.applyChanges, writable, live, disposed]
  | @injection v stamp writable live stamped shows raises =>
      have stopped : (c.detector.check v).result = .error (.injection (Detector.stateAlert α)) := by
        rw [Detector.check_shows sound.knowsCode stamped shows, raises]
        rfl
      exact applyChanges_stopped writable live stopped change
  | @unstamped v e writable live able scans unstamped =>
      have stopped : (c.detector.check v).result = .error e := by
        rw [Detector.check_unstamped_eq sound.knowsCode unstamped, if_pos ⟨able, scans⟩]
      exact applyChanges_stopped writable live stopped change

/-- A change that spoils the value is not taken back. -/
theorem Spoils.change {change : Change α} {v : α} {e : Error} (spoils : c.Spoils change v e) :
    (c.applyChanges change).result = .error e ∧
    (c.applyChanges change).next =
      { c with value := some (change.apply v), readOnly := change.locks } := by
  have passed := applyChanges_passed spoils.writable spoils.live spoils.passed change
  rw [Detector.notify, spoils.scans, Detector.notifyIn_error spoils.unstamped] at passed
  exact passed

/-- The check before a change passes, or is a reason to refuse the change. -/
theorem Sound.passed_or_refused (sound : Sound c a) {v : α} (writable : c.readOnly = false)
    (live : c.live = .ok v) : (c.detector.check v).result = .ok () ∨ ∃ e, c.Refused e := by
  cases stamped : Protectable.stateStamp v with
  | error e =>
      by_cases blind : c.detector.canAlert = true ∧ c.detector.scanState = true
      · exact .inr ⟨e, .unstamped writable live blind.1 blind.2 stamped⟩
      · rw [Detector.check_unstamped_eq sound.knowsCode stamped, if_neg blind]
        exact .inl rfl
  | ok stamp =>
      by_cases stops : c.detector.Shows stamp ∧ c.detector.channel = .raise
      · exact .inr ⟨_, .injection writable live stamped stops.1 stops.2⟩
      · rw [sound.shows_iff, sound.channel_eq] at stops
        rw [sound.check_result stamped, if_neg stops]
        exact .inl rfl

/-- There are no other ways to fail. -/
theorem Sound.change_cases (sound : Sound c a) (stocked : Stocked c) (change : Change α) :
    (∃ e, c.Refused e) ∨ (∃ v e, c.Spoils change v e) ∨
      (c.applyChanges change).result = .ok () := by
  cases writable : c.readOnly with
  | true => exact .inl ⟨_, .readOnly writable⟩
  | false =>
      rcases stocked with disposed | ⟨v, live⟩
      · exact .inl ⟨_, .gone writable disposed⟩
      · rcases sound.passed_or_refused writable live with passed | refused
        · rcases c.detector.notifyIn_cases c.detector.scanState c.detector.scanCode
            (change.apply v) sound.codeStamped with ⟨e, scans, unstamped, _⟩ | ⟨_, accepted⟩
          · exact .inr (.inl ⟨v, e, ⟨writable, live, passed, scans, unstamped⟩⟩)
          · rw [(applyChanges_passed writable live passed change).1, Detector.notify, accepted]
            exact .inr (.inr rfl)
        · exact .inl refused

/-- A change fails if it is refused or spoils the value, and not otherwise. -/
theorem Sound.change_eq_error_iff (sound : Sound c a) (stocked : Stocked c) (change : Change α)
    (e : Error) : (c.applyChanges change).result = .error e ↔
      c.Refused e ∨ ∃ v, c.Spoils change v e := by
  constructor
  · intro failed
    rcases sound.change_cases stocked change with ⟨e', refused⟩ | ⟨v, e', spoils⟩ | done
    · rw [(sound.change_refused refused change).1] at failed
      cases failed
      exact .inl refused
    · rw [spoils.change.1] at failed
      cases failed
      exact .inr ⟨v, spoils⟩
    · rw [done] at failed
      cases failed
  · rintro (refused | ⟨v, spoils⟩)
    · exact (sound.change_refused refused change).1
    · exact spoils.change.1

/-- A change of a container fails exactly if it is refused or spoils the value.
However it fails, the baselines, the mode and the disposal are as they were.  If it
was refused, so is everything else; if it spoiled the value, the spoiled value stays,
and the container is read-only if the change made it so. -/
theorem Watched.failed_change (watched : Watched c a) (change : Change α) (e : Error) :
    ((c.applyChanges change).result = .error e ↔ c.Refused e ∨ ∃ v, c.Spoils change v e) ∧
    ((c.applyChanges change).result = .error e →
      (c.applyChanges change).next.detector = c.detector ∧
      (c.applyChanges change).next.mode = c.mode ∧
      (c.applyChanges change).next.disposed = c.disposed) ∧
    (c.Refused e → (c.applyChanges change).next = c) ∧
    ∀ v, c.Spoils change v e → (c.applyChanges change).next =
      { c with value := some (change.apply v), readOnly := change.locks } := by
  have failed_iff := watched.sound.change_eq_error_iff watched.stocked change e
  constructor
  · exact failed_iff
  · constructor
    · intro failed
      rcases failed_iff.mp failed with refused | ⟨v, spoils⟩
      · rw [(watched.sound.change_refused refused change).2]
        exact ⟨rfl, rfl, rfl⟩
      · rw [spoils.change.2]
        exact ⟨rfl, rfl, rfl⟩
    · constructor
      · intro refused
        exact (watched.sound.change_refused refused change).2
      · intro v spoils
        exact spoils.change.2

/-! ### A gauge that gets stuck -/

/-- A gauge, which can only be read off while it is not stuck. -/
inductive Gauge where
  | shows (n : BitVec 8)
  | stuck

instance : Protectable Gauge where
  info := { name := "Gauge", size := 2, align := 1, needsDrop := false }
  toTree
    | .shows n => .uint .w8 n
    | .stuck => .fail "stuck"

/-- A gauge that shows a one, its state protected, with alerts that stop who looks. -/
def gauge : Container Gauge where
  value := some (.shows 1)
  detector := {
    scanState := true
    scanCode := false
    channel := .raise
    lastState := (Protectable.stateStamp (Gauge.shows 1)).toOption }
  mode := .justState

/-- The gauge gets stuck. -/
def jam : Change Gauge where
  apply _ := .stuck

theorem gauge_watched : Watched gauge (.opened (Gauge.shows 1) .justState .raise) := by
  have made : make (Gauge.shows 1) .justState .raise = .ok gauge := rfl
  exact .made made

theorem gauge_passed : (gauge.detector.check (Gauge.shows 1)).result = .ok () := by
  have known : gauge.detector.KnowsCode Gauge := nofun
  obtain ⟨stamp, stamped, last⟩ : ∃ stamp, Protectable.stateStamp (Gauge.shows 1) = .ok stamp ∧
      gauge.detector.lastState = some stamp := ⟨_, rfl, rfl⟩
  rw [Detector.check_quiet known stamped fun shows => shows.2.2 last]

/-- The gauge cannot be accepted once it is stuck. -/
theorem gauge_spoils : gauge.Spoils jam (.shows 1) (.notEncodable "Gauge" "stuck") where
  writable := rfl
  live := rfl
  passed := gauge_passed
  scans := rfl
  unstamped := rfl

/-- A gauge that gets stuck stays stuck although the change fails, and what the
container held before cannot be read any more. -/
theorem change_not_undone :
    Watched gauge (.opened (Gauge.shows 1) .justState .raise) ∧
    gauge.value = some (.shows 1) ∧
    gauge.read.result = .ok (.shows 1) ∧
    (gauge.applyChanges jam).result = .error (.notEncodable "Gauge" "stuck") ∧
    (gauge.applyChanges jam).next.value = some .stuck ∧
    (gauge.applyChanges jam).next.read.result = .error (.notEncodable "Gauge" "stuck") := by
  have readable : gauge.read.result = .ok (.shows 1) := by
    rw [read, withValue_live gauge_spoils.live, gauge_passed]
    rfl
  rcases gauge_spoils.change with ⟨failed, next⟩
  rw [next]
  exact ⟨gauge_watched, rfl, readable, failed, rfl, rfl⟩

/-- Only the gauge itself is another one after it got stuck. -/
theorem failed_change_jam : ∃ a, Watched gauge a ∧
    (gauge.applyChanges jam).result = .error (.notEncodable "Gauge" "stuck") ∧
    (gauge.applyChanges jam).next.detector = gauge.detector ∧
    (gauge.applyChanges jam).next = { gauge with value := some .stuck } := by
  rcases gauge_watched.failed_change jam (.notEncodable "Gauge" "stuck") with
    ⟨failed_iff, kept, _, spoiled⟩
  have failed := failed_iff.mpr (.inr ⟨_, gauge_spoils⟩)
  exact ⟨_, gauge_watched, failed, (kept failed).1, spoiled _ gauge_spoils⟩

end EntropySeal.Container
