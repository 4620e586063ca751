import EntropySeal.Proofs.Protection.Modes

/-!
# What cannot be taken back

A container that is read-only stays so, and so does one that was disposed, whatever
is done to it.

A read-only container turns every change away before anything is looked at.  Then
only its disposal, and what happens behind its back, still reach its value.

A disposed container holds no value.  It turns away whoever wants to look at it,
change it or protect it in another mode; its mode and its baselines are those that
it had.  Two questions come before the disposal: whether a change may be made at
all, and whether the type can be protected in a mode at all.
-/

namespace EntropySeal

variable {α β : Type}

/-- What an operation leaves of a value that cannot be changed any more. -/
def Operation.leaves : Operation α → Option α → Option α
  | .dispose, _ => none
  | .tamper f, value => value.map f
  | .access, value | .change _, value | .setMode _, value | .setChannel _, value
  | .makeReadOnly, value => value

namespace Container

/-- An operation that is turned away: it changes nothing, raises nothing and logs
nothing. -/
def turnAway (c : Container α) (e : Error) : Outcome (Container α) β :=
  { result := .error e, next := c }

variable [Protectable α] {c : Container α} {a : Account α}

/-! ## Operations that are turned away -/

theorem applyChanges_readOnly (locked : c.readOnly = true) (change : Change α) :
    c.applyChanges change = c.turnAway .readOnly := by
  simp [applyChanges, locked, turnAway]

theorem applyChanges_disposed (writable : c.readOnly = false) (disposed : c.disposed = true)
    (change : Change α) : c.applyChanges change = c.turnAway gone := by
  simp [applyChanges, writable, live, disposed, turnAway]

theorem withValue_disposed (disposed : c.disposed = true) (f : α → β) :
    c.withValue f = c.turnAway gone := by
  simp [withValue, live, disposed, turnAway]

theorem setMode_unsupported {mode : ProtectionMode} (unsupported : ¬Supports α mode) :
    c.setMode mode = c.turnAway (.dictionaryMode (Protectable.info α).name mode) := by
  simp [setMode, ensureSupported_eq, unsupported, turnAway]

theorem setMode_disposed {mode : ProtectionMode} (supported : Supports α mode)
    (disposed : c.disposed = true) : c.setMode mode = c.turnAway gone := by
  simp [setMode, ensureSupported_eq, supported, disposed, turnAway]

/-! ## Steps -/

omit [Protectable α] in
theorem disposed_dispose (c : Container α) : c.dispose.disposed = true := by
  unfold dispose
  by_cases disposed : c.disposed = true
  · rw [if_pos disposed]
    exact disposed
  · rw [if_neg disposed]

/-- A read-only container stays read-only. -/
theorem readOnly_perform (locked : c.readOnly = true) (op : Operation α) :
    (c.perform op).next.readOnly = true := by
  cases op with
  | access => exact (congrArg Container.readOnly (c.withValue_next _)).trans locked
  | change change =>
      rw [perform, applyChanges_readOnly locked]
      exact locked
  | setMode mode =>
      obtain ⟨detector, mode', next⟩ := c.setMode_next mode
      rw [perform, next]
      exact locked
  | setChannel channel => exact locked
  | makeReadOnly => rfl
  | dispose =>
      change c.dispose.readOnly = true
      unfold dispose
      split <;> exact locked
  | tamper f => exact locked

/-- Everything that can still be done to a disposed container. -/
theorem perform_disposed (disposed : c.disposed = true) (op : Operation α) :
    (c.perform op).next =
      match op with
      | .setChannel channel => c.setChannel channel
      | .makeReadOnly => c.makeReadOnly
      | .tamper f => c.tamper f
      | _ => c := by
  cases op with
  | access => exact c.withValue_next _
  | change change =>
      rcases c.applyChanges_next change with same | ⟨v, live, _⟩
      · exact same
      · rw [(live_eq_ok_iff.mp live).1] at disposed
        cases disposed
  | setMode mode =>
      by_cases supported : Supports α mode
      · rw [perform, setMode_disposed supported disposed]
        rfl
      · rw [perform, setMode_unsupported supported]
        rfl
  | setChannel channel => rfl
  | makeReadOnly => rfl
  | dispose => exact if_pos disposed
  | tamper f => rfl

theorem Watched.value_of_disposed (watched : Watched c a) (disposed : c.disposed = true) :
    c.value = none := by
  have holds := watched.isSome_value
  rw [disposed] at holds
  exact Option.not_isSome_iff_eq_none.mp (by simp [holds])

/-- Only its disposal, and what happens behind its back, reach the value of a
read-only container. -/
theorem Watched.value_perform (watched : Watched c a) (locked : c.readOnly = true) (op : Operation α) :
    (c.perform op).next.value = op.leaves c.value := by
  cases op with
  | access => exact congrArg Container.value (c.withValue_next _)
  | change change =>
      rw [perform, applyChanges_readOnly locked]
      rfl
  | setMode mode =>
      obtain ⟨detector, mode', next⟩ := c.setMode_next mode
      rw [perform, next]
      rfl
  | setChannel channel => rfl
  | makeReadOnly => rfl
  | dispose =>
      change c.dispose.value = none
      unfold dispose
      by_cases disposed : c.disposed = true
      · rw [if_pos disposed]
        exact watched.value_of_disposed disposed
      · rw [if_neg disposed]
  | tamper f => rfl

/-! ## Runs -/

/-- What every operation keeps, every run keeps. -/
theorem through_keeps (Kept : Container α → Prop) (start : Kept c)
    (keeps : ∀ c op, Kept c → Kept (c.perform op).next) (ops : List (Operation α)) :
    Kept (c.through ops) := by
  induction ops generalizing c with
  | nil => exact start
  | cons op rest ih => exact ih (keeps c op start)

theorem readOnly_through (locked : c.readOnly = true) (ops : List (Operation α)) :
    (c.through ops).readOnly = true := by
  apply through_keeps (fun c => c.readOnly = true) locked
  intro c op locked
  exact readOnly_perform locked op

theorem Watched.value_through (watched : Watched c a) (locked : c.readOnly = true)
    (ops : List (Operation α)) :
    (c.through ops).value = ops.foldl (fun value op => op.leaves value) c.value := by
  induction ops generalizing c a with
  | nil => rfl
  | cons op rest ih =>
      rw [List.foldl_cons, ← watched.value_perform locked op]
      exact ih (watched.step op) (readOnly_perform locked op)

/-- The container is `c` after its disposal and, perhaps, another choice of the
channel. -/
structure Retains (c next : Container α) : Prop where
  disposed : next.disposed = true
  mode_eq : next.mode = c.mode
  scanState_eq : next.detector.scanState = c.detector.scanState
  scanCode_eq : next.detector.scanCode = c.detector.scanCode
  lastState_eq : next.detector.lastState = c.detector.lastState
  lastCode_eq : next.detector.lastCode = c.detector.lastCode

theorem Retains.perform {next : Container α} (retains : Retains c next) (op : Operation α) :
    Retains c (next.perform op).next := by
  rw [perform_disposed retains.disposed]
  cases op <;> exact { retains with }

theorem retains_through (disposed : c.disposed = true) (ops : List (Operation α)) :
    Retains c (c.through ops) := by
  have start : Retains c c := ⟨disposed, rfl, rfl, rfl, rfl, rfl⟩
  apply through_keeps (Retains c) start
  intro next op retains
  exact retains.perform op

/-! ## What is final -/

/-- The container turns every change away without a check, and only its disposal,
and what happens behind its back, reach its value. -/
structure Locked (c : Container α) : Prop where
  readOnly : c.readOnly = true
  change : ∀ change : Change α, c.applyChanges change = c.turnAway .readOnly
  unchecked : ∀ change : Change α, c.checked (.change change) = none
  value : ∀ op : Operation α, (c.perform op).next.value = op.leaves c.value
  /-- To make it read-only again changes nothing. -/
  again : c.makeReadOnly = c

/-- The container holds no value, and turns away whoever asks for it. -/
structure Closed (c : Container α) : Prop where
  disposed : c.disposed = true
  value : c.value = none
  access : ∀ {β : Type} (f : α → β), c.withValue f = c.turnAway gone
  read : c.read = c.turnAway gone
  change : c.readOnly = false → ∀ change : Change α, c.applyChanges change = c.turnAway gone
  setMode : ∀ mode, Supports α mode → c.setMode mode = c.turnAway gone
  /-- To dispose it again changes nothing. -/
  again : c.dispose = c

theorem Watched.locked (watched : Watched c a) (locked : c.readOnly = true) : Locked c where
  readOnly := locked
  change := applyChanges_readOnly locked
  unchecked _ := if_pos locked
  value := watched.value_perform locked
  again := by
    rw [makeReadOnly, ← locked]

theorem Watched.closed (watched : Watched c a) (disposed : c.disposed = true) : Closed c where
  disposed := disposed
  value := watched.value_of_disposed disposed
  access := withValue_disposed disposed
  read := withValue_disposed disposed id
  change writable := applyChanges_disposed writable disposed
  setMode _ supported := setMode_disposed supported disposed
  again := if_pos disposed

/-- Once a container is read-only it is locked after whatever else happens to it, and
its value is what disposals and changes behind its back leave of it.  Once it is
disposed it is closed after whatever else happens to it, and its mode, what it scans
and its baselines are those that it had. -/
theorem Watched.flags_final (watched : Watched c a) (ops : List (Operation α)) :
    c.makeReadOnly.readOnly = true ∧ c.dispose.disposed = true ∧
    (c.readOnly = true → Locked (c.through ops) ∧
      (c.through ops).value = ops.foldl (fun value op => op.leaves value) c.value) ∧
    (c.disposed = true → Closed (c.through ops) ∧ Retains c (c.through ops)) := by
  obtain ⟨_, after⟩ := watched.through ops
  constructor
  · rfl
  · constructor
    · exact c.disposed_dispose
    · constructor
      · intro locked
        constructor
        · exact after.locked (readOnly_through locked ops)
        · exact watched.value_through locked ops
      · intro disposed
        have retains := retains_through disposed ops
        constructor
        · exact after.closed retains.disposed
        · exact retains

/-! ### A flag that is put away -/

/-- Turning the flag over through the container. -/
def turnBack : Operation Shape.bool.Value :=
  .change { apply := not }

/-- The flag after it was turned over behind the container's back, and made read-only. -/
def shownFlag : Container Shape.bool.Value :=
  flag.through [turnOver, .makeReadOnly]

/-- The same, after its disposal. -/
def storedFlag : Container Shape.bool.Value :=
  shownFlag.dispose

/-- The flag cannot be turned back, and nobody is alerted who tries.  Once it is put
away, it cannot be looked at either. -/
theorem flags_final_put_away : ∃ a b, Watched shownFlag a ∧ Watched storedFlag b ∧
    Locked (shownFlag.through [turnBack]) ∧
    (shownFlag.through [turnBack]).value = some false ∧
    (shownFlag.perform turnBack).raised = [] ∧
    Closed (storedFlag.through [turnOver, .setChannel .log]) := by
  have made : make (α := Shape.bool.Value) true .justState .raise = .ok flag := rfl
  obtain ⟨a, shown⟩ := (Watched.made made).through [turnOver, .makeReadOnly]
  have stored : Watched storedFlag (a.after .dispose (.ok ()) none) := .step .dispose shown
  obtain ⟨-, -, locks, -⟩ := shown.flags_final [turnBack]
  obtain ⟨-, -, -, closes⟩ := stored.flags_final [turnOver, .setChannel .log]
  obtain ⟨locked, value⟩ := locks rfl
  exact ⟨a, _, shown, stored, locked, value, rfl, (closes rfl).1⟩

end Container

end EntropySeal
