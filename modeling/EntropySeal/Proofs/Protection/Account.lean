import EntropySeal.Protection.Container

/-!
# Accounts of a container

An account is kept by somebody who watches a container from outside: the mode
and the channel that were last set, and the value as it was when it was last
accepted.  It is drawn up from what was asked of the container and what was
answered, without a look at baselines or stamps.

A value is accepted when it is put into a container whose mode scans the state,
when a change succeeds in such a mode, and when the mode comes to scan the
state.  In between, anything may change the value behind the container's back.
-/

namespace EntropySeal

variable {α : Type}

/-- What can happen to a container. -/
inductive Operation (α : Type) where
  /-- The value is looked at. -/
  | access
  | change (change : Change α)
  | setMode (mode : ProtectionMode)
  | setChannel (channel : Channel)
  | makeReadOnly
  | dispose
  /-- The value changes behind the container's back. -/
  | tamper (f : α → α)

/-- What the watcher of a container knows. -/
structure Account (α : Type) where
  mode : ProtectionMode
  channel : Channel
  /-- The value that was last accepted. -/
  accepted : Option α := none

namespace Account

/-- The account of a container that was just made. -/
def opened (v : α) (mode : ProtectionMode) (channel : Channel) : Account α where
  mode
  channel
  accepted := if mode.scansState then some v else none

/-- The account after an operation with this answer, which left this value. -/
def after (a : Account α) (op : Operation α) (answer : Except Error Unit)
    (value : Option α) : Account α :=
  match op, answer with
  | .change _, .ok () =>
      { a with accepted := if a.mode.scansState then value else a.accepted }
  | .setMode mode, .ok () =>
      { a with
        mode
        accepted := if mode.scansState && !a.mode.scansState then value else a.accepted }
  | .setChannel channel, _ => { a with channel }
  | _, _ => a

variable [Protectable α]

/-- The stamp of the value that was last accepted. -/
def baseline (a : Account α) : Option Stamp :=
  a.accepted.bind fun v => (Protectable.stateStamp v).toOption

theorem baseline_of_accepted {a : Account α} {v : α} {stamp : Stamp}
    (accepted : a.accepted = some v) (stamped : Protectable.stateStamp v = .ok stamp) :
    a.baseline = some stamp := by
  simp [baseline, accepted, stamped, Except.toOption]

/-- The state of a value with this stamp must be alerted. -/
def Due (a : Account α) (stamp : Stamp) : Prop :=
  a.mode.scansState = true ∧ a.channel ≠ .suppressed ∧ a.baseline ≠ some stamp

instance (a : Account α) (stamp : Stamp) : Decidable (a.Due stamp) :=
  inferInstanceAs (Decidable (_ ∧ _ ∧ _))

end Account

namespace Container

variable [Protectable α]

/-- What an operation does to a container. -/
def perform (c : Container α) : Operation α → Outcome (Container α) Unit
  | .access => c.withValue fun _ => ()
  | .change change => c.applyChanges change
  | .setMode mode => c.setMode mode
  | .setChannel channel => { result := .ok (), next := c.setChannel channel }
  | .makeReadOnly => { result := .ok (), next := c.makeReadOnly }
  | .dispose => { result := .ok (), next := c.dispose }
  | .tamper f => { result := .ok (), next := c.tamper f }

/-- The value that an operation checks, if it gets so far. -/
def checked (c : Container α) : Operation α → Option α
  | .access => c.live.toOption
  | .change _ => if c.readOnly then none else c.live.toOption
  | _ => none

/-- A container that was made and went through some operations, with its
account. -/
inductive Watched : Container α → Account α → Prop where
  | made {v : α} {mode : ProtectionMode} {channel : Channel} {c : Container α} :
      make v mode channel = .ok c → Watched c (.opened v mode channel)
  | step {c : Container α} {a : Account α} (op : Operation α) :
      Watched c a → Watched (c.perform op).next
        (a.after op (c.perform op).result (c.perform op).next.value)

end Container

end EntropySeal
