import EntropySeal.Bytes
import EntropySeal.Event

/-!
# Worlds, actions and deliveries

Everything that changes is a value.  An action over a world `σ` is a state
transformer of the world together with the events logged so far; an attempt is
an action that may fail and keeps what it changed before it failed.

A request for bytes answers with a `Delivery`: the bytes written from the
start of the caller's buffer and the failure that stopped it, if any.
-/

namespace EntropySeal

/-- A world with the events logged in it, oldest first. -/
structure Traced (σ : Type) where
  world : σ
  events : List Event := []

/-- A step of a logged world with an answer. -/
abbrev Action (σ α : Type) : Type :=
  StateM (Traced σ) α

/-- An action that may fail; what it changed before it failed stays changed. -/
abbrev Attempt (σ α : Type) : Type :=
  ExceptT Error (StateM (Traced σ)) α

namespace Action

variable {σ τ α : Type}

/-- Log one event. -/
def log (e : Event) : Action σ Unit :=
  fun t => ((), { t with events := t.events ++ [e] })

/-- Apply a step of the world that logs nothing. -/
def step (f : σ → α × σ) : Action σ α :=
  fun t => let (a, world) := f t.world; (a, { t with world })

/-- Look at the world. -/
def look (f : σ → α) : Action σ α :=
  step fun world => (f world, world)

/-- Change the world. -/
def change (f : σ → σ) : Action σ Unit :=
  step fun world => ((), f world)

/-- Run an action on the part of a larger world. -/
def focus (get : τ → σ) (set : σ → τ → τ) (act : Action σ α) : Action τ α :=
  fun t =>
    let (a, next) := act ⟨get t.world, t.events⟩
    (a, ⟨set next.world t.world, next.events⟩)

/-- Run an action on a larger world made around this one, of which this one
keeps its part. -/
def around (enlarge : σ → τ) (part : τ → σ) (act : Action τ α) : Action σ (α × τ) :=
  fun t =>
    let (a, next) := act ⟨enlarge t.world, t.events⟩
    ((a, next.world), ⟨part next.world, next.events⟩)

end Action

namespace Attempt

variable {σ τ α : Type}

/-- The action that answers an attempt's result or failure. -/
def toAction (act : Attempt σ α) : Action σ (Except Error α) :=
  act.run

/-- The attempt that fails where an action answers a failure. -/
def ofAction (act : Action σ (Except Error α)) : Attempt σ α :=
  ExceptT.mk act

/-- The attempt that performs an action, which cannot fail. -/
def always (act : Action σ α) : Attempt σ α :=
  ExceptT.lift act

/-- Log one event. -/
def log (e : Event) : Attempt σ Unit :=
  always (Action.log e)

/-- Run an attempt on the part of a larger world. -/
def focus (get : τ → σ) (set : σ → τ → τ) (act : Attempt σ α) : Attempt τ α :=
  ExceptT.mk (Action.focus get set act.run)

/-- Run an attempt on a larger world made around this one, of which this one
keeps its part. -/
def around (enlarge : σ → τ) (part : τ → σ) (act : Attempt τ α) : Attempt σ (α × τ) :=
  ofAction do
    let (result, world) ← Action.around enlarge part act.run
    pure (result.map fun a => (a, world))

end Attempt

/-- What a request for bytes brought. -/
structure Delivery where
  /-- The bytes written, from the start of the buffer. -/
  bytes : Bytes
  /-- The failure that stopped the request, if any. -/
  failure : Option Error := none
  deriving DecidableEq

namespace Delivery

/-- A request that failed before it wrote anything. -/
def failed (e : Error) : Delivery :=
  ⟨[], some e⟩

/-- The buffer after the request. -/
def writtenTo (d : Delivery) (buffer : Bytes) : Bytes :=
  (d.bytes ++ buffer.drop d.bytes.length).take buffer.length

@[simp]
theorem length_writtenTo (d : Delivery) (buffer : Bytes) :
    (d.writtenTo buffer).length = buffer.length := by
  simp [writtenTo]
  omega

/-- The bytes of a request that was met, or its failure. -/
def toExcept (d : Delivery) : Except Error Bytes :=
  match d.failure with
  | none => .ok d.bytes
  | some e => .error e

/-- The delivery of a result that is all or nothing. -/
def ofExcept : Except Error Bytes → Delivery
  | .ok bytes => ⟨bytes, none⟩
  | .error e => failed e

@[simp]
theorem toExcept_ofExcept (r : Except Error Bytes) : (ofExcept r).toExcept = r := by
  cases r <;> rfl

end Delivery

/-- A generator of bytes over a world: given a size, it brings that many bytes
or fails. -/
abbrev Fill (σ : Type) : Type :=
  Nat → Action σ Delivery

end EntropySeal
