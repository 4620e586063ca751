import EntropySeal.Pool.Stored
import EntropySeal.Source.Jitter

/-!
# Origins of bytes

An origin is a source as a state machine over its machine: each request
answers with a delivery and the origin after it.  The origins with entropy are
the random bytes of the operating system, scheduling jitter and a persisted
pool; the others give bytes laid down in advance, for diagnosis.

An `Assembly` is a machine with numbered origins.  Each number is a source
over the assembly, so several users of one source share its state.
-/

namespace EntropySeal

/-- A draw that was laid down in advance. -/
inductive ScriptedDraw where
  /-- These bytes, repeated to the size of the request. -/
  | bytes (pattern : Bytes)
  /-- A failure with this reason. -/
  | failure (reason : String)
  deriving DecidableEq

/-- Who asks for bytes. -/
inductive Requester where
  | foreground
  | background
  deriving DecidableEq, Repr

/-- A source with its state. -/
inductive Origin where
  /-- The same bytes for every request, repeating a pattern. -/
  | repeating (name : String) (pattern : Bytes)
  /-- A wrapping byte counter that goes on from request to request. -/
  | counter (name description : String) (next : UInt8)
  /-- The draws still to come. -/
  | scripted (name : String) (draws : List ScriptedDraw)
  /-- One counter for each kind of requester. -/
  | byRequester (name : String) (foreground background : UInt8)
  | system
  | jitter
  | pool (stored : StoredPool)

namespace Origin

/-- The origin that repeats a pattern. -/
def repeat? (name : String) (pattern : Bytes) : Except Error Origin :=
  if pattern = [] then .error .emptyPattern else .ok (.repeating name pattern)

/-- The wrapping byte counter. -/
def sequence (name : String) (start : UInt8) : Origin :=
  counter name "wrapping byte counter" start

/-- What is known of an origin without drawing from it. -/
def info : Origin → SourceInfo
  | repeating name _ => ⟨name, "fixed byte pattern", .deterministic⟩
  | counter name description _ => ⟨name, description, .deterministic⟩
  | scripted name _ => ⟨name, "scripted draws", .deterministic⟩
  | byRequester name _ _ => ⟨name, "counters by role", .deterministic⟩
  | system =>
      ⟨"os_csprng", "Operating-system cryptographic random number generator", .system⟩
  | jitter => ⟨Jitter.name, "Thread create/join kernel scheduling jitter", .scheduling⟩
  | pool _ => StoredPool.info

variable {σ : Type} [Machine σ]

/-- Fill a buffer of `n` bytes. -/
def fill (requester : Requester) (origin : Origin) (n : Nat) : Action σ (Delivery × Origin) :=
  match origin with
  | repeating _ pattern => pure (⟨Bytes.cycle pattern n, none⟩, origin)
  | counter name description next =>
      pure (⟨Bytes.count next n, none⟩, counter name description (next + UInt8.ofNat n))
  | scripted name [] => pure (.failed (.sourceFailed name "script exhausted"), origin)
  | scripted name (.bytes pattern :: draws) =>
      pure (⟨Bytes.cycle pattern n, none⟩, scripted name draws)
  | scripted name (.failure reason :: draws) =>
      pure (.failed (.sourceFailed name reason), scripted name draws)
  | byRequester name foreground background =>
      match requester with
      | .foreground =>
          pure (⟨Bytes.count foreground n, none⟩,
            byRequester name (foreground + UInt8.ofNat n) background)
      | .background =>
          pure (⟨Bytes.count background n, none⟩,
            byRequester name foreground (background + UInt8.ofNat n))
  | system => do
      let result ← (Machine.randomFor system.info.name n).toAction
      pure (.ofExcept result, origin)
  | jitter => do
      let delivery ← Jitter.fill n
      pure (delivery, origin)
  | pool stored => do
      let (delivery, stored) ← stored.fill n
      pure (delivery, pool stored)

end Origin

/-- A machine with numbered origins. -/
structure Assembly (σ : Type) where
  machine : σ
  origins : List Origin
  requester : Requester := .foreground

namespace Assembly

variable {σ : Type} [Machine σ]

/-- Perform an action of the machine. -/
def onMachine {α : Type} (act : Action σ α) : Action (Assembly σ) α :=
  Action.focus Assembly.machine (fun machine a => { a with machine }) act

/-- Fill a buffer from an origin.  A number without an origin delivers nothing. -/
def fill (i : Nat) : Fill (Assembly σ) := fun n t =>
  match t.world.origins[i]? with
  | none => (⟨[], none⟩, t)
  | some origin =>
      let ((delivery, next), m) := origin.fill t.world.requester n ⟨t.world.machine, t.events⟩
      (delivery,
        ⟨{ t.world with machine := m.world, origins := t.world.origins.set i next }, m.events⟩)

/-- The source that an origin of the assembly is. -/
def source (a : Assembly σ) (i : Nat) (h : i < a.origins.length) : Source (Assembly σ) where
  info := (a.origins.get ⟨i, h⟩).info
  fill := fill i

/-- Let requests come from the background, or no longer. -/
def request (requester : Requester) : Action (Assembly σ) Unit :=
  Action.change fun a => { a with requester }

end Assembly

end EntropySeal
