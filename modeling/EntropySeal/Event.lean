import EntropySeal.Error

/-!
# Logged events

What the library reports while it works, beside its results.  Every event is
one constructor with its data, and has a level and a text.
-/

namespace EntropySeal

/-- How much an event matters. -/
inductive Level where
  | debug
  | info
  | warn
  | error
  deriving DecidableEq, Repr

/-- The name of a level. -/
def Level.label : Level → String
  | debug => "DEBUG"
  | info => "INFO"
  | warn => "WARN"
  | error => "ERROR"

/-- Everything that is reported. -/
inductive Event where
  /-- A pool and its position were written to its file. -/
  | poolPersisted (path : String) (position : Nat)
  | poolCreated (path : String)
  /-- A pool file was refused. -/
  | poolRejected (path : String) (cause : Error)
  /-- Two intermediate arrays of one round are equal. -/
  | crossCheckFailed (first second : Nat)
  | slowDisposed
  | fastDisposed
  /-- A reseed took effect after this many blocks. -/
  | reseeded (blocks : UInt64)
  /-- A background reseed took effect after this many blocks. -/
  | reseededInBackground (blocks : UInt64)
  /-- A background reseed failed after its generator was disposed. -/
  | reseedAbandoned (cause : Error)
  | reseedFailed (cause : Error)
  | contextReady (sources : Nat) (mode : ProtectionMode)
  | modeChanged (typeName : String) (previous next : ProtectionMode)
  | alerted (alert : Alert)
  | configLoaded (path : String)
  deriving DecidableEq, Repr

namespace Event

/-- How much an event matters. -/
def level : Event → Level
  | poolRejected .. | crossCheckFailed .. | alerted _ => .warn
  | reseedFailed _ => .error
  | poolPersisted .. | poolCreated _ | slowDisposed | fastDisposed | reseeded _
  | reseededInBackground _ | reseedAbandoned _ | contextReady .. | modeChanged ..
  | configLoaded _ => .debug

/-- The text of an event. -/
def text : Event → String
  | poolPersisted path position => s!"persisted entropy pool {path} (position {position})"
  | poolCreated path => s!"created entropy pool at {path}"
  | poolRejected path cause => s!"entropy pool {path} rejected: {cause.message}"
  | crossCheckFailed first second =>
      s!"entropy cross-check failed: intermediate arrays {first} and {second} are identical"
  | slowDisposed => "slow random generator disposed"
  | fastDisposed => "fast random generator disposed"
  | reseeded blocks => s!"fast random generator reseeded after {blocks.toNat} blocks"
  | reseededInBackground blocks =>
      s!"fast random generator reseeded in background after {blocks.toNat} blocks"
  | reseedAbandoned cause =>
      s!"background reseed abandoned, generator disposed: {cause.message}"
  | reseedFailed cause => s!"background reseed failed: {cause.message}"
  | contextReady sources mode =>
      s!"security context ready: {sources} entropy sources, protection {mode.label}"
  | modeChanged typeName previous next =>
      s!"{typeName} protection {previous.label} -> {next.label}"
  | alerted alert => alert.message
  | configLoaded path => s!"loaded configuration from {path}"

/-- The line that a log shows for an event. -/
def line (e : Event) : String :=
  s!"{e.level.label}: {e.text}"

end Event

end EntropySeal
