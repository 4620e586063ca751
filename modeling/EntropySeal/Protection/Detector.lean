import EntropySeal.Event
import EntropySeal.Value.Stamp

/-!
# Injection detectors

A detector keeps baselines, the last stamps that were accepted, for each
dimension.  A check compares a value with the baselines of the dimensions that
are scanned; a missing baseline matches nothing.  A mismatch is an alert, and a
channel says where alerts go.  Only the raising channel makes the check fail.
-/

namespace EntropySeal

/-- Where alerts go. -/
inductive Channel where
  /-- Nowhere. -/
  | suppressed
  /-- Into the log. -/
  | log
  /-- Back to the caller, as an error. -/
  | raise
  /-- To a receiver of the caller's own. -/
  | sink
  deriving DecidableEq, Repr

namespace Channel

/-- The channel used when none is chosen. -/
instance : Inhabited Channel := ⟨log⟩

/-- Alerts go somewhere. -/
def isAlerting : Channel → Bool
  | suppressed => false
  | log | raise | sink => true

/-- What a delivered alert logs. -/
def events (alert : Alert) : Channel → List Event
  | log => [.alerted alert]
  | suppressed | raise | sink => []

/-- What a delivered alert answers the caller. -/
def answer (alert : Alert) : Channel → Except Error Unit
  | raise => .error (.injection alert)
  | suppressed | log | sink => .ok ()

/-- The channel as shown to people. -/
def summary : Channel → String
  | suppressed => "Suppressed"
  | log => "Log"
  | raise => "Raise"
  | sink => "Sink(..)"

end Channel

/-- Baselines, what is scanned, and where alerts go. -/
structure Detector where
  scanState : Bool
  scanCode : Bool
  channel : Channel
  lastState : Option Stamp := none
  lastCode : Option Stamp := none
  deriving DecidableEq

/-- What came of a check. -/
structure Checked where
  /-- The alert that was raised, if any. -/
  alert : Option Alert
  result : Except Error Unit

namespace Detector

variable {α : Type} [Protectable α]

/-- Some dimension is scanned, and alerts go somewhere. -/
def canAlert (d : Detector) : Bool :=
  (d.scanState || d.scanCode) && d.channel.isAlerting

/-- Scan other dimensions.  Their baselines stay what they are. -/
def setScanning (d : Detector) (state code : Bool) : Detector :=
  { d with scanState := state, scanCode := code }

/-- Send alerts elsewhere. -/
def setChannel (d : Detector) (channel : Channel) : Detector :=
  { d with channel }

/-! ## Baselines -/

/-- Accept the state of a value. -/
def notifyState (d : Detector) (v : α) : Except Error Unit × Detector :=
  match Protectable.stateStamp v with
  | .ok stamp => (.ok (), { d with lastState := some stamp })
  | .error e => (.error e, d)

variable (α) in
/-- Accept the code of a type. -/
def notifyCode (d : Detector) : Except Error Unit × Detector :=
  match Protectable.codeStamp α with
  | .ok stamp => (.ok (), { d with lastCode := some stamp })
  | .error e => (.error e, d)

/-- Accept a value in every dimension of a given set, its state first. -/
def notifyIn (d : Detector) (state code : Bool) (v : α) : Except Error Unit × Detector :=
  match if state then d.notifyState v else (.ok (), d) with
  | (.error e, d) => (.error e, d)
  | (.ok (), d) => if code then d.notifyCode α else (.ok (), d)

/-- Accept a value in every scanned dimension. -/
def notify (d : Detector) (v : α) : Except Error Unit × Detector :=
  d.notifyIn d.scanState d.scanCode v

/-! ## Checks -/

/-- Whether a stamp differs from a baseline, where the dimension is scanned. -/
def differs (scanned : Bool) (baseline : Option Stamp) (stamp : Except Error Stamp) :
    Except Error Bool :=
  if scanned then stamp.map fun s => baseline ≠ some s else .ok false

/-- The injection that a value shows. -/
def find (d : Detector) (v : α) : Except Error (Option InjectionKind) :=
  if d.canAlert then do
    let state ← differs d.scanState d.lastState (Protectable.stateStamp v)
    let code ← differs d.scanCode d.lastCode (Protectable.codeStamp α)
    pure (InjectionKind.ofMismatch? state code)
  else .ok none

/-- Compare a value with the baselines and deliver the alert, if there is one. -/
def check (d : Detector) (v : α) : Checked :=
  match d.find v with
  | .error e => ⟨none, .error e⟩
  | .ok none => ⟨none, .ok ()⟩
  | .ok (some kind) =>
      let alert : Alert := ⟨kind, (Protectable.info α).name⟩
      ⟨some alert, d.channel.answer alert⟩

/-- What a check logs. -/
def checkEvents (d : Detector) (c : Checked) : List Event :=
  match c.alert with
  | none => []
  | some alert => d.channel.events alert

/-- A baseline as shown to people. -/
def baselineSummary : Option Stamp → String
  | none => "None"
  | some stamp => "Some(" ++ stamp.summary ++ ")"

/-- A truth value as shown to people. -/
def flagSummary (b : Bool) : String :=
  if b then "true" else "false"

/-- The whole detector as shown to people. -/
def summary (d : Detector) : String :=
  let field (name value : String) : String := name ++ ": " ++ value
  let fields := [
    field "scan_state" (flagSummary d.scanState),
    field "scan_code" (flagSummary d.scanCode),
    field "channel" d.channel.summary,
    field "last_state" (baselineSummary d.lastState),
    field "last_code" (baselineSummary d.lastCode)]
  "InjectionDetector \x7b " ++ ", ".intercalate fields ++ " \x7d"

end Detector

end EntropySeal
