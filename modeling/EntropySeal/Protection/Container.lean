import EntropySeal.Protection.Detector

/-!
# Protected containers

A container holds a value behind a detector.  Every access first checks the
value; every change through the container is checked before and becomes the
new baseline after.  What changes the value in any other way is an injection,
and shows at the next access.

Making a container read-only and disposing it are final.  A disposed container
holds no value.
-/

namespace EntropySeal

/-- A value behind a detector. -/
structure Container (α : Type) where
  value : Option α
  detector : Detector
  mode : ProtectionMode
  readOnly : Bool := false
  disposed : Bool := false

/-- What an operation did: its answer, the container after it, the alerts it
raised with the channels that took them, and what it logged. -/
structure Outcome (γ β : Type) where
  result : Except Error β
  next : γ
  raised : List (Channel × Alert) := []
  events : List Event := []

/-- A change of a value. -/
structure Change (α : Type) where
  apply : α → α
  /-- The change also makes its container read-only. -/
  locks : Bool := false

namespace Container

variable {α β : Type} [Protectable α]

/-- The error of using a container after its disposal. -/
def gone : Error :=
  .disposed .container

variable (α) in
/-- Dictionaries cannot be protected in a mode that scans code. -/
def ensureSupported (mode : ProtectionMode) : Except Error Unit :=
  let info := Protectable.info α
  if mode.scansCode && info.isDictionary then .error (.dictionaryMode info.name mode) else .ok ()

/-- Put a value into a container and accept it. -/
def make (value : α) (mode : ProtectionMode) (channel : Channel) :
    Except Error (Container α) := do
  ensureSupported α mode
  match Detector.notify ⟨mode.scansState, mode.scansCode, channel, none, none⟩ value with
  | (.error e, _) => throw e
  | (.ok (), detector) => pure { value := some value, detector, mode }

/-- Put a value into a container in the usual mode, alerts going to the log. -/
def protect (value : α) : Except Error (Container α) :=
  make value default default

/-! ## Access -/

/-- The value, unless the container was disposed. -/
def live (c : Container α) : Except Error α :=
  if c.disposed then .error gone
  else
    match c.value with
    | none => .error gone
    | some v => .ok v

/-- Check the value and hand it to a function. -/
def withValue (c : Container α) (f : α → β) : Outcome (Container α) β :=
  match c.live with
  | .error e => { result := .error e, next := c }
  | .ok v =>
      let checked := c.detector.check v
      { result := checked.result.map fun _ => f v
        next := c
        raised := checked.alert.toList.map (c.detector.channel, ·)
        events := c.detector.checkEvents checked }

/-- Check the value and copy it. -/
def read (c : Container α) : Outcome (Container α) α :=
  c.withValue id

/-! ## Changes -/

/-- Check the value, change it, and accept it as it is then. -/
def applyChanges (c : Container α) (change : Change α) : Outcome (Container α) Unit :=
  if c.readOnly then { result := .error .readOnly, next := c }
  else
    match c.live with
    | .error e => { result := .error e, next := c }
    | .ok v =>
        let checked := c.detector.check v
        let raised := checked.alert.toList.map (c.detector.channel, ·)
        let events := c.detector.checkEvents checked
        match checked.result with
        | .error e => { result := .error e, next := c, raised, events }
        | .ok () =>
            let changed := change.apply v
            let (result, detector) := c.detector.notify changed
            { result
              next := { c with
                value := some changed
                detector
                readOnly := c.readOnly || change.locks }
              raised, events }

/-- Protect in another mode.  A dimension that comes to be scanned accepts the
value as it is. -/
def setMode (c : Container α) (mode : ProtectionMode) : Outcome (Container α) Unit :=
  match ensureSupported α mode with
  | .error e => { result := .error e, next := c }
  | .ok () =>
      if c.disposed then { result := .error gone, next := c }
      else if c.mode = mode then { result := .ok (), next := c }
      else
        match c.live with
        | .error e => { result := .error e, next := c }
        | .ok v =>
            let state := mode.scansState && !c.mode.scansState
            let code := mode.scansCode && !c.mode.scansCode
            match c.detector.notifyIn state code v with
            | (.error e, detector) => { result := .error e, next := { c with detector } }
            | (.ok (), detector) =>
                { result := .ok ()
                  next := { c with
                    detector := detector.setScanning mode.scansState mode.scansCode
                    mode }
                  events := [.modeChanged (Protectable.info α).name c.mode mode] }

/-- Send alerts elsewhere. -/
def setChannel (c : Container α) (channel : Channel) : Container α :=
  { c with detector := c.detector.setChannel channel }

/-- Forbid all further changes. -/
def makeReadOnly (c : Container α) : Container α :=
  { c with readOnly := true }

/-- Give the value up. -/
def dispose (c : Container α) : Container α :=
  if c.disposed then c else { c with disposed := true, value := none }

/-- Change the value behind the container's back. -/
def tamper (c : Container α) (f : α → α) : Container α :=
  { c with value := c.value.map f }

end Container

end EntropySeal
