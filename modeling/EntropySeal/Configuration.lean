import EntropySeal.Generator.Policy
import EntropySeal.Json.Reader
import EntropySeal.Json.Writer
import EntropySeal.Machine
import EntropySeal.Protection.Detector

/-!
# Configurations

What can be set from outside: when the fast generator is reseeded, how values
are protected, and where a persisted pool is kept.  A configuration is written
as a JSON object and read from one; whatever is left out has its default.
A configuration that is read has a policy that makes sense.
-/

namespace EntropySeal

/-- Where alerts go, as far as it can be set from outside. -/
inductive AlertKind where
  | suppressed
  | log
  | raise
  deriving DecidableEq, Repr

namespace AlertKind

instance : Inhabited AlertKind := ⟨log⟩

/-- The channel that is meant. -/
def channel : AlertKind → Channel
  | suppressed => .suppressed
  | log => .log
  | raise => .raise

/-- Every kind, in order. -/
def all : List AlertKind :=
  [suppressed, log, raise]

/-- The name used in configuration files. -/
def key : AlertKind → String
  | suppressed => "suppressed"
  | log => "log"
  | raise => "raise"

/-- The kind with a given configuration name. -/
def ofKey? (name : String) : Option AlertKind :=
  all.find? fun kind => kind.key == name

theorem ofKey?_key (kind : AlertKind) : ofKey? kind.key = some kind := by
  cases kind <;> decide

end AlertKind

/-- How values are protected unless something else is asked for. -/
structure ProtectionDefaults where
  mode : ProtectionMode := default
  alert : AlertKind := default
  deriving DecidableEq, Repr

/-- All that can be set from outside. -/
structure Configuration where
  reseed : ReseedPolicy := {}
  protection : ProtectionDefaults := {}
  /-- The file of a persisted pool that joins the sources. -/
  entropyPool : Option String := none
  deriving DecidableEq, Repr

namespace Configuration

open Json (Document RecordField Reader)

/-! ## Writing -/

/-- A value that may be absent. -/
def optional {α : Type} (write : α → Document) : Option α → Document
  | none => .null
  | some v => write v

/-- A policy as an object. -/
def reseedDocument (p : ReseedPolicy) : Document :=
  .object [
    ("soft_threshold", .number p.soft.toNat),
    ("hard_threshold", .number p.hard.toNat),
    ("seed_size_bytes", optional (fun n => .number n.toNat) p.seedSize)]

/-- Protection defaults as an object. -/
def protectionDocument (p : ProtectionDefaults) : Document :=
  .object [("mode", .text p.mode.key), ("alert", .text p.alert.key)]

/-- A configuration as an object. -/
def document (c : Configuration) : Document :=
  .object [
    ("reseed", reseedDocument c.reseed),
    ("protection", protectionDocument c.protection),
    ("entropy_pool", optional .text c.entropyPool)]

/-- A configuration as a text. -/
def toJson (c : Configuration) : String :=
  c.document.toText

/-! ## Reading -/

/-- The fields of a policy. -/
def reseedFields : List (RecordField ReseedPolicy) := [
  .of "soft_threshold" Json.word fun soft p => { p with soft },
  .of "hard_threshold" Json.word fun hard p => { p with hard },
  .of "seed_size_bytes" (Json.optional Json.word) fun seedSize p => { p with seedSize }]

/-- The fields of protection defaults. -/
def protectionFields : List (RecordField ProtectionDefaults) := [
  .of "mode" (Json.variant ProtectionMode.ofKey?) fun mode p => { p with mode },
  .of "alert" (Json.variant AlertKind.ofKey?) fun alert p => { p with alert }]

/-- The fields of a configuration. -/
def fields : List (RecordField Configuration) := [
  .of "reseed" (Json.record reseedFields {}) fun reseed c => { c with reseed },
  .of "protection" (Json.record protectionFields {}) fun protection c => { c with protection },
  .of "entropy_pool" (Json.optional Json.text) fun entropyPool c => { c with entropyPool }]

/-- A configuration as a record. -/
def reader : Reader Configuration :=
  Json.record fields {}

/-- The configuration of a text, whether or not it makes sense. -/
def parse (text : String) : Except Error Configuration :=
  (Json.readWhole reader text).mapError Error.configText

/-- The configuration of a text that makes sense. -/
def ofJson (text : String) : Except Error Configuration := do
  let c ← parse text
  c.reseed.validate
  pure c

/-- What is read makes sense. -/
theorem validate_of_ofJson {text : String} {c : Configuration} (h : ofJson text = .ok c) :
    c.reseed.validate = .ok () := by
  unfold ofJson at h
  cases read : parse text with
  | error e => simp [read, bind, Except.bind] at h
  | ok d =>
      cases valid : d.reseed.validate with
      | error e => simp [read, valid, bind, Except.bind] at h
      | ok u =>
          simp [read, valid, bind, Except.bind, pure, Except.pure] at h
          rw [← h, valid]

/-- The configuration in the file at a path. -/
def load {σ : Type} [Machine σ] (path : String) : Attempt σ Configuration := do
  let content ← Machine.load path
  match Bytes.toText? content with
  | none => throw (.io .notText)
  | some text => ExceptT.mk (pure (ofJson text))

end Configuration

end EntropySeal
