import EntropySeal.Protection.Mode

/-!
# Errors

Every way in which an operation of the library can fail is one constructor of
`Error`, with the data of the cause.  The wording of all of them is in
`Error.message`, and `Error.family` sorts them into the families that callers
tell apart.
-/

namespace EntropySeal

/-- Why a file operation failed. -/
inductive IoFault where
  | notFound
  | alreadyExists
  | isADirectory
  | notADirectory
  | directoryNotEmpty
  | invalidFilename
  /-- The root, or a step up, cannot be replaced. -/
  | busy
  /-- A path holds a zero byte. -/
  | zeroInPath
  /-- The path is refused by the operation itself. -/
  | invalidArgument
  /-- An empty path cannot be made absolute. -/
  | emptyPath
  /-- Only regular files can be copied. -/
  | notAFile
  /-- A text file does not hold UTF-8. -/
  | notText
  deriving DecidableEq, Repr

/-- The text of a file fault. -/
def IoFault.message : IoFault → String
  | notFound => "No such file or directory (os error 2)"
  | alreadyExists => "File exists (os error 17)"
  | isADirectory => "Is a directory (os error 21)"
  | notADirectory => "Not a directory (os error 20)"
  | directoryNotEmpty => "Directory not empty (os error 39)"
  | invalidFilename => "File name too long (os error 36)"
  | busy => "Device or resource busy (os error 16)"
  | zeroInPath => "file name contained an unexpected NUL byte"
  | invalidArgument => "Invalid argument (os error 22)"
  | emptyPath => "cannot make an empty path absolute"
  | notAFile => "the source path is neither a regular file nor a symlink to a regular file"
  | notText => "stream did not contain valid UTF-8"

/-- Why a configuration text was refused. -/
inductive TextFault where
  /-- The text ends inside a value. -/
  | ended
  /-- The text is not of the notation's form. -/
  | malformed
  /-- The text is well formed, but a value does not fit its field. -/
  | mismatched
  deriving DecidableEq, Repr

/-- The text of a configuration fault. -/
def TextFault.message : TextFault → String
  | ended => "unexpected end of text"
  | malformed => "malformed text"
  | mismatched => "unexpected value"

/-- Why the content of a pool file was refused. -/
inductive RecordFault where
  | length
  | marker
  | checksum
  | position
  deriving DecidableEq, Repr

/-- The text of a pool fault. -/
def RecordFault.message : RecordFault → String
  | length => "unexpected record length"
  | marker => "bad position marker"
  | checksum => "checksum mismatch"
  | position => "position out of range"

/-- What can be disposed. -/
inductive Component where
  | slowGenerator
  | fastGenerator
  | container
  deriving DecidableEq, Repr

/-- The component as named in messages. -/
def Component.words : Component → String
  | slowGenerator => "slow random generator"
  | fastGenerator => "fast random generator"
  | container => "protected container"

/-- Every cause of failure. -/
inductive Error where
  /-- A source was paired with no digest at all. -/
  | noDigests (source : String)
  /-- A digest announces no bytes. -/
  | emptyDigest (digest : String)
  /-- A digest announces another size than the first digest of its source. -/
  | unequalDigest (digest : String) (size expected : Nat)
  /-- A digest returned an array of another size than it announced. -/
  | wrongDigest (digest : String) (size expected : Nat)
  /-- A slow generator needs a source. -/
  | noSources
  /-- A source is conditioned to another size than the first one. -/
  | unequalSource (source : String) (size expected : Nat)
  | softNotPositive
  | softNotBelowHard (soft hard : UInt64)
  | seedNotPositive
  /-- A range without an element. -/
  | emptyRange (least greatest : Int)
  /-- A caller's own complaint about an argument. -/
  | badArgument (reason : String)
  /-- Two intermediate arrays of one round are equal. -/
  | repeatedIntermediate (first second : Nat)
  | corruptPool (fault : RecordFault)
  | readOnly
  /-- The value of the type cannot be encoded. -/
  | notEncodable (typeName reason : String)
  /-- Dictionary types have no code stamp. -/
  | dictionaryCode (typeName : String)
  /-- The mode scans code, which dictionary types do not have. -/
  | dictionaryMode (typeName : String) (mode : ProtectionMode)
  | disposed (component : Component)
  | injection (alert : Alert)
  | sourceFailed (source reason : String)
  | io (fault : IoFault)
  | configText (fault : TextFault)
  /-- A repeating source was given nothing to repeat. -/
  | emptyPattern
  /-- A draw that cannot report failure failed. -/
  | infallibleDraw (cause : Error)
  /-- A digest returned no bytes where a block was read. -/
  | emptyBlock
  deriving DecidableEq, Repr

/-- The families of causes that callers tell apart. -/
inductive Error.Family where
  | invalidConfiguration
  | invalidArgument
  | cryptographicIntegrity
  | readOnlyViolation
  | unsupportedType
  | disposed
  | injectionDetected
  | sourceFailure
  | io
  | config
  /-- The operation did not return, because a precondition was broken. -/
  | abandoned
  deriving DecidableEq, Repr

namespace Error

/-- The family of a cause. -/
def family : Error → Family
  | noDigests _ | emptyDigest _ | unequalDigest .. | wrongDigest .. | noSources
  | unequalSource .. | softNotPositive | softNotBelowHard .. | seedNotPositive =>
      .invalidConfiguration
  | emptyRange .. | badArgument _ => .invalidArgument
  | repeatedIntermediate .. | corruptPool _ => .cryptographicIntegrity
  | readOnly => .readOnlyViolation
  | notEncodable .. | dictionaryCode _ | dictionaryMode .. => .unsupportedType
  | disposed _ => .disposed
  | injection _ => .injectionDetected
  | sourceFailed .. => .sourceFailure
  | io _ => .io
  | configText _ => .config
  | emptyPattern | infallibleDraw _ | emptyBlock => .abandoned

/-- What a cause says without the words of its family. -/
def detail : Error → String
  | noDigests source => s!"entropy hasher for `{source}` has no digest hashers"
  | emptyDigest digest => s!"digest hasher `{digest}` reports a zero digest size"
  | unequalDigest digest size expected =>
      s!"digest hasher `{digest}` produces {size} bytes, expected {expected}"
  | wrongDigest digest size expected =>
      s!"digest hasher `{digest}` returned {size} bytes, expected {expected}"
  | noSources => "slow random generator needs at least one entropy hasher"
  | unequalSource source size expected =>
      s!"entropy hasher for `{source}` uses {size}-byte digests, expected {expected}"
  | softNotPositive => "soft reseed threshold must be positive"
  | softNotBelowHard soft hard =>
      s!"soft reseed threshold {soft.toNat} must be below hard threshold {hard.toNat}"
  | seedNotPositive => "reseed size must be positive"
  | emptyRange least greatest => s!"empty range: min {least} > max {greatest}"
  | badArgument reason => reason
  | repeatedIntermediate first second =>
      s!"entropy intermediates {first} and {second} are identical; " ++
        "a source is stuck or duplicated"
  | corruptPool fault => s!"entropy pool: {fault.message}"
  | readOnly => "the protected value is read-only"
  | notEncodable _ reason => s!"not serialisable: {reason}"
  | dictionaryCode _ => "code protection of dictionary types is not supported"
  | dictionaryMode _ mode =>
      s!"{mode.label} requires code protection, which dictionaries do not support"
  | disposed component => component.words
  | injection alert => alert.message
  | sourceFailed _ reason => reason
  | io fault => fault.message
  | configText fault => fault.message
  | emptyPattern => "pattern must not be empty"
  | infallibleDraw cause => cause.detail
  | emptyBlock => "index out of bounds: the len is 0 but the index is 0"

/-- The text of an error. -/
def message : Error → String
  | e@(readOnly) | e@(io _) | e@(emptyPattern) | e@(emptyBlock) => e.detail
  | e@(notEncodable typeName _) | e@(dictionaryCode typeName)
  | e@(dictionaryMode typeName _) => s!"unsupported type `{typeName}`: {e.detail}"
  | e@(disposed _) => s!"{e.detail} has been disposed"
  | e@(injection _) => s!"injection detected: {e.detail}"
  | e@(sourceFailed source _) => s!"entropy source `{source}` failed: {e.detail}"
  | e@(configText _) => s!"configuration parse error: {e.detail}"
  | infallibleDraw cause => s!"fast random generator failed: {cause.message}"
  | e@(emptyRange ..) | e@(badArgument _) => s!"invalid argument: {e.detail}"
  | e@(repeatedIntermediate ..) | e@(corruptPool _) =>
      s!"cryptographic integrity failure: {e.detail}"
  | e => s!"invalid configuration: {e.detail}"

end Error

end EntropySeal
