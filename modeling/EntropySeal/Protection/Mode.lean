/-!
# Protection modes and injection kinds

A protected value is scanned in up to two dimensions, its state and the code
of its type.  A mode says which dimensions are scanned, and a mismatch in a
nonempty set of dimensions is an injection of the corresponding kind.
-/

namespace EntropySeal

/-- Which dimensions of a protected value are scanned. -/
inductive ProtectionMode where
  | stateAndCode
  | justState
  | justCode
  | noProtection
  deriving DecidableEq, Repr

namespace ProtectionMode

/-- The mode used when none is chosen. -/
instance : Inhabited ProtectionMode := ⟨stateAndCode⟩

/-- The mode compares the value's state. -/
def scansState : ProtectionMode → Bool
  | stateAndCode | justState => true
  | justCode | noProtection => false

/-- The mode compares the code of the value's type. -/
def scansCode : ProtectionMode → Bool
  | stateAndCode | justCode => true
  | justState | noProtection => false

/-- Every mode, in order. -/
def all : List ProtectionMode :=
  [stateAndCode, justState, justCode, noProtection]

/-- The name used in messages. -/
def label : ProtectionMode → String
  | stateAndCode => "StateAndCode"
  | justState => "JustState"
  | justCode => "JustCode"
  | noProtection => "NoProtection"

/-- The name used in configuration files. -/
def key : ProtectionMode → String
  | stateAndCode => "state_and_code"
  | justState => "just_state"
  | justCode => "just_code"
  | noProtection => "no_protection"

/-- The mode with a given configuration name. -/
def ofKey? (name : String) : Option ProtectionMode :=
  all.find? fun mode => mode.key == name

end ProtectionMode

/-- Which dimensions failed to match. -/
inductive InjectionKind where
  | state
  | code
  | codeAndState
  deriving DecidableEq, Repr

namespace InjectionKind

/-- The kind for a pair of mismatches, if there is any. -/
def ofMismatch? (state code : Bool) : Option InjectionKind :=
  match state, code with
  | true, true => some .codeAndState
  | true, false => some .state
  | false, true => some .code
  | false, false => none

/-- The words used in messages. -/
def words : InjectionKind → String
  | state => "state"
  | code => "code"
  | codeAndState => "code and state"

/-- The name used when alerts are listed. -/
def label : InjectionKind → String
  | state => "StateInjection"
  | code => "CodeInjection"
  | codeAndState => "CodeAndStateInjection"

end InjectionKind

/-- An injection found in a value of the named type. -/
structure Alert where
  kind : InjectionKind
  typeName : String
  deriving DecidableEq, Repr

/-- The text of an alert. -/
def Alert.message (a : Alert) : String :=
  s!"{a.kind.words} injection detected in {a.typeName}"

end EntropySeal
