import EntropySeal.Effect
import EntropySeal.FileStore

/-!
# The machine underneath

The sources of entropy and the persisted pool see the machine only through the
class `Machine`: random bytes of the operating system, the durations of short
threads, the clock, the user, and files.  `Workstation` is a machine held in
memory, whose random bytes and durations are given sequences.
-/

namespace EntropySeal

/-- Whose pool files a machine can read. -/
structure User where
  name : String
  home : String
  deriving DecidableEq

/-- The user whom variables of the environment name.  Each of two variables
counts only where the one before it is not set. -/
def User.ofEnvironment (lookup : String → Option String) : User where
  name := (lookup "USER").getD ((lookup "USERNAME").getD "")
  home := (lookup "HOME").getD ((lookup "USERPROFILE").getD "")

/-- What the library needs of the world it runs in. -/
class Machine (σ : Type) where
  /-- Random bytes of the operating system, or its reason for giving none. -/
  random : Nat → σ → Except String Bytes × σ
  /-- How many nanoseconds each of so many short threads took. -/
  durations : Nat → σ → List UInt64 × σ
  /-- Nanoseconds of the wall clock. -/
  now : σ → Nat × σ
  user : σ → User
  /-- The absolute form of a path. -/
  absolute : String → σ → Except IoFault String
  /-- The path names something. -/
  contains : String → σ → Bool
  readFile : String → σ → Except IoFault Bytes
  /-- Replace a whole file, or change nothing. -/
  replaceFile : String → Bytes → σ → Except IoFault Unit × σ
  /-- Write a file in place. -/
  writeFile : String → Bytes → σ → Except IoFault Unit × σ

namespace Machine

variable {σ : Type} [Machine σ]

/-- Replace a whole file, as an attempt. -/
def persist (path : String) (content : Bytes) : Attempt σ Unit :=
  Attempt.ofAction do
    let result ← Action.step (Machine.replaceFile path content)
    pure (result.mapError Error.io)

/-- Write a file in place, as an attempt. -/
def save (path : String) (content : Bytes) : Attempt σ Unit :=
  Attempt.ofAction do
    let result ← Action.step (Machine.writeFile path content)
    pure (result.mapError Error.io)

/-- The content of a file, as an attempt. -/
def load (path : String) : Attempt σ Bytes :=
  Attempt.ofAction do
    let result ← Action.look (Machine.readFile path)
    pure (result.mapError Error.io)

/-- The absolute form of a path, as an attempt. -/
def resolve (path : String) : Attempt σ String :=
  Attempt.ofAction do
    let result ← Action.look (Machine.absolute path)
    pure (result.mapError Error.io)

/-- Random bytes of the operating system for the source of the given name. -/
def randomFor (source : String) (n : Nat) : Attempt σ Bytes :=
  Attempt.ofAction do
    let result ← Action.step (Machine.random n)
    pure (result.mapError fun reason => .sourceFailed source reason)

end Machine

/-! ## A machine in memory -/

/-- Random bytes still to be given. -/
structure RandomBytes where
  /-- The byte at each position of the sequence. -/
  byte : Nat → UInt8
  /-- How many were given. -/
  given : Nat := 0
  /-- How many more requests are met; without a number, all are. -/
  requests : Option Nat := none

/-- The reason given when a request for random bytes is not met. -/
def RandomBytes.refusal : String :=
  "getrandom: this target is not supported"

/-- Take `n` bytes.  Taking none always succeeds and is no request. -/
def RandomBytes.take (n : Nat) (r : RandomBytes) : Except String Bytes × RandomBytes :=
  if n = 0 then (.ok [], r)
  else if r.requests = some 0 then (.error refusal, r)
  else
    (.ok ((List.range n).map fun i => r.byte (r.given + i)),
      { r with given := r.given + n, requests := r.requests.map (· - 1) })

/-- A machine held in memory. -/
structure Workstation where
  randomBytes : RandomBytes
  /-- The duration of each short thread in turn. -/
  duration : Nat → UInt64
  /-- Short threads run so far. -/
  threads : Nat := 0
  clock : Nat := 0
  user : User
  files : FileStore

namespace Workstation

/-- Change the files where that succeeds. -/
def changeFiles (m : Workstation) (f : FileStore → Except IoFault FileStore) :
    Except IoFault Unit × Workstation :=
  match f m.files with
  | .ok files => (.ok (), { m with files })
  | .error e => (.error e, m)

instance : Machine Workstation where
  random n m :=
    let (result, randomBytes) := m.randomBytes.take n
    (result, { m with randomBytes })
  durations n m :=
    ((List.range n).map fun i => m.duration (m.threads + i), { m with threads := m.threads + n })
  now m := (m.clock, { m with clock := m.clock + 1 })
  user m := m.user
  absolute path m := m.files.absolute path
  contains path m := m.files.contains path
  readFile path m := m.files.read path
  replaceFile path content m := m.changeFiles (·.replace path content)
  writeFile path content m := m.changeFiles (·.write path content)

end Workstation

end EntropySeal
