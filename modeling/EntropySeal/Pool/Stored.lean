import EntropySeal.Pool.State
import EntropySeal.Machine
import EntropySeal.Source

/-!
# Pools kept in files

A stored pool is a pool, the path of its file and the key it is masked with.
Every draw and every stirring first changes the pool in memory and then
replaces the file.  A failure to replace it is reported, and the pool in
memory stays changed.

Opening a file stirs in fresh random bytes and the time, so two copies of one
file part ways at once.
-/

namespace EntropySeal

open Pool (State)

/-- A pool with the place it is kept in. -/
structure StoredPool where
  path : String
  key : Bytes
  state : State

namespace StoredPool

/-- The name of the source. -/
def name : String := "persisted_pool"

/-- What is known of the source. -/
def info : SourceInfo :=
  ⟨name, "Entropy pool persisted on disk between runs", .persisted⟩

/-- Random bytes stirred in when a file is opened. -/
def freshSize : Nat := 64

/-- Bytes of the time stirred in when a file is opened. -/
def clockWidth : Nat := 16

/-- The content of the file for a pool. -/
def content (p : StoredPool) : Bytes :=
  Pool.mask p.key (Pool.encode p.state)

variable {σ : Type} [Machine σ]

/-- The key of the machine's user for a path. -/
def keyFor (path : String) : Action σ Bytes :=
  Action.look fun world =>
    let user := Machine.user world
    Pool.userKey user.name user.home path

/-- Replace the file. -/
def persist (p : StoredPool) : Attempt σ Unit := do
  Machine.persist p.path p.content
  Attempt.log (.poolPersisted p.path p.state.position)

/-- Change the pool in memory and then its file. -/
def update (p : StoredPool) (next : State) : Action σ (Except Error Unit × StoredPool) := do
  let p := { p with state := next }
  let result ← (p.persist).toAction
  pure (result, p)

/-- Mix material into the whole pool. -/
def stir (p : StoredPool) (material : Bytes) : Action σ (Except Error Unit × StoredPool) :=
  p.update (p.state.stir material)

/-- Mix material in where nothing is kept on failure. -/
def stirred (p : StoredPool) (material : Bytes) : Attempt σ StoredPool :=
  Attempt.ofAction do
    let (result, p) ← p.stir material
    pure (result.map fun _ => p)

/-- A fresh pool of random bytes at a path, whatever is there. -/
def create (path : String) : Attempt σ StoredPool := do
  let path ← Machine.resolve path
  let bytes ← Machine.randomFor name Pool.poolSize
  let key ← Attempt.always (keyFor path)
  let p : StoredPool := ⟨path, key, ⟨0, bytes⟩⟩
  p.persist
  Attempt.log (.poolCreated path)
  pure p

/-- The pool that the file at a path holds, stirred. -/
def load (path : String) : Attempt σ StoredPool := do
  let path ← Machine.resolve path
  let key ← Attempt.always (keyFor path)
  let content ← Machine.load path
  match Pool.decode (Pool.mask key content) with
  | .error fault => do
      Attempt.log (.poolRejected path (.corruptPool fault))
      throw (.corruptPool fault)
  | .ok state => do
      let fresh ← Machine.randomFor name freshSize
      let now ← Attempt.always (Action.step Machine.now)
      let p : StoredPool := ⟨path, key, state⟩
      let p ← p.stirred fresh
      p.stirred (Bytes.toLe clockWidth now)

/-- The pool at a path, made if nothing is there. -/
def openOrCreate (path : String) : Attempt σ StoredPool := do
  let present ← Attempt.always (Action.look (Machine.contains path))
  if present then load path else create path

/-- Draw `n` bytes.  A request for nothing touches neither pool nor file. -/
def fill (p : StoredPool) (n : Nat) : Action σ (Delivery × StoredPool) :=
  if n = 0 then pure (⟨[], none⟩, p)
  else do
    let (bytes, next) := p.state.take n
    let (result, p) ← p.update next
    match result with
    | .ok () => pure (⟨bytes, none⟩, p)
    | .error e => pure (⟨bytes, some e⟩, p)

end StoredPool

end EntropySeal
