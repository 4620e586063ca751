import EntropySeal.CommandLine.Run

/-!
# The program

The commands run on a machine in memory.  It is loaded from the machine the
program runs on: the user, the files that the command line leads to, random
bytes and the durations of threads.  Afterwards the files that changed are
written back.  A run that asks for more random bytes or durations than were
loaded leaves no trace, and is made again with more.
-/

namespace EntropySeal.CommandLine

/-- The paths that a command line leads to, before its configuration is read. -/
def Invocation.paths (i : Invocation) : List String :=
  i.config.toList ++ match i.command with
    | .initPool path _ => [path]
    | .inspectPool path => [path]
    | .bench _ output => output.toList
    | .sources _ | .bytes .. | .config => []

/-- A file and the directories that a path leads through. -/
def loadPath (working : List String) (path : String) : IO (List (List String × Node)) := do
  let directory ← IO.currentDir
  let parts := (FileStore.components path).filter (· ≠ ".")
  let parts := if FileStore.isAbsolute path then parts else working ++ parts
  let mut nodes := []
  for n in List.range parts.length do
    let place := parts.take (n + 1)
    let found := directory / FileStore.joined place
    if ← found.isDir then nodes := (place, .directory) :: nodes
    else if ← found.pathExists then
      nodes := (place, .file (← IO.FS.readBinFile found).toList) :: nodes
  pure nodes

/-- The pool that the configuration in a file asks for. -/
def poolPath (path : String) : IO (List String) := do
  let directory ← IO.currentDir
  try
    match Configuration.parse (← IO.FS.readFile (directory / path)) with
    | .ok c => pure c.entropyPool.toList
    | .error _ => pure []
  catch _ => pure []

/-- The files that a command line leads to. -/
def loadFiles (i : Invocation) : IO FileStore := do
  let working := FileStore.components (toString (← IO.currentDir))
  let pools ← i.config.toList.mapM poolPath
  let nodes ← (i.paths ++ pools.flatten).mapM (loadPath working)
  let here ← loadPath [] (FileStore.joined working)
  pure ⟨(here ++ nodes.flatten).eraseDups, working⟩

/-- The user of the machine. -/
def loadUser : IO User := do
  let names := ["USER", "USERNAME", "HOME", "USERPROFILE"]
  let values ← names.mapM fun name => do pure (name, ← IO.getEnv name)
  pure (.ofEnvironment fun name => (values.find? (·.1 == name)).bind (·.2))

/-- The durations of so many short threads, in nanoseconds. -/
def loadDurations (n : Nat) : IO (Array UInt64) := do
  let mut durations := #[]
  for _ in List.range n do
    let start ← IO.monoNanosNow
    let thread ← IO.asTask (pure ()) .dedicated
    let _ ← IO.wait thread
    let stop ← IO.monoNanosNow
    durations := durations.push (UInt64.ofNat (stop - start))
  pure durations

/-- Measurements with the clock of the machine the program runs on. -/
def laboratory : Laboratory Workstation (StateT (Traced (Workplace Workstation)) IO) where
  now := IO.monoNanosNow
  perform act t := IO.lazyPure fun _ => act t

/-- Run what was asked for on a machine in memory. -/
def runOn (words : List String) (machine : Workstation) : IO (Run × Workstation) :=
  match parse words with
  | .ok ⟨config, .bench n output⟩ =>
      match (makeContext config).run ⟨machine, []⟩ with
      | (.error e, t) => pure (.ofPrinted { failure := some e }, t.world)
      | (.ok (context, station), _) => do
          let (printed, t) ← (benchIn laboratory n output).run ⟨⟨context.fast, station⟩, []⟩
          pure (.ofPrinted printed, t.world.station.world.machine)
  | _ =>
      let (result, t) := run words ⟨machine, []⟩
      pure (result, t.world)

/-- Load a machine with so many random bytes and durations, and run on it.
Nothing is answered if they were not enough. -/
def tryRun (words : List String) (files : FileStore) (size : Nat) :
    IO (Option (Run × Workstation)) := do
  let random ← IO.getRandomBytes (USize.ofNat size)
  let durations ← loadDurations size
  let machine : Workstation := {
    randomBytes := { byte := fun i => random.data.getD i 0 }
    duration := fun i => durations.getD i 0
    clock := ← IO.monoNanosNow
    user := ← loadUser
    files }
  let (result, after) ← runOn words machine
  let enough := after.randomBytes.given ≤ size ∧ after.threads ≤ size
  pure (if enough then some (result, after) else none)

/-- Write the files that changed. -/
def storeFiles (before after : FileStore) : IO Unit := do
  let directory ← IO.currentDir
  for (place, node) in after.nodes do
    if before.node? place ≠ some node then
      match node with
      | .directory => pure ()
      | .file content =>
          let target := directory / FileStore.joined place
          let fresh := directory / (FileStore.joined place ++ ".fresh")
          IO.FS.writeBinFile fresh ⟨content.toArray⟩
          IO.FS.rename fresh target

/-- Run with more and more random bytes and durations until they are enough. -/
def runWith (words : List String) (files : FileStore) : Nat → Nat → IO Run
  | 0, _ => pure { exit := 1, err := "Error: not enough random bytes\n" }
  | tries + 1, size => do
      match ← tryRun words files size with
      | none => runWith words files tries (4 * size)
      | some (result, after) => do
          storeFiles files after.files
          pure result

/-- Random bytes and durations that most runs get by with. -/
def firstSize : Nat := 8192

end EntropySeal.CommandLine

open EntropySeal EntropySeal.CommandLine in
/-- Run the program on its words and end with the status of the run. -/
def main (words : List String) : IO UInt32 := do
  let files ← match parse words with
    | .ok i => loadFiles i
    | .error _ => pure ⟨[], []⟩
  let result ← runWith words files 10 firstSize
  let out ← IO.getStdout
  out.write ⟨result.out.toArray⟩
  out.flush
  (← IO.getStderr).putStr result.err
  pure (UInt32.ofNat result.exit)
