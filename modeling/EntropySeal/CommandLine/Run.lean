import EntropySeal.CommandLine.Help
import EntropySeal.Context
import EntropySeal.Sample.Quality

/-!
# Running commands

What each command prints and does on a machine.  A command that fails keeps
what it had printed, reports the error and ends with status one; a command
line that does not fit ends with status two.
-/

namespace EntropySeal.CommandLine

/-- What a run of the program leaves behind, beside the machine. -/
structure Run where
  exit : Nat
  out : Bytes := []
  err : String := ""

/-- What a command prints, and the error that stopped it, if any. -/
structure Printed where
  out : Bytes := []
  failure : Option Error := none

variable {σ : Type} [Machine σ]

namespace Printed

/-- A text alone. -/
def text (s : String) : Printed :=
  { out := Bytes.ofText s }

/-- An attempt whose answer is printed at once. -/
def ofAttempt (act : Attempt σ String) : Action σ Printed := do
  match ← act.toAction with
  | .ok s => pure (text s)
  | .error e => pure { failure := some e }

end Printed

/-! ## Configurations and contexts -/

/-- The configuration in a file, or the one with every default. -/
def loadConfiguration (path : Option String) : Attempt σ Configuration :=
  match path with
  | none => pure {}
  | some path => do
      let c ← Configuration.load path
      Attempt.log (.configLoaded path)
      pure c

/-- The context that the configuration in a file asks for. -/
def makeContext (path : Option String) : Attempt σ (Context × Station (Assembly σ)) := do
  Context.ofMachine (← loadConfiguration path)

/-- A context at work. -/
structure Workplace (σ : Type) where
  fast : FastGenerator
  station : Station (Assembly σ)

/-- Fill a buffer from a generator of a context.  A background reseed ends
before the next request. -/
def Workplace.fill (generator : Generator) : Fill (Workplace σ) := fun n =>
  match generator with
  | .slow => Action.focus Workplace.station (fun station w => { w with station }) (Station.fill n)
  | .fast => fun t =>
      let act : Action (Station (Assembly σ)) (Delivery × FastGenerator) := do
        let (delivery, fast) ← t.world.fast.fill Station.assembledSupply n
        let (_, fast) ← fast.settle Station.assembledSupply
        pure (delivery, fast)
      let ((delivery, fast), next) := act ⟨t.world.station, t.events⟩
      (delivery, ⟨⟨fast, next.world⟩, next.events⟩)

/-- Perform an action at a context made for it. -/
def withContext (path : Option String) (act : Action (Workplace σ) Printed) : Action σ Printed := do
  match ← (makeContext path).toAction with
  | .error e => pure { failure := some e }
  | .ok (context, station) => do
      let (printed, _) ← Action.around
        (fun machine => ⟨context.fast, { station with world := { station.world with machine } }⟩)
        (fun w => w.station.world.machine) act
      pure printed

/-! ## Sources -/

/-- A summary of a source as a value to be written. -/
def summaryDocument (s : SourceSummary) : Json.Document :=
  .object [
    ("name", .text s.info.name),
    ("description", .text s.info.description),
    ("category", .text s.info.category.label),
    ("hashers", .list (s.digests.map .text))]

/-- A summary of a source as a line of a table. -/
def summaryLine (s : SourceSummary) : String :=
  "  \u2705 " ++ padRight 16 s.info.name ++ " " ++ padRight 12 s.info.category.label ++ " " ++
    padRight 20 ("+".intercalate s.digests) ++ " " ++ s.info.description ++ "\n"

/-- The table of all sources. -/
def sourcesTable (slow : SlowGenerator (Assembly σ)) (policy : ReseedPolicy) : String :=
  let summaries := slow.summaries
  s!"Slow generator: {summaries.length} source(s), {slow.size}-byte blocks\n\n" ++
    String.join (summaries.map summaryLine) ++
    s!"\nFast generator: reseed soft={policy.soft.toNat} hard={policy.hard.toNat} blocks\n"

/-- List the sources. -/
def sources (path : Option String) (json : Bool) : Action σ Printed :=
  withContext path do
    let w ← Action.look id
    let slow := w.station.slow
    pure (.text (
      if json then (Json.Document.list (slow.summaries.map summaryDocument)).toText ++ "\n"
      else sourcesTable slow w.fast.policy))

/-! ## Bytes -/

/-- Bytes drawn at once. -/
def chunkSize : Nat := 4096

/-- Bytes as they are printed. -/
def render (format : Format) (bytes : Bytes) : Bytes :=
  match format with
  | .raw => bytes
  | .hex => Bytes.ofText (Bytes.toHex bytes)

/-- Draw and print chunks of the given sizes; the latest output comes first in
`before`. -/
def printChunks (fill : Fill σ) (format : Format) (before : List Bytes) :
    List Nat → Action σ Printed
  | [] => pure { out := before.reverse.flatten }
  | size :: sizes => do
      match (← fill size).toExcept with
      | .error e => pure { out := before.reverse.flatten, failure := some e }
      | .ok bytes => printChunks fill format (render format bytes :: before) sizes

/-- Print random bytes. -/
def bytes (path : Option String) (count : Nat) (generator : Generator) (format : Format) :
    Action σ Printed :=
  withContext path do
    let fill := Workplace.fill generator
    let printed ← printChunks fill format [] (FastGenerator.chunkSizes chunkSize count)
    let ending := if format = .hex ∧ printed.failure.isNone then Bytes.ofText "\n" else []
    pure { printed with out := printed.out ++ ending }

/-! ## Measurements -/

/-- How fast a generator was and how good its bytes are. -/
structure Measurement where
  generator : String
  bytes : Nat
  seconds : Float
  quality : Quality.Report

namespace Measurement

/-- Bytes in a mebibyte. -/
def mebibyte : Nat := 1048576

/-- The least time that is taken into account, in seconds. -/
def minSeconds : Float := 1.0e-9

/-- Mebibytes per second. -/
def rate (m : Measurement) : Float :=
  let time := if m.seconds < minSeconds then minSeconds else m.seconds
  Float.ofNat m.bytes / Float.ofNat mebibyte / time

/-- Places of the numbers in a file of results. -/
def places : Nat := 9

/-- A number in a file of results. -/
def decimal (x : Float) : Json.Document :=
  .decimal (Decimal.fixed places x)

/-- The quality of a sample as a value to be written. -/
def qualityDocument (q : Quality.Report) : Json.Document :=
  .object [
    ("samples", .number q.samples),
    ("unique_values", .number q.uniqueValues),
    ("shannon_entropy", decimal q.shannon),
    ("min_entropy", decimal q.minEntropy),
    ("compression_ratio", decimal q.compressionRatio),
    ("quality_score", decimal q.score),
    ("grade", .text q.grade.letter)]

/-- A measurement as a value to be written. -/
def document (m : Measurement) : Json.Document :=
  .object [
    ("generator", .text m.generator),
    ("bytes", .number m.bytes),
    ("seconds", decimal m.seconds),
    ("mib_per_sec", decimal m.rate),
    ("quality", qualityDocument m.quality)]

/-- The columns of the table of measurements. -/
def row (generator grade shannon minEntropy compression rate : String) : String :=
  padRight 8 generator ++ " " ++ padLeft 5 grade ++ " " ++ padLeft 8 shannon ++ " " ++
    padLeft 8 minEntropy ++ " " ++ padLeft 9 compression ++ " " ++ padLeft 12 rate ++ "\n"

/-- The head of the table. -/
def header : String :=
  row "Gen" "Grade" "Shannon" "Min-H\u221e" "Compress" "MiB/s"

/-- A measurement as a line of the table. -/
def line (m : Measurement) : String :=
  row m.generator m.quality.grade.letter (Decimal.fixed 4 m.quality.shannon)
    (Decimal.fixed 4 m.quality.minEntropy) (Decimal.fixed 3 m.quality.compressionRatio)
    (Decimal.fixed 2 m.rate)

end Measurement

/-- Where measurements are made: a clock, and actions at a context.  The clock
need not be the machine's own. -/
structure Laboratory (σ : Type) (m : Type → Type) where
  /-- Nanoseconds of the clock. -/
  now : m Nat
  perform : {α : Type} → Action (Workplace σ) α → m α

/-- The laboratory whose clock is the machine's. -/
def Laboratory.ofMachine : Laboratory σ (Action (Workplace σ)) where
  now := Action.step fun w =>
    let machine := w.station.world.machine
    let (time, machine) := Machine.now machine
    (time, { w with station := { w.station with world := { w.station.world with machine } } })
  perform act := act

/-- Draw so many bytes and measure. -/
def measure {m : Type → Type} [Monad m] (lab : Laboratory σ m) (name : String)
    (generator : Generator) (n : Nat) : m (Except Error Measurement) := do
  let start ← lab.now
  let data ← lab.perform (Fill.getBytes (Workplace.fill generator) n).toAction
  let stop ← lab.now
  pure (data.map fun data => {
    generator := name
    bytes := n
    seconds := Float.ofNat (stop - start) / 1.0e9
    quality := Quality.report data })

/-- Write results to a file, where one is named. -/
def saveResults (output : Option String) (results : List Measurement) :
    Attempt (Workplace σ) String :=
  match output with
  | none => pure ""
  | some path => do
      let text := (Json.Document.list (results.map Measurement.document)).toText
      Attempt.focus (fun w : Workplace σ => w.station.world.machine)
        (fun machine w =>
          { w with station := { w.station with world := { w.station.world with machine } } })
        (Machine.save path (Bytes.ofText text))
      pure s!"Results written to {path}\n"

/-- The table of results and what the generators did for them. -/
def resultsTable (results : List Measurement) (w : Workplace σ) : String :=
  let rule (c : Char) : String := "".pushn c 68 ++ "\n"
  rule '=' ++ Measurement.header ++ rule '-' ++ String.join (results.map Measurement.line) ++
    s!"\nFast generator reseeds: {w.fast.reseedCount.toNat}   " ++
    s!"slow output total: {w.station.slow.totalOutput.toNat} B\n"

/-- Print after what was printed before. -/
def Printed.after (before : String) (p : Printed) : Printed :=
  { p with out := Bytes.ofText before ++ p.out }

/-- Measure both generators of a context. -/
def benchIn {m : Type → Type} [Monad m] (lab : Laboratory σ m) (n : Nat)
    (output : Option String) : m Printed := do
  let slowBytes := max (n / 16) 1024
  let count ← lab.perform (Action.look fun w => w.station.slow.sourceCount)
  let opening :=
    s!"Benchmarking slow ({slowBytes} B) and fast ({n} B) generators over {count} sources...\n\n"
  match ← measure lab "slow" .slow slowBytes with
  | .error e => pure { out := Bytes.ofText opening, failure := some e }
  | .ok slow =>
      match ← measure lab "fast" .fast n with
      | .error e => pure { out := Bytes.ofText opening, failure := some e }
      | .ok fast => do
          let results := [slow, fast]
          let table ← lab.perform (Action.look (resultsTable results))
          let saved ← lab.perform (Printed.ofAttempt (saveResults output results))
          pure (saved.after (opening ++ table))

/-- Measure both generators. -/
def bench (path : Option String) (n : Nat) (output : Option String) : Action σ Printed :=
  withContext path (benchIn .ofMachine n output)

/-! ## Pools -/

/-- Bytes drawn from a pool to look at it. -/
def sampleSize : Nat := 1024

/-- Create a pool file. -/
def initPool (path : String) (force : Bool) : Action σ Printed :=
  Printed.ofAttempt do
    let present ← Attempt.always (Action.look (Machine.contains path))
    if present && !force then
      throw (.badArgument s!"{path} already exists (use --force to overwrite)")
    let pool ← StoredPool.create path
    pure s!"Created entropy pool at {pool.path}\n"

/-- Open a pool file, sample it and print what is found. -/
def inspectPool (path : String) : Action σ Printed := do
  match ← (StoredPool.load path).toAction with
  | .error e => pure { failure := some e }
  | .ok pool => do
      let opening :=
        s!"Pool:      {pool.path}\nIntegrity: OK\nPosition:  {pool.state.position}\n"
      let (delivery, _) ← pool.fill sampleSize
      match delivery.toExcept with
      | .error e => pure { out := Bytes.ofText opening, failure := some e }
      | .ok sample =>
          pure (.text (opening ++ s!"\nSampled output: {sampleSize} bytes\n" ++
            s!"  Shannon entropy: {Decimal.fixed 4 (Quality.shannon sample)} / 8.0 bits/byte\n" ++
            s!"  Min-entropy H\u221e:  {Decimal.fixed 4 (Quality.minEntropy sample)} / 8.0 bits/byte\n"))

/-! ## The program -/

/-- Print the configuration in effect. -/
def showConfiguration (path : Option String) : Action σ Printed :=
  Printed.ofAttempt do
    let c ← loadConfiguration path
    pure (c.toJson ++ "\n")

/-- Perform what a command line asks for. -/
def perform (i : Invocation) : Action σ Printed :=
  match i.command with
  | .sources json => sources i.config json
  | .bytes count generator format => bytes i.config count generator format
  | .bench n output => bench i.config n output
  | .initPool path force => initPool path force
  | .inspectPool path => inspectPool path
  | .config => showConfiguration i.config

/-- What a run leaves behind for what its command printed. -/
def Run.ofPrinted (p : Printed) : Run :=
  match p.failure with
  | none => { exit := 0, out := p.out }
  | some e => { exit := 1, out := p.out, err := s!"Error: {e.message}\n" }

/-- What a command line leaves behind that asks for no command. -/
def Run.ofStop : Stop → Run
  | .help level => { exit := 0, out := Bytes.ofText level.help }
  | .helpOnHelp level => { exit := 0, out := Bytes.ofText level.helpOnHelp }
  | .version => { exit := 0, out := Bytes.ofText (program ++ " " ++ version ++ "\n") }
  | .misuse level => { exit := 2, err := level.complaint }

/-- Run the program. -/
def run (words : List String) : Action σ Run :=
  match parse words with
  | .error stop => pure (.ofStop stop)
  | .ok i => Run.ofPrinted <$> perform i

end EntropySeal.CommandLine
