import EntropySeal.CommandLine.Arguments

/-!
# Help

What the program says of itself: its version, and for every level what it is
for, how it is called and what its switches mean.
-/

namespace EntropySeal.CommandLine

/-- The name of the program. -/
def program : String := "ironveil"

/-- The version of the program. -/
def version : String := "0.3.0"

/-- Put blanks behind a text up to a width. -/
def padRight (width : Nat) (s : String) : String :=
  s.pushn ' ' (width - s.length)

/-- Put blanks before a text up to a width. -/
def padLeft (width : Nat) (s : String) : String :=
  "".pushn ' ' (width - s.length) ++ s

/-- What a level is for. -/
def Level.purpose : Level → String
  | program => "ironveil: multi-source randomness and tamper-evident values"
  | sources => "List the entropy sources feeding the slow generator"
  | bytes => "Write random bytes to stdout"
  | bench => "Measure generator throughput and output quality"
  | pool => "Manage a persisted entropy pool file"
  | initPool => "Create a fresh pool file from OS entropy"
  | inspectPool => "Verify a pool file's integrity and sample its output"
  | config => "Print the effective configuration as JSON"

/-- The words that lead to a level. -/
def Level.path : Level → String
  | program => CommandLine.program
  | sources => CommandLine.program ++ " sources"
  | bytes => CommandLine.program ++ " bytes"
  | bench => CommandLine.program ++ " bench"
  | pool => CommandLine.program ++ " pool"
  | initPool => CommandLine.program ++ " pool init"
  | inspectPool => CommandLine.program ++ " pool inspect"
  | config => CommandLine.program ++ " config"

/-- How a level is called. -/
def Level.usage (level : Level) : String :=
  "Usage: " ++ level.path ++ " [OPTIONS]" ++ (if level.children ≠ [] then " <COMMAND>" else "") ++
    (if level.arity > 0 then " <PATH>" else "")

/-- What a switch means. -/
def Switch.meaning : Switch → String
  | config =>
      "JSON configuration file (reseed thresholds, protection defaults, entropy pool)"
  | verbose => "Raise log verbosity (-v debug, -vv trace). RUST_LOG overrides"
  | json => "Print machine-readable JSON instead of a table"
  | count => "Number of bytes to produce [default: 32]"
  | generator =>
      "Generator: fast (reseeding PRNG, default) or slow (direct multi-source) " ++
        "[default: fast] [possible values: fast, slow]"
  | format => "Output format [default: hex] [possible values: hex, raw]"
  | bytes =>
      "Bytes drawn from the fast generator (the slow one gets 1/16th) [default: 1048576]"
  | output => "Write the results as JSON"
  | force => "Overwrite an existing file"
  | help => "Print help"
  | version => "Print version"

/-- How a switch is written. -/
def Switch.form (s : Switch) : String :=
  let letter := match s.short? with
    | some c => "-" ++ c.toString ++ ", "
    | none => "    "
  let value := if s.takesValue then " <" ++ s.long.toUpper ++ ">" else ""
  letter ++ "--" ++ s.long ++ value ++ (if s.repeats then "..." else "")

/-- Two columns, indented. -/
def columns (rows : List (String × String)) : String :=
  let width := (rows.map fun row => row.1.length).foldl max 0
  String.join (rows.map fun row => "  " ++ padRight width row.1 ++ "  " ++ row.2 ++ "\n")

/-- What the command that gives help is for. -/
def helpPurpose : String :=
  "Print this message or the help of the given subcommand(s)"

/-- The commands below a level, with what they are for. -/
def Level.commandRows (level : Level) : List (String × String) :=
  level.children.map (fun (name, child) => (name, child.purpose)) ++ [("help", helpPurpose)]

/-- The help of a level. -/
def Level.help (level : Level) : String :=
  level.purpose ++ "\n\n" ++ level.usage ++ "\n" ++
    (if level.children ≠ [] then "\nCommands:\n" ++ columns level.commandRows else "") ++
    (if level.arity > 0 then "\nArguments:\n" ++ columns [("<PATH>", "")] else "") ++
    "\nOptions:\n" ++ columns (level.switches.map fun s => (s.form, s.meaning))

/-- The help of the command that gives help on a level.  It takes any number of
names and no switches. -/
def Level.helpOnHelp (level : Level) : String :=
  helpPurpose ++ "\n\nUsage: " ++ level.path ++ " help [COMMAND]...\n\nArguments:\n" ++
    columns [("[COMMAND]...", "Print help for the subcommand(s)")]

/-- What is said of a command line that does not fit. -/
def Level.complaint (level : Level) : String :=
  "error: unexpected or missing argument\n\n" ++ level.usage ++
    "\n\nFor more information, try '--help'.\n"

end EntropySeal.CommandLine
