/-!
# Arguments

What a command line asks for.  Its words are read level by level: the program,
a command, and for pools an action.  Every level knows its switches; some take
a value, behind an equals sign or as the next word.  A word that is no switch
names the next level, or is an argument of the last one.

Asking for help or for the version ends the reading at once, and so does the
first word that does not fit.  A value that is a word of its own is looked at
only when the next switch of its level comes, and after everything below its
level: help that is asked for in between is given.
-/

namespace EntropySeal.CommandLine

/-- Which generator gives bytes. -/
inductive Generator where
  | fast
  | slow
  deriving DecidableEq, Repr

/-- How bytes are printed. -/
inductive Format where
  | hex
  | raw
  deriving DecidableEq, Repr

/-- What the program is to do. -/
inductive Command where
  | sources (json : Bool)
  | bytes (count : Nat) (generator : Generator) (format : Format)
  | bench (bytes : Nat) (output : Option String)
  | initPool (path : String) (force : Bool)
  | inspectPool (path : String)
  | config
  deriving DecidableEq, Repr

/-- A command with the configuration file it is to use. -/
structure Invocation where
  config : Option String
  command : Command
  deriving DecidableEq, Repr

/-! ## Levels and switches -/

/-- A part of the program that has words of its own. -/
inductive Level where
  | program
  | sources
  | bytes
  | bench
  | pool
  | initPool
  | inspectPool
  | config
  deriving DecidableEq, Repr

/-- Everything that starts with a dash. -/
inductive Switch where
  | config
  | verbose
  | json
  | count
  | generator
  | format
  | bytes
  | output
  | force
  | help
  | version
  deriving DecidableEq, Repr

namespace Switch

/-- The name after two dashes. -/
def long : Switch → String
  | config => "config"
  | verbose => "verbose"
  | json => "json"
  | count => "count"
  | generator => "generator"
  | format => "format"
  | bytes => "bytes"
  | output => "output"
  | force => "force"
  | help => "help"
  | version => "version"

/-- The letter after one dash. -/
def short? : Switch → Option Char
  | verbose => some 'v'
  | count => some 'n'
  | help => some 'h'
  | version => some 'V'
  | _ => none

/-- The switch takes a value. -/
def takesValue : Switch → Bool
  | config | count | generator | format | bytes | output => true
  | verbose | json | force | help | version => false

/-- The switch may be given more than once. -/
def repeats : Switch → Bool
  | verbose => true
  | _ => false

end Switch

/-- A number of bytes: decimal digits for a word of 64 bits, perhaps after a
plus. -/
def count? (s : String) : Option Nat := do
  let digits := match s.toList with
    | '+' :: rest => rest
    | all => all
  if digits = [] ∨ !digits.all Char.isDigit then none
  let n := digits.foldl (fun n c => 10 * n + (c.toNat - '0'.toNat)) 0
  if n < UInt64.size then some n else none

/-- The generator of a name. -/
def Generator.ofName? (s : String) : Option Generator :=
  if s = "fast" then some fast else if s = "slow" then some slow else none

/-- The format of a name. -/
def Format.ofName? (s : String) : Option Format :=
  if s = "hex" then some hex else if s = "raw" then some raw else none

/-- The value can be given to the switch. -/
def Switch.accepts (value : String) : Switch → Bool
  | config => value ≠ ""
  | count | bytes => (count? value).isSome
  | generator => (Generator.ofName? value).isSome
  | format => (Format.ofName? value).isSome
  | _ => true

namespace Level

/-- The switches of a level, in the order in which its help lists them: the
first own one and the first common one, then the second ones, and so on; of two
in the same turn the one that comes first in the alphabet. -/
def switches : Level → List Switch
  | program => [.config, .verbose, .help, .version]
  | sources => [.config, .json, .verbose, .help]
  | bytes => [.config, .count, .generator, .verbose, .format, .help]
  | bench => [.bytes, .config, .output, .verbose, .help]
  | initPool => [.config, .force, .verbose, .help]
  | pool | inspectPool | config => [.config, .verbose, .help]

/-- The levels below, by name. -/
def children : Level → List (String × Level)
  | program =>
      [("sources", sources), ("bytes", bytes), ("bench", bench), ("pool", pool),
        ("config", config)]
  | pool => [("init", initPool), ("inspect", inspectPool)]
  | _ => []

/-- How many words that are no switches a level takes. -/
def arity : Level → Nat
  | initPool | inspectPool => 1
  | _ => 0

/-- The level with a given name below. -/
def child? (level : Level) (name : String) : Option Level :=
  (level.children.find? fun entry => entry.1 == name).map (·.2)

end Level

/-! ## Reading -/

/-- Why the reading of a command line ended. -/
inductive Stop where
  | help (level : Level)
  /-- Help on the command that gives help on a level. -/
  | helpOnHelp (level : Level)
  | version
  | misuse (level : Level)
  deriving DecidableEq, Repr

/-- The words of one level. -/
structure Given where
  level : Level
  values : List (Switch × String) := []
  /-- The last switch with its value, not looked at yet. -/
  pending : Option (Switch × String) := none
  words : List String := []

namespace Given

/-- The value of a switch. -/
def value? (g : Given) (s : Switch) : Option String :=
  (g.values.find? fun entry => entry.1 == s).map (·.2)

/-- The switch was given. -/
def has (g : Given) (s : Switch) : Bool :=
  (g.value? s).isSome

/-- Look at a switch and its value. -/
def accept (g : Given) (s : Switch) (value : String) : Except Stop Given :=
  if s = .help then .error (.help g.level)
  else if s = .version then .error .version
  else if g.has s && !s.repeats then .error (.misuse g.level)
  else if !s.accepts value then .error (.misuse g.level)
  else .ok { g with values := (s, value) :: g.values }

/-- Look at the switch that was left for later. -/
def settle (g : Given) : Except Stop Given :=
  match g.pending with
  | none => .ok g
  | some (s, value) => accept { g with pending := none } s value

/-- Give a switch. -/
def give (g : Given) (s : Switch) (value : String) : Except Stop Given := do
  let g ← g.settle
  g.accept s value

/-- Give a word that is no switch. -/
def word (g : Given) (w : String) : Except Stop Given :=
  if g.words.length < g.level.arity ∧ w ≠ "" then .ok { g with words := g.words ++ [w] }
  else .error (.misuse g.level)

/-- Give the rest of a word behind one dash, letter by letter.  A switch that
still lacks its value is answered too. -/
def letters (g : Given) : List Char → Except Stop (Given × Option Switch)
  | [] => .ok (g, none)
  | c :: rest =>
      match g.level.switches.find? fun s => s.short? = some c with
      | none => .error (.misuse g.level)
      | some s =>
          if s.takesValue then
            match rest with
            | [] => do pure (← g.settle, some s)
            | _ => do
                let value := if rest.head? = some '=' then rest.drop 1 else rest
                pure (← g.give s (String.ofList value), none)
          else do
            let g ← g.give s ""
            letters g rest

/-- Give the rest of a word behind two dashes.  A switch that still lacks its
value is answered too. -/
def name (g : Given) (body : List Char) : Except Stop (Given × Option Switch) :=
  let name := String.ofList (body.takeWhile (· ≠ '='))
  let attached := body.dropWhile (· ≠ '=')
  match g.level.switches.find? fun s => s.long == name with
  | none => .error (.misuse g.level)
  | some s =>
      match s.takesValue, attached with
      | true, [] => do pure (← g.settle, some s)
      | true, _ :: value => do pure (← g.give s (String.ofList value), none)
      | false, [] => do pure (← g.give s "", none)
      | false, _ :: _ => .error (.misuse g.level)

end Given

/-- What a word is, by its dashes. -/
inductive Shape where
  /-- Two dashes alone: no switch comes after them. -/
  | last
  | name (body : List Char)
  | letters (body : List Char)
  | plain

/-- The shape of a word.  A single dash is plain. -/
def Shape.of (w : String) : Shape :=
  match w.toList with
  | ['-', '-'] => last
  | '-' :: '-' :: body => name body
  | '-' :: c :: body => letters (c :: body)
  | _ => plain

/-- The word is no switch. -/
def isPlain (w : String) : Bool :=
  match Shape.of w with
  | .plain => true
  | _ => false

/-- The level whose help is asked for by names. -/
def helpFor (level : Level) : List String → Stop
  | [] => .help level
  | w :: ws =>
      match level.child? w with
      | some level => helpFor level ws
      | none =>
          if level.children ≠ [] ∧ w = "help" ∧ ws = [] then .helpOnHelp level else .misuse level

/-- Read the words of a level, up to one that names a level below. -/
def scan (g : Given) (waiting : Option Switch) :
    List String → Except Stop (Given × Option (Level × List String))
  | [] =>
      match waiting with
      | none => .ok (g, none)
      | some _ => .error (.misuse g.level)
  | w :: ws =>
      match waiting with
      | some s =>
          if isPlain w then scan { g with pending := some (s, w) } none ws
          else .error (.misuse g.level)
      | none =>
          match Shape.of w with
          | .last => do
              let g ← ws.foldlM Given.word g
              pure (g, none)
          | .name body => do
              let (g, waiting) ← g.name body
              scan g waiting ws
          | .letters body => do
              let (g, waiting) ← g.letters body
              scan g waiting ws
          | .plain =>
              match g.level.child? w with
              | some level => .ok (g, some (level, ws))
              | none =>
                  if g.level.children ≠ [] ∧ w = "help" then .error (helpFor g.level ws)
                  else do
                    let g ← g.word w
                    scan g none ws

/-- The command of a last level. -/
def command? (g : Given) : Option Command :=
  match g.level with
  | .sources => some (.sources (g.has .json))
  | .bytes => do
      let count ← count? ((g.value? .count).getD "32")
      let generator ← Generator.ofName? ((g.value? .generator).getD "fast")
      let format ← Format.ofName? ((g.value? .format).getD "hex")
      pure (.bytes count generator format)
  | .bench => do
      let bytes ← count? ((g.value? .bytes).getD "1048576")
      pure (.bench bytes (g.value? .output))
  | .initPool => g.words.head?.map fun path => .initPool path (g.has .force)
  | .inspectPool => g.words.head?.map .inspectPool
  | .config => some .config
  | .program | .pool => none

/-- Read the levels from one on; `depth` bounds how many follow.  The innermost
configuration file counts. -/
def descend : Nat → Level → List String → Except Stop Invocation
  | depth, level, words => do
      let (g, next) ← scan { level } none words
      match depth, next with
      | depth + 1, some (level, words) =>
          let inner ← descend depth level words
          let g ← g.settle
          pure { inner with config := inner.config.orElse fun _ => g.value? .config }
      | 0, some (level, _) => throw (.misuse level)
      | _, none =>
          let g ← g.settle
          match command? g with
          | none => throw (.misuse level)
          | some command => pure ⟨g.value? .config, command⟩

/-- What a command line asks for. -/
def parse (words : List String) : Except Stop Invocation :=
  descend 2 .program words

end EntropySeal.CommandLine
