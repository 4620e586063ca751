import EntropySeal.Bytes
import EntropySeal.Error

/-!
# A store of files

A tree of directories and files, addressed by paths as text.  A path is walked
one component at a time from the root, or from the working directory if it is
relative; every component but the last must name a directory.  A single dot
stays, two dots go up, and repeated separators count once.

Replacing a file writes a fresh file beside it and renames it, so it either
takes effect as a whole or changes nothing.  Removing a directory takes away
what it holds first, so it can fail halfway.
-/

namespace EntropySeal

/-- What a path can name. -/
inductive Node where
  | file (content : Bytes)
  | directory
  deriving DecidableEq

/-- A tree of directories and files.  The root is always there. -/
structure FileStore where
  /-- The components of every path that names something, with what it names. -/
  nodes : List (List String × Node)
  /-- Where relative paths start. -/
  working : List String

namespace FileStore

/-! ## Paths -/

/-- The components of a path. -/
def components (path : String) : List String :=
  (path.splitOn "/").filter (· ≠ "")

/-- The path starts at the root. -/
def isAbsolute (path : String) : Bool :=
  path.startsWith "/"

/-- The path can only name a directory. -/
def endsInSeparator (path : String) : Bool :=
  path.endsWith "/"

/-- What an absolute path starts with.  Just two separators are kept. -/
def root (path : String) : String :=
  if path.startsWith "//" && !path.startsWith "///" then "//" else "/"

/-- The absolute path with the given components. -/
def joined (parts : List String) : String :=
  "/" ++ "/".intercalate parts

/-- The longest component, in bytes. -/
def maxComponent : Nat := 255

/-- Paths are shorter than this, in bytes. -/
def maxPath : Nat := 4096

/-- The path as an absolute one without single dots and repeated separators.
Going up is kept, since it depends on what the components name. -/
def absolute (s : FileStore) (path : String) : Except IoFault String :=
  if path = "" then .error .emptyPath
  else
    let parts := (components path).filter (· ≠ ".")
    let start := if isAbsolute path then [] else s.working
    let whole := root path ++ "/".intercalate (start ++ parts)
    .ok (if endsInSeparator path ∧ start ++ parts ≠ [] then whole ++ "/" else whole)

/-- The directory that an absolute path lies in. -/
def parent (path : String) : String :=
  root path ++ "/".intercalate (components path).dropLast

/-! ## Look-up -/

/-- What the path with the given components names. -/
def node? (s : FileStore) (place : List String) : Option Node :=
  if place = [] then some .directory else (s.nodes.find? (·.1 = place)).map (·.2)

/-- Walk components from a place that must be a directory. -/
def walk (s : FileStore) (place : List String) : List String → Except IoFault (List String)
  | [] => .ok place
  | part :: parts =>
      match s.node? place with
      | none => .error .notFound
      | some (.file _) => .error .notADirectory
      | some .directory =>
          if part.utf8ByteSize > maxComponent then .error .invalidFilename
          else if part = "." then walk s place parts
          else if part = ".." then walk s place.dropLast parts
          else walk s (place ++ [part]) parts

/-- Refuse texts that cannot be paths. -/
def checkText (path : String) : Except IoFault Unit :=
  if path.contains '\x00' then .error .zeroInPath
  else if path = "" then .error .notFound
  else if path.utf8ByteSize ≥ maxPath then .error .invalidFilename
  else .ok ()

/-- Where the walk along a path starts. -/
def start (s : FileStore) (path : String) : List String :=
  if isAbsolute path then [] else s.working

/-- The place a path leads to; nothing need be there yet. -/
def locate (s : FileStore) (path : String) : Except IoFault (List String) := do
  checkText path
  s.walk (s.start path) (components path)

/-- What a path names. -/
def lookup (s : FileStore) (path : String) : Except IoFault Node := do
  let place ← s.locate path
  match s.node? place with
  | none => throw .notFound
  | some .directory => pure .directory
  | some node => if endsInSeparator path then throw .notADirectory else pure node

/-- The path names something. -/
def contains (s : FileStore) (path : String) : Bool :=
  (s.lookup path).isOk

/-- The content of a file. -/
def read (s : FileStore) (path : String) : Except IoFault Bytes := do
  match ← s.lookup path with
  | .directory => throw .isADirectory
  | .file content => pure content

/-! ## Changes -/

/-- Put a node at a place. -/
def put (s : FileStore) (place : List String) (node : Node) : FileStore :=
  { s with nodes := (place, node) :: s.nodes.filter (·.1 ≠ place) }

/-- Remove everything at and below a place. -/
def prune (s : FileStore) (place : List String) : FileStore :=
  { s with nodes := s.nodes.filter fun entry => !place.isPrefixOf entry.1 }

/-- Make or overwrite a file in place.  A path that can only name a directory
is refused as soon as the place before its end is found to be one. -/
def write (s : FileStore) (path : String) (content : Bytes) : Except IoFault FileStore := do
  checkText path
  if endsInSeparator path then
    let _ ← s.walk (s.start path) ((components path).dropLast ++ ["."])
    throw .isADirectory
  let place ← s.locate path
  if s.node? place = some .directory then throw .isADirectory
  pure (s.put place (.file content))

/-- A name for a fresh file.  Such names are random, but this long. -/
def freshName : String := ".tmp000000"

/-- Make or overwrite a file through a fresh file beside it.  The renaming
refuses a zero byte itself. -/
def replace (s : FileStore) (path : String) (content : Bytes) : Except IoFault FileStore := do
  let _ ← s.locate (parent path ++ "/" ++ freshName)
  if path.contains '\x00' then throw .invalidArgument
  let place ← s.locate path
  let last := (components path).getLast?
  if last = none ∨ last = some ".." then throw .busy
  if endsInSeparator path then throw .notADirectory
  if s.node? place = some .directory then throw .isADirectory
  pure (s.put place (.file content))

/-- Make a directory. -/
def makeDirectory (s : FileStore) (path : String) : Except IoFault FileStore := do
  let place ← s.locate path
  if (s.node? place).isSome then throw .alreadyExists
  pure (s.put place .directory)

/-- Remove a file. -/
def remove (s : FileStore) (path : String) : Except IoFault FileStore := do
  match ← s.lookup path with
  | .directory => throw .isADirectory
  | .file _ => pure (s.prune (← s.locate path))

/-- Remove a directory with everything in it.  What it holds goes first.  The
directory itself stays if the path has led through something that is gone by
then, or else if the path ends in a single dot, which is refused. -/
def removeTree (s : FileStore) (path : String) : Except IoFault Unit × FileStore :=
  match (s.locate path).bind fun place => (s.lookup path).map (place, ·) with
  | .error fault => (.error fault, s)
  | .ok (_, .file _) => (.error .notADirectory, s)
  | .ok (place, .directory) =>
      let emptied := (s.prune place).put place .directory
      match emptied.locate path with
      | .error _ => (.ok (), emptied)
      | .ok place =>
          if (components path).getLast? = some "." then (.error .invalidArgument, emptied)
          else (.ok (), emptied.prune place)

/-- Copy a file.  The target is emptied first, so a file copied onto itself is
empty. -/
def copy (s : FileStore) (source target : String) : Except IoFault FileStore := do
  match ← s.lookup source with
  | .directory => throw .notAFile
  | .file _ => do
      let emptied ← s.write target []
      emptied.write target (← emptied.read source)

/-- Cut a file, or extend it with zeros. -/
def resize (s : FileStore) (path : String) (size : Nat) : Except IoFault FileStore := do
  let content ← s.read path
  s.write path (content.take size ++ Bytes.zeros (size - content.length))

/-- Add a mask to a file's bytes from an offset on. -/
def maskAt (s : FileStore) (path : String) (offset : Nat) (mask : Bytes) :
    Except IoFault FileStore := do
  let content ← s.read path
  let masked := Bytes.xor (content.drop offset) mask
  s.write path
    (content.take offset ++ masked ++ content.drop (offset + masked.length))

end FileStore

end EntropySeal
