import EntropySeal.Json.Numeral
import EntropySeal.Json.Quoted

/-!
# Reading typed values

A text is read once from its start, each part as the type it is wanted for, and
the first problem met decides.  A text that ends early has `ended`; a
character that cannot stand where it does is `malformed`; a well-formed value
of the wrong kind is `mismatched`.

Records are objects or lists of their fields.  Fields that are left out keep
their defaults, and fields nobody knows are passed over.
-/

namespace EntropySeal.Json

/-- A reader of a value at the start of a text. -/
abbrev Reader (α : Type) : Type :=
  List Char → Except TextFault (α × List Char)

/-- Blanks stand between all parts of a text. -/
def isBlank (c : Char) : Bool :=
  c = ' ' || c = '\n' || c = '\t' || c = '\r'

/-- The text after its leading blanks. -/
def trim (cs : List Char) : List Char :=
  cs.dropWhile isBlank

/-- The text after the rest of a word that was recognized by its first letter. -/
def finish : List Char → List Char → Except TextFault (List Char)
  | [], cs => .ok cs
  | _ :: _, [] => .error .ended
  | letter :: letters, c :: cs => if c = letter then finish letters cs else .error .malformed

/-- The text after a mark and the blanks before it. -/
def mark (wanted : Char) (cs : List Char) : Except TextFault (List Char) :=
  match trim cs with
  | [] => .error .ended
  | c :: rest => if c = wanted then .ok rest else .error .malformed

/-! ## Values nobody uses -/

/-- An open list or object. -/
inductive Frame where
  | list
  | object
  deriving DecidableEq, Repr

/-- The mark that closes a frame. -/
def Frame.close : Frame → Char
  | list => ']'
  | object => '}'

/-- What is to come next. -/
inductive Awaited where
  | value
  /-- The first item of a frame or its end. -/
  | first
  /-- More items of a frame or its end. -/
  | more
  deriving DecidableEq, Repr

/-- Pass over a value that is neither list nor object. -/
def skipScalar (cs : List Char) : Except TextFault (List Char) :=
  match cs with
  | [] => .error .ended
  | c :: rest =>
      if c = 'n' then finish ['u', 'l', 'l'] rest
      else if c = 't' then finish ['r', 'u', 'e'] rest
      else if c = 'f' then finish ['a', 'l', 's', 'e'] rest
      else if c = '"' then skipQuoted rest
      else if c = '-' ∨ c.isDigit then Numeral.skip cs
      else .error .malformed

/-- Pass over what comes before an item's value: a key and a colon in an object,
nothing in a list. -/
def skipKey (frame : Frame) (cs : List Char) : Except TextFault (List Char) :=
  match frame with
  | .list => .ok cs
  | .object => do
      let rest ← mark '"' cs
      let rest ← skipQuoted rest
      mark ':' rest

/-- Pass over what is awaited inside the open frames, innermost first, until
none is open, in at most `fuel` steps. -/
def skipOpen : Nat → Awaited → List Frame → List Char → Except TextFault (List Char)
  | 0, _, _, _ => .error .ended
  | fuel + 1, .value, frames, cs =>
      match trim cs with
      | [] => .error .ended
      | c :: rest =>
          if c = '[' then skipOpen fuel .first (.list :: frames) rest
          else if c = '\x7b' then skipOpen fuel .first (.object :: frames) rest
          else do
            let rest ← skipScalar (c :: rest)
            skipOpen fuel .more frames rest
  | _ + 1, _, [], cs => .ok cs
  | fuel + 1, .first, frame :: frames, cs =>
      match trim cs with
      | [] => .error .ended
      | c :: rest =>
          if c = frame.close then skipOpen fuel .more frames rest
          else do
            let rest ← skipKey frame (c :: rest)
            skipOpen fuel .value (frame :: frames) rest
  | fuel + 1, .more, frame :: frames, cs =>
      match trim cs with
      | [] => .error .ended
      | c :: rest =>
          if c = frame.close then skipOpen fuel .more frames rest
          else if c = ',' then do
            let rest ← skipKey frame rest
            skipOpen fuel .value (frame :: frames) rest
          else .error .malformed

/-- Pass over a value of any kind.  At most every second step consumes
nothing. -/
def skipValue (cs : List Char) : Except TextFault (List Char) :=
  skipOpen (2 * cs.length + 2) .value [] cs

/-! ## Scalars -/

/-- The fault of a text that was read for nothing but its own faults. -/
def faultOf {α : Type} : Except TextFault α → TextFault
  | .error fault => fault
  | .ok _ => .mismatched

/-- What is wrong with a value of another kind than the one wanted.  Scalars
are looked at for faults of their own, lists and objects are not. -/
def refusal (cs : List Char) : TextFault :=
  match trim cs with
  | [] => .ended
  | c :: rest =>
      if c = '[' ∨ c = '\x7b' then .mismatched
      else if c = '"' then faultOf (readQuoted [] none rest)
      else if c = '-' ∨ c.isDigit then
        faultOf do
          let (n, _) ← Numeral.read (c :: rest)
          if n.isOutOfRange then throw .malformed
      else faultOf (skipScalar (c :: rest))

/-- A quoted text. -/
def text : Reader String := fun cs =>
  match trim cs with
  | [] => .error .ended
  | c :: rest =>
      if c = '"' then do
        let (s, rest) ← readQuoted [] none rest
        pure (String.ofList s, rest)
      else .error (refusal cs)

/-- An unsigned word of 64 bits. -/
def word : Reader UInt64 := fun cs =>
  match trim cs with
  | [] => .error .ended
  | c :: rest =>
      if c = '-' ∨ c.isDigit then do
        let (n, rest) ← Numeral.read (c :: rest)
        let w ← n.toWord
        pure (w, rest)
      else .error (refusal cs)

/-- The absent value. -/
def null : Reader Unit := fun cs =>
  match trim cs with
  | [] => .error .ended
  | c :: rest =>
      if c = 'n' then do
        let rest ← finish ['u', 'l', 'l'] rest
        pure ((), rest)
      else .error (refusal cs)

/-- A value that may be absent. -/
def optional {α : Type} (value : Reader α) : Reader (Option α) := fun cs =>
  match trim cs with
  | [] => .error .ended
  | c :: _ =>
      if c = 'n' then do
        let ((), rest) ← null cs
        pure (none, rest)
      else do
        let (v, rest) ← value cs
        pure (some v, rest)

/-- A quoted name of one of several values. -/
def name {α : Type} (named : String → Option α) : Reader α := fun cs => do
  let (s, rest) ← text cs
  match named s with
  | none => throw .mismatched
  | some v => pure (v, rest)

/-- One of several named values: its name, or an object whose one key is the
name and whose value is absent.  A key is always quoted, so any other start of
one is malformed. -/
def variant {α : Type} (named : String → Option α) : Reader α := fun cs =>
  match trim cs with
  | [] => .error .ended
  | c :: rest =>
      if c = '"' then name named cs
      else if c = '\x7b' then do
        let key ← mark '"' rest
        let (v, rest) ← name named ('"' :: key)
        let rest ← mark ':' rest
        let ((), rest) ← null rest
        let rest ← mark '\x7d' rest
        pure (v, rest)
      else .error .malformed

/-! ## Records -/

/-- A field of a record: its name, and how a value of it changes the record. -/
structure RecordField (σ : Type) where
  name : String
  read : Reader (σ → σ)

/-- The field that a reader and a setter make. -/
def RecordField.of {σ α : Type} (name : String) (value : Reader α) (set : α → σ → σ) : RecordField σ where
  name
  read cs := do
    let (v, rest) ← value cs
    pure (set v, rest)

section
variable {σ : Type}

/-- Read a field's value after its name, or pass over the value of a field
nobody knows.  A known field stands only once. -/
def readEntry (fields : List (RecordField σ)) (seen : List String) (key : String) (record : σ) :
    Reader (List String × σ) := fun cs =>
  match fields.find? fun field => field.name == key with
  | none => do
      let rest ← mark ':' cs
      let rest ← skipValue rest
      pure ((seen, record), rest)
  | some field =>
      if seen.contains key then .error .mismatched
      else do
        let rest ← mark ':' cs
        let (change, rest) ← field.read rest
        pure ((key :: seen, change record), rest)

/-- Read the entries of an object after its first one, in at most `fuel`
steps. -/
def readEntries (fields : List (RecordField σ)) : Nat → List String → σ → Reader σ
  | 0, _, _, _ => .error .ended
  | fuel + 1, seen, record, cs =>
      match trim cs with
      | [] => .error .ended
      | c :: rest =>
          if c = '\x7d' then .ok (record, rest)
          else if c = ',' then do
            let rest ← mark '"' rest
            let (key, rest) ← readQuoted [] none rest
            let ((seen, record), rest) ← readEntry fields seen (String.ofList key) record rest
            readEntries fields fuel seen record rest
          else .error .malformed

/-- Read an object after its opening brace. -/
def readObject (fields : List (RecordField σ)) (record : σ) : Reader σ := fun cs =>
  match trim cs with
  | [] => .error .ended
  | c :: rest =>
      if c = '\x7d' then .ok (record, rest)
      else if c = '"' then do
        let (key, rest) ← readQuoted [] none rest
        let ((seen, record), rest) ← readEntry fields [] (String.ofList key) record rest
        readEntries fields (rest.length + 1) seen record rest
      else .error .malformed

/-- Read the items of a list after its first one. -/
def readItems : List (RecordField σ) → σ → Reader σ
  | [], record, cs => do
      let rest ← mark ']' cs
      pure (record, rest)
  | field :: fields, record, cs =>
      match trim cs with
      | [] => .error .ended
      | c :: rest =>
          if c = ']' then .ok (record, rest)
          else if c = ',' then
            if (trim rest).head? = some ']' then .error .malformed
            else do
              let (change, rest) ← field.read rest
              readItems fields (change record) rest
          else .error .malformed

/-- Read a list after its opening bracket. -/
def readList : List (RecordField σ) → σ → Reader σ
  | [], record, cs => readItems [] record cs
  | field :: fields, record, cs =>
      match trim cs with
      | [] => .error .ended
      | c :: rest =>
          if c = ']' then .ok (record, rest)
          else do
            let (change, rest) ← field.read cs
            readItems fields (change record) rest

/-- A record: an object of named fields, or a list of the fields in order. -/
def record (fields : List (RecordField σ)) (defaults : σ) : Reader σ := fun cs =>
  match trim cs with
  | [] => .error .ended
  | c :: rest =>
      if c = '\x7b' then readObject fields defaults rest
      else if c = '[' then readList fields defaults rest
      else .error (refusal cs)

end

/-- Read a whole text. -/
def readWhole {α : Type} (value : Reader α) (s : String) : Except TextFault α := do
  let (v, rest) ← value s.toList
  if trim rest = [] then pure v else throw .malformed

end EntropySeal.Json
