import EntropySeal.Json.Numeral
import EntropySeal.Json.Quoted

/-!
# Writing values

A value is written with every item of a list and every entry of an object on
a line of its own, two blanks further in than what it belongs to.
-/

namespace EntropySeal.Json

/-- A value to be written. -/
inductive Document where
  | null
  | number (n : Nat)
  /-- A number whose digits are given. -/
  | decimal (digits : String)
  | text (s : String)
  | list (items : List Document)
  | object (entries : List (String × Document))

namespace Document

/-- A line break, and the blanks of so many levels. -/
def newline (level : Nat) : List Char :=
  '\n' :: List.replicate (2 * level) ' '

/-- Parts between two brackets, each on a line of its own one level further in,
separated by commas. -/
def enclose (opening closing : Char) (level : Nat) (parts : List (List Char)) : List Char :=
  match parts with
  | [] => [opening, closing]
  | parts =>
      opening :: [','].intercalate (parts.map (newline (level + 1) ++ ·)) ++
        newline level ++ [closing]

mutual

/-- A value as it is written at a level. -/
def write (level : Nat) : Document → List Char
  | null => ['n', 'u', 'l', 'l']
  | number n => Decimal.write n
  | decimal digits => digits.toList
  | text s => quote s
  | list items => enclose '[' ']' level (writeItems (level + 1) items)
  | object entries => enclose '\x7b' '\x7d' level (writeEntries (level + 1) entries)

/-- The items of a list. -/
def writeItems (level : Nat) : List Document → List (List Char)
  | [] => []
  | item :: items => write level item :: writeItems level items

/-- The entries of an object. -/
def writeEntries (level : Nat) : List (String × Document) → List (List Char)
  | [] => []
  | (key, value) :: entries =>
      (quote key ++ [':', ' '] ++ write level value) :: writeEntries level entries

end

/-- A value as a text. -/
def toText (d : Document) : String :=
  String.ofList (d.write 0)

end Document

end EntropySeal.Json
