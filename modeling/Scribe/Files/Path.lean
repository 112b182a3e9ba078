import Scribe.Text.Join

/-!
File paths as text. Steps are separated by slashes; empty steps and single dots mean nothing, except
that a dot at the very start is kept when a path is cut. Names and whole paths have a greatest length.
-/

namespace Scribe.FilePath

/-- The bytes that one name may have. -/
def nameLimit : Nat := 255

/-- The bytes that a whole path may have. -/
def pathLimit : Nat := 4095

def isName (step : String) : Bool :=
  step.utf8ByteSize ≤ nameLimit

/-- A path that is too long, or that holds a null character, leads nowhere and makes nothing, not
even the directories at its start. -/
def isUsable (path : String) : Bool :=
  path.utf8ByteSize ≤ pathLimit && !path.toList.contains '\u0000'

def isAbsolute (path : String) : Bool :=
  path.toList.head? = some '/'

/-- The parts between separators. -/
def splitAt (separator : Char) : List Char → List (List Char)
  | [] => [[]]
  | c :: rest =>
    if c = separator then [] :: splitAt separator rest
    else
      match splitAt separator rest with
      | [] => [[c]]
      | first :: others => (c :: first) :: others

def parts (path : String) : List String :=
  (splitAt '/' path.toList).map String.ofList

/-- The steps to take from where the path starts. -/
def steps (path : String) : List String :=
  (parts path).filter fun part => part ≠ "" && part ≠ "."

/-- A path that ends in a slash or a dot can only be a directory. -/
def namesDirectory (path : String) : Bool :=
  match (parts path).getLast? with
  | some last => last = "" || last = "."
  | none => true

/-- Drops steps without meaning at the end, but not the first one. -/
def trimmedParts : List String → List String
  | [] => []
  | first :: rest => first :: (rest.reverse.dropWhile fun part => part = "" || part = ".").reverse

/-- The path without its last step; there is none for the empty path and for the root. -/
def parent? (path : String) : Option String :=
  match trimmedParts (parts path) with
  | [] | [""] => none
  | parts =>
    match trimmedParts parts.dropLast with
    | [""] => some "/"
    | kept => some (Text.join "/" kept)

end Scribe.FilePath
