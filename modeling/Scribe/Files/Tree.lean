import Scribe.Files.Path

/-!
A tree of files held in memory. Steps are taken one by one: each must start from a directory that
exists, and two dots lead back out of one. At the root they lead nowhere.
-/

namespace Scribe

inductive FileTree where
  | file (content : ByteArray)
  | directory (entries : List (String × FileTree))

namespace FileTree

def empty : FileTree :=
  .directory []

def entry? (name : String) : FileTree → Option FileTree
  | .file _ => none
  | .directory entries => entries.lookup name

/-- What is found at a place, given by the names that lead to it. -/
def get? : (place : List String) → FileTree → Option FileTree
  | [], tree => some tree
  | name :: rest, tree => (tree.entry? name).bind (get? rest)

/-- Puts something at a place and makes the directories on the way. Nothing is put below a file. -/
def set : (place : List String) → FileTree → (item : FileTree) → FileTree
  | [], _, item => item
  | _ :: _, .file content, _ => .file content
  | name :: rest, .directory entries, item =>
    let inner := set rest ((entries.lookup name).getD empty) item
    .directory ((name, inner) :: entries.filter (·.1 ≠ name))

def isDirectory (tree : FileTree) (place : List String) : Bool :=
  match tree.get? place with
  | some (.directory _) => true
  | _ => false

/-- Where a step leads from a directory. -/
def next (place : List String) (step : String) : List String :=
  if step = ".." then place.dropLast else place ++ [step]

/-- Where steps lead, if all directories on the way exist. -/
def walk? (tree : FileTree) : (place : List String) → List String → Option (List String)
  | place, [] => some place
  | place, step :: rest =>
    if FilePath.isName step && tree.isDirectory place then tree.walk? (next place step) rest else none

/-- Makes the directories on a way that are missing; a file on the way stops it, and so does a name
that is too long. Directories made before that stay. -/
def makeWay (tree : FileTree) : (place : List String) → List String → Bool × FileTree
  | _, [] => (true, tree)
  | place, step :: rest =>
    let target := next place step
    if !FilePath.isName step then (false, tree)
    else
      match tree.get? target with
      | some (.directory _) => tree.makeWay target rest
      | some (.file _) => (false, tree)
      | none => (tree.set target empty).makeWay target rest

end FileTree

end Scribe
