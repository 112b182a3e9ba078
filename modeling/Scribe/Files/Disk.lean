import Scribe.Files.Tree

/-!
A disk with a directory to work in. A path that starts with a slash starts at the root of the disk,
any other path at the home directory; two dots lead out of the home directory as well.
-/

namespace Scribe

structure Disk where
  root : FileTree
  /-- The names that lead from the root to the home directory. -/
  home : List String

namespace Disk

/-- Nothing is on the disk but the way to the home directory. -/
def empty : Disk where
  root := FileTree.empty.set ["home", "work"] .empty
  home := ["home", "work"]

def start (disk : Disk) (path : String) : List String :=
  if FilePath.isAbsolute path then [] else disk.home

/-- Where a path leads that can stand for a file. -/
def place? (disk : Disk) (path : String) : Option (List String) :=
  if path = "" || FilePath.namesDirectory path || !FilePath.isUsable path then none
  else disk.root.walk? (disk.start path) (FilePath.steps path)

def read? (disk : Disk) (path : String) : Option ByteArray := do
  match disk.root.get? (← disk.place? path) with
  | some (.file content) => some content
  | _ => none

/-- Makes the directories of a path that are missing. -/
def makeDirectories (disk : Disk) (path : String) : Bool × Disk :=
  if FilePath.isUsable path then
    let (made, root) := disk.root.makeWay (disk.start path) (FilePath.steps path)
    (made, { disk with root })
  else (false, disk)

/-- Writes a file, unless a directory is there or the directory around it is missing. -/
def write? (disk : Disk) (path : String) (content : ByteArray) : Option Disk := do
  let place ← disk.place? path
  if disk.root.isDirectory place then none
  else some { disk with root := disk.root.set place (.file content) }

end Disk

end Scribe
