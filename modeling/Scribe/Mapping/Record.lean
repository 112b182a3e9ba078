import Scribe.Json.Document
import Scribe.Source.Encoding

/-!
Mapping records: which lines of output a piece of source text produced. Records are kept in the order
in which their scopes were opened, however late each was closed.
-/

namespace Scribe

open Data

structure OutputLine where
  line : UInt32
deriving DecidableEq, Ord, Repr

namespace OutputLine

def toData (place : OutputLine) : Data :=
  .record [("line", .natural place.line.toNat)]

def read : Reader OutputLine
  | room, data => do
    let fields ← readFields ["line"] room data
    return ⟨← fields.required "line" readUInt32⟩

end OutputLine

/-- The lines from `start` up to but not including `finish`. -/
structure OutputBlock where
  start : OutputLine
  finish : OutputLine
deriving DecidableEq, Repr

namespace OutputBlock

def length (block : OutputBlock) : Nat :=
  block.finish.line.toNat - block.start.line.toNat

def contains (block : OutputBlock) (line : UInt32) : Bool :=
  block.start.line ≤ line && line < block.finish.line

def isInverted (block : OutputBlock) : Bool :=
  block.finish.line < block.start.line

def toData (block : OutputBlock) : Data :=
  .record [("begin", block.start.toData), ("end", block.finish.toData)]

def read : Reader OutputBlock
  | room, data => do
    let fields ← readFields ["begin", "end"] room data
    return ⟨← fields.required "begin" OutputLine.read, ← fields.required "end" OutputLine.read⟩

end OutputBlock

structure Mapping where
  source : Span
  output : OutputBlock
deriving DecidableEq, Repr

namespace Mapping

/-- Inside a mapping the ends of a span go by other names. -/
def sourceToData (source : Span) : Data :=
  .record [("begin", source.start.toData), ("end", source.finish.toData)]

def readSource : Reader Span
  | room, data => do
    let fields ← readFields ["begin", "end"] room data
    return ⟨← fields.required "begin" Position.read, ← fields.required "end" Position.read⟩

def toData (mapping : Mapping) : Data :=
  .record [("source", sourceToData mapping.source), ("output", mapping.output.toData)]

/-- The output block has a second, older name. -/
def currentNames : Data → Data
  | .record fields => .record (fields.map fun (name, value) =>
      (if name = "cecilified" then "output" else name, value))
  | data => data

def read : Reader Mapping
  | room, data => do
    let fields ← readFields ["source", "output"] room (currentNames data)
    return ⟨← fields.required "source" readSource, ← fields.required "output" OutputBlock.read⟩

end Mapping

/-- A mapping with the number of its scope in opening order. The number has no bound, like the counter
of scopes that it comes from. -/
structure MappingEntry where
  order : Nat
  mapping : Mapping
deriving DecidableEq, Repr

structure MappingList where
  entries : List MappingEntry
deriving DecidableEq, Repr

inductive MappingTextError where
  | malformed
  | sourceInverted (index : Nat) (source : Span)
  | outputInverted (index : Nat) (output : OutputBlock)
deriving DecidableEq, Repr

/-- Text that is no list of mappings at all has no message of its own. -/
def MappingTextError.message? : MappingTextError → Option String
  | .malformed => none
  | .sourceInverted index source => some (
      s!"mapping {index}: source block ends at {source.finish.text} " ++
      s!"before it begins at {source.start.text}")
  | .outputInverted index output => some (
      s!"mapping {index}: output block ends at line {output.finish.line} " ++
      s!"before it begins at line {output.start.line}")

namespace MappingList

def empty : MappingList where
  entries := []

def size (list : MappingList) : Nat :=
  list.entries.length

def isEmpty (list : MappingList) : Bool :=
  list.entries.isEmpty

def mappings (list : MappingList) : List Mapping :=
  list.entries.map (·.mapping)

def insertEntry (entry : MappingEntry) : List MappingEntry → List MappingEntry
  | [] => [entry]
  | first :: rest =>
    if first.order < entry.order then first :: insertEntry entry rest
    else entry :: first :: rest

/-- Puts a mapping before those whose scopes were opened later. -/
def insert (list : MappingList) (order : Nat) (mapping : Mapping) : MappingList where
  entries := insertEntry ⟨order, mapping⟩ list.entries

/-- The first of the shortest mappings. -/
def shortest? : List Mapping → Option Mapping
  | [] => none
  | first :: rest => some (rest.foldl
      (fun best next => if next.output.length < best.output.length then next else best) first)

/-- The shortest block that holds an output line; of equally short ones the last opened. -/
def atOutputLine? (list : MappingList) (line : UInt32) : Option Mapping :=
  shortest? (list.mappings.reverse.filter (·.output.contains line))

def atSourceLine (list : MappingList) (line : UInt32) : List Mapping :=
  list.mappings.filter (·.source.coversLine line)

def toJson (list : MappingList) : String :=
  Json.pretty (.ofList Mapping.toData list.mappings)

/-- The fault of the record at an index, the source block first. -/
def fault? (index : Nat) (mapping : Mapping) : Option MappingTextError :=
  if mapping.source.isInverted then some (.sourceInverted index mapping.source)
  else if mapping.output.isInverted then some (.outputInverted index mapping.output)
  else none

/-- Numbers mappings in the order given. -/
def ofMappings (mappings : List Mapping) : MappingList where
  entries := mappings.zipIdx.map fun (mapping, order) => ⟨order, mapping⟩

/-- The levels of nesting that JSON text may have where it is read. -/
def jsonRoom : Nat := 127

def ofJson (text : String) : Except MappingTextError MappingList :=
  match (Json.parse? text).bind (readList Mapping.read jsonRoom) with
  | none => .error .malformed
  | some mappings =>
    match mappings.zipIdx.findSome? fun (mapping, index) => fault? index mapping with
    | some cause => .error cause
    | none => .ok (ofMappings mappings)

end MappingList

end Scribe
