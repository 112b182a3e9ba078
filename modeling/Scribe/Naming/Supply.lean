import Scribe.Naming.ElementKind
import Scribe.Run.Stop
import Scribe.Settings.Basic
import Scribe.Symbol.Identifier
import Scribe.Text.Trim

/-!
A supply of fresh names. A name is the marker, the lead of the supply, the tag of its kind, the
cleaned hint if anything is left of it, and a number. Numbers count up separately for each kind and
pass over names that are reserved, so no name is given twice.
-/

namespace Scribe

/-- How many numbers each kind has used. -/
structure Counters where
  values : Vector UInt32 16

namespace Counters

def zero : Counters where
  values := .replicate 16 0

def get (counters : Counters) (kind : ElementKind) : UInt32 :=
  counters.values[kind.index]

def set (counters : Counters) (kind : ElementKind) (count : UInt32) : Counters where
  values := counters.values.set kind.index count

end Counters

structure SyntheticName where
  name : String
  kind : ElementKind
deriving DecidableEq, Ord, Repr

namespace SyntheticName

open Data

def toData (synthetic : SyntheticName) : Data :=
  .record [("name", .string synthetic.name), ("kind", synthetic.kind.toData)]

def read : Reader SyntheticName
  | room, data => do
    let fields ← readFields ["name", "kind"] room data
    return ⟨← fields.required "name" readString, ← fields.required "kind" ElementKind.read⟩

end SyntheticName

structure NameSupply where
  lead : String
  hintLimit : Nat
  reserved : List String
  counters : Counters

namespace NameSupply

def marker : String := "__"

/-- A hint keeps one character at least. -/
def ofSettings (settings : NamingSettings) : NameSupply where
  lead := settings.lead
  hintLimit := max settings.hintLimit.toNat 1
  reserved := settings.reserved.eraseDups
  counters := .zero

def count (supply : NameSupply) (kind : ElementKind) : UInt32 :=
  supply.counters.get kind

def isReserved (supply : NameSupply) (name : String) : Bool :=
  supply.reserved.contains name

def reserve (supply : NameSupply) (name : String) : NameSupply :=
  { supply with reserved := supply.reserved.insert name }

/-- The part of a hint that shows in a name. -/
def hint (supply : NameSupply) (text : String) : String :=
  .ofList (Text.trim (· = '_') ((sanitizedChars false text.toList).take supply.hintLimit))

def spelling (supply : NameSupply) (hint : String) (kind : ElementKind) (number : Nat) : String :=
  let stem := marker ++ supply.lead ++ kind.tag
  if hint = "" then stem ++ "_" ++ toString number
  else stem ++ "_" ++ hint ++ "_" ++ toString number

/-- The least unused number whose name is free. Numbers spell different names, so one more number
than there are reserved names is enough to look at. -/
def nextNumber? (supply : NameSupply) (hint : String) (kind : ElementKind) : Option Nat :=
  (List.range' ((supply.count kind).toNat + 1) (supply.reserved.length + 1)).find? fun number =>
    number < UInt32.size && !supply.isReserved (supply.spelling hint kind number)

/-- Makes a fresh name. When the numbers of the kind run out, all of them count as used. -/
def synthesize (text : String) (kind : ElementKind) : EStateM Overflow NameSupply SyntheticName :=
  fun supply =>
    let hint := supply.hint text
    match supply.nextNumber? hint kind with
    | some number =>
      .ok ⟨supply.spelling hint kind number, kind⟩
        { supply with counters := supply.counters.set kind (.ofNat number) }
    | none =>
      .error .overflow { supply with counters := supply.counters.set kind (.ofNat (UInt32.size - 1)) }

end NameSupply

end Scribe
