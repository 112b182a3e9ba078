import Scribe.Run.Stop

/-!
Memo tables. A value is made at most once for each key and never changes afterwards. Making one may
use the same table again, even for the same key: then the value that was stored first stays.
-/

namespace Scribe

variable {κ ν ε σ : Type} [DecidableEq κ]

structure Memo (κ ν : Type) where
  /-- The stored values, the latest first; no key occurs twice. -/
  entries : List (κ × ν)
  /-- Calls that found an entry. This counter and the next have no bound: they stand for numbers of 64
  bits, which no run uses up. -/
  hits : Nat
  /-- Values that had to be made. -/
  misses : Nat

namespace Memo

def empty : Memo κ ν where
  entries := []
  hits := 0
  misses := 0

def size (memo : Memo κ ν) : Nat :=
  memo.entries.length

def find? (memo : Memo κ ν) (key : κ) : Option ν :=
  memo.entries.lookup key

def contains (memo : Memo κ ν) (key : κ) : Bool :=
  (memo.find? key).isSome

def countHit (memo : Memo κ ν) : Memo κ ν :=
  { memo with hits := memo.hits + 1 }

def countMiss (memo : Memo κ ν) : Memo κ ν :=
  { memo with misses := memo.misses + 1 }

/-- Stores a value unless the key has one. -/
def store (memo : Memo κ ν) (key : κ) (value : ν) : Memo κ ν :=
  if memo.contains key then memo else { memo with entries := (key, value) :: memo.entries }

/-- A value that is found counts as a hit; one that is not counts as nothing. -/
def lookup (memo : Memo κ ν) (key : κ) : Option ν × Memo κ ν :=
  match memo.find? key with
  | some value => (some value, memo.countHit)
  | none => (none, memo)

/-- The value of a key, made by `make` if there is none. The table is the given part of the state, so
`make` may change it. A failure or an abort of `make` stores nothing. -/
def getOrMake (part : Lens σ (Memo κ ν)) (key : κ) (make : Action ε σ ν) : Action ε σ ν :=
  fun state =>
    match (part.get state).find? key with
    | some value => .ok value (part.modify countHit state)
    | none =>
      match make (part.modify countMiss state) with
      | .ok value after =>
        .ok (((part.get after).find? key).getD value) (part.modify (·.store key value) after)
      | .error stop after => .error stop after

end Memo

end Scribe
