/-!
A registry of services, at most one for each kind. Registering a service replaces the one before it;
whoever still holds the former instance goes on using it. Instances are numbered in the order of
their registration, and holding one means knowing its number.
-/

namespace Scribe

variable {ι : Type} [DecidableEq ι] {σ : ι → Type}

structure Registry (σ : ι → Type) where
  /-- Every instance that was ever registered, in its present state. -/
  instances : Array (Sigma σ)
  /-- The registered instance of each kind that has one. -/
  current : List (ι × Nat)

namespace Registry

def empty : Registry σ where
  instances := #[]
  current := []

def register (registry : Registry σ) (kind : ι) (service : σ kind) : Registry σ where
  instances := registry.instances.push ⟨kind, service⟩
  current := (kind, registry.instances.size) :: registry.current.filter (·.1 ≠ kind)

def remove (registry : Registry σ) (kind : ι) : Registry σ :=
  { registry with current := registry.current.filter (·.1 ≠ kind) }

/-- The number of the registered instance. -/
def number? (registry : Registry σ) (kind : ι) : Option Nat :=
  registry.current.lookup kind

/-- The state of an instance, if it is of the given kind. -/
def read? (registry : Registry σ) (kind : ι) (number : Nat) : Option (σ kind) :=
  match registry.instances[number]? with
  | some ⟨found, service⟩ => if same : found = kind then some (same ▸ service) else none
  | none => none

def write (registry : Registry σ) (kind : ι) (number : Nat) (service : σ kind) : Registry σ :=
  { registry with instances := registry.instances.setIfInBounds number ⟨kind, service⟩ }

/-- The state of the registered instance. -/
def get? (registry : Registry σ) (kind : ι) : Option (σ kind) :=
  (registry.number? kind).bind (registry.read? kind)

/-- The failure that no service of a kind is registered. -/
structure Missing (ι : Type) where
  kind : ι
deriving DecidableEq, Repr

def Missing.message (name : ι → String) (missing : Missing ι) : String :=
  "Service not registered: " ++ name missing.kind

/-- The state of the registered instance, or the failure that there is none. -/
def get (registry : Registry σ) (kind : ι) : Except (Missing ι) (σ kind) :=
  match registry.get? kind with
  | some service => .ok service
  | none => .error ⟨kind⟩

def contains (registry : Registry σ) (kind : ι) : Bool :=
  (registry.number? kind).isSome

/-- Changes the registered instance, which everyone who holds it can see. -/
def modify (registry : Registry σ) (kind : ι) (change : σ kind → σ kind) : Registry σ :=
  match registry.number? kind with
  | none => registry
  | some number =>
    match registry.read? kind number with
    | some service => registry.write kind number (change service)
    | none => registry

def size (registry : Registry σ) : Nat :=
  registry.current.length

def isEmpty (registry : Registry σ) : Bool :=
  registry.current.isEmpty

/-- The names of the registered kinds in order. -/
def names (registry : Registry σ) (name : ι → String) : List String :=
  (registry.current.map fun entry => name entry.1).mergeSort fun left right => left ≤ right

end Registry

end Scribe
