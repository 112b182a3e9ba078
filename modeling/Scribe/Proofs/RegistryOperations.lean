import Scribe.Proofs.KeyedLists
import Scribe.Proofs.RegisteredServices

/-! What can be done with a registry and with the instances it hands out. An instance keeps its number and
its kind for ever, and what is done to it is done through its number, so an instance that was replaced or
removed lives on beside the registered one. -/

namespace Scribe.Registry

variable {ι : Type} [DecidableEq ι] {σ : ι → Type}

/-- The instance that is handed out for a kind: the registered one, if it turns out to be of that kind. -/
def handle? (registry : Registry σ) (kind : ι) : Option Nat :=
  (registry.number? kind).filter fun number => (registry.read? kind number).isSome

/-- Changes an instance through its number. Where no instance of the kind has the number, nothing changes. -/
def changeAt (registry : Registry σ) (kind : ι) (number : Nat) (update : σ kind → σ kind) : Registry σ :=
  match registry.read? kind number with
  | some service => registry.write kind number (update service)
  | none => registry

inductive Operation (σ : ι → Type) where
  | register (kind : ι) (service : σ kind)
  | remove (kind : ι)
  | get (kind : ι)
  | tryGet (kind : ι)
  | change (kind : ι) (number : Nat) (update : σ kind → σ kind)

namespace Operation

def kind : Operation σ → ι
  | register kind _ | remove kind | get kind | tryGet kind | change kind _ _ => kind

def perform : Operation σ → Registry σ → Registry σ
  | register kind service, registry => registry.register kind service
  | remove kind, registry => registry.remove kind
  | get _, registry | tryGet _, registry => registry
  | change kind number update, registry => registry.changeAt kind number update

/-- The number of the instance that is handed out. -/
def answer? : Operation σ → Registry σ → Option Nat
  | register _ _, registry => some registry.instances.size
  | remove kind, registry | get kind, registry | tryGet kind, registry => registry.handle? kind
  | change _ _ _, _ => none

/-- It decides which instance of the kind is registered. -/
def Settles (kind : ι) : Operation σ → Prop
  | register other _ | remove other => other = kind
  | get _ | tryGet _ | change _ _ _ => False

def isRegistration : Operation σ → Bool
  | register _ _ => true
  | _ => false

/-- What it does to the state of an instance. -/
def updateOf (kind : ι) (number : Nat) : Operation σ → σ kind → σ kind
  | change other place update, service =>
    if same : other = kind ∧ place = number then (same.1 ▸ update) service else service
  | _, service => service

variable {operation : Operation σ} {kind : ι}

omit [DecidableEq ι] in
theorem Settles.cases (settles : operation.Settles kind) :
    (∃ service, operation = .register kind service) ∨ operation = .remove kind := by
  cases operation with
  | register other service =>
    cases settles
    exact Or.inl ⟨service, rfl⟩
  | remove other =>
    cases settles
    exact Or.inr rfl
  | get => cases settles
  | tryGet => cases settles
  | change => cases settles

omit [DecidableEq ι] in
theorem not_settles (different : operation.kind ≠ kind) : ¬ operation.Settles kind := by
  intro settles
  rcases settles.cases with ⟨service, rfl⟩ | rfl
  · exact different rfl
  · exact different rfl

theorem updateOf_other (different : operation.kind ≠ kind) (number : Nat) (service : σ kind) :
    operation.updateOf kind number service = service := by
  cases operation with
  | change other place update => exact dif_neg fun both => different both.1
  | _ => rfl

end Operation

variable {registry : Registry σ} {kind other : ι} {number : Nat}

theorem read?_eq_some_iff {service : σ kind} :
    registry.read? kind number = some service ↔ registry.instances[number]? = some ⟨kind, service⟩ := by
  constructor
  · exact instances_of_read?
  · intro stored
    simp [read?, stored]

theorem read?_register_old {service : σ kind} {added : σ other}
    (held : registry.read? kind number = some service) :
    (registry.register other added).read? kind number = some service := by
  rw [read?_eq_some_iff] at held ⊢
  obtain ⟨inside, stored⟩ := Array.getElem?_eq_some_iff.mp held
  rw [register, Array.getElem?_push_lt inside, stored]

theorem read?_register_new (registry : Registry σ) (service : σ kind) :
    (registry.register kind service).read? kind registry.instances.size = some service := by
  rw [read?_eq_some_iff, register, Array.getElem?_push_size]

theorem changeAt_of_held {service : σ kind} (held : registry.read? kind number = some service)
    (update : σ kind → σ kind) :
    registry.changeAt kind number update = registry.write kind number (update service) := by
  rw [changeAt, held]

theorem changeAt_of_missing (missing : registry.read? kind number = none) (update : σ kind → σ kind) :
    registry.changeAt kind number update = registry := by
  rw [changeAt, missing]

theorem read?_changeAt_self {service : σ kind} (held : registry.read? kind number = some service)
    (update : σ kind → σ kind) :
    (registry.changeAt kind number update).read? kind number = some (update service) := by
  rw [changeAt_of_held held]
  exact read?_write_self (update service) held

theorem read?_changeAt_other (registry : Registry σ) {place : Nat}
    (different : ¬ (other = kind ∧ place = number)) (update : σ other → σ other) :
    (registry.changeAt other place update).read? kind number = registry.read? kind number := by
  cases found : registry.read? other place with
  | none => rw [changeAt_of_missing found]
  | some old =>
    rw [changeAt_of_held found]
    by_cases sameKind : other = kind
    · have elsewhere : place ≠ number := fun samePlace => different ⟨sameKind, samePlace⟩
      simp [read?, write, elsewhere]
    · exact read?_write_other (update old) found sameKind number

/-- Whatever is done, an instance stays what it is, and only what is done through it changes its state. -/
theorem read?_perform {service : σ kind} (held : registry.read? kind number = some service)
    (operation : Operation σ) :
    (operation.perform registry).read? kind number = some (operation.updateOf kind number service) := by
  cases operation with
  | register other added => exact read?_register_old held
  | remove other => exact held
  | get other => exact held
  | tryGet other => exact held
  | change other place update =>
    rw [Operation.perform, Operation.updateOf]
    by_cases same : other = kind ∧ place = number
    · obtain ⟨rfl, rfl⟩ := same
      rw [dif_pos ⟨rfl, rfl⟩]
      exact read?_changeAt_self held update
    · rw [dif_neg same, read?_changeAt_other registry same, held]

/-- An instance comes into being by its registration only. -/
theorem registered_of_read?_perform {service : σ kind} {operation : Operation σ}
    (unread : registry.read? kind number = none)
    (read : (operation.perform registry).read? kind number = some service) :
    operation = .register kind service ∧ number = registry.instances.size := by
  have impossible {after : Registry σ} (same : after.read? kind number = registry.read? kind number)
      (read : after.read? kind number = some service) : False := by
    rw [same, unread] at read
    cases read
  cases operation with
  | register other added =>
    rw [Operation.perform, read?_eq_some_iff, register, Array.getElem?_push] at read
    split at read
    next same =>
      cases read
      exact ⟨rfl, same⟩
    next => exact (impossible rfl (read?_eq_some_iff.mpr read)).elim
  | remove other => exact (impossible rfl read).elim
  | get other => exact (impossible rfl read).elim
  | tryGet other => exact (impossible rfl read).elim
  | change other place update =>
    by_cases same : other = kind ∧ place = number
    · obtain ⟨rfl, rfl⟩ := same
      rw [Operation.perform, changeAt_of_missing unread] at read
      exact (impossible rfl read).elim
    · exact (impossible (read?_changeAt_other registry same update) read).elim

theorem current_changeAt (registry : Registry σ) (update : σ kind → σ kind) :
    (registry.changeAt kind number update).current = registry.current := by
  unfold changeAt
  cases registry.read? kind number with
  | none => rfl
  | some service => rfl

theorem size_changeAt (registry : Registry σ) (update : σ kind → σ kind) :
    (registry.changeAt kind number update).instances.size = registry.instances.size := by
  unfold changeAt
  cases registry.read? kind number with
  | none => rfl
  | some service => exact Array.size_setIfInBounds

theorem size_perform (registry : Registry σ) (operation : Operation σ) :
    (operation.perform registry).instances.size =
      registry.instances.size + if operation.isRegistration then 1 else 0 := by
  cases operation with
  | register => exact Array.size_push _
  | remove => rfl
  | get => rfl
  | tryGet => rfl
  | change => exact size_changeAt _ _

theorem number?_register (registry : Registry σ) (service : σ kind) :
    (registry.register kind service).number? kind = some registry.instances.size :=
  List.lookup_cons_self

theorem number?_remove (registry : Registry σ) (kind : ι) : (registry.remove kind).number? kind = none :=
  lookup_eq_none not_mem_keys_filter

/-- Nothing but a registration or a removal of the kind itself changes which instance is registered. -/
theorem number?_perform {operation : Operation σ} (unsettled : ¬ operation.Settles kind)
    (registry : Registry σ) : (operation.perform registry).number? kind = registry.number? kind := by
  cases operation with
  | register other added =>
    have different : kind ≠ other := fun same => unsettled same.symm
    have passed : (kind == other) = false := beq_eq_false_iff_ne.mpr different
    rw [Operation.perform, number?, register, List.lookup_cons, passed]
    exact lookup_filter_ne different
  | remove other => exact lookup_filter_ne fun same => unsettled same.symm
  | get other => rfl
  | tryGet other => rfl
  | change other place update => rw [Operation.perform, number?, current_changeAt, number?]

/-- Every registered instance is of its kind, and no kind is listed twice. -/
structure Sound (registry : Registry σ) : Prop where
  read : ∀ kind number, registry.number? kind = some number →
    ∃ service, registry.read? kind number = some service
  distinct : (registry.current.map Prod.fst).Nodup

theorem Sound.empty : Sound (Registry.empty : Registry σ) := by
  constructor
  · intro kind number numbered
    cases numbered
  · exact List.nodup_nil

theorem distinct_filter (distinct : (registry.current.map Prod.fst).Nodup) (kind : ι) :
    ((registry.current.filter (·.1 ≠ kind)).map Prod.fst).Nodup :=
  distinct.sublist (List.filter_sublist.map _)

theorem Sound.perform (sound : registry.Sound) (operation : Operation σ) :
    (operation.perform registry).Sound := by
  constructor
  · intro kind number numbered
    by_cases settles : operation.Settles kind
    · rcases settles.cases with ⟨service, rfl⟩ | rfl
      · rw [Operation.perform, number?_register] at numbered
        cases numbered
        exact ⟨service, read?_register_new registry service⟩
      · rw [Operation.perform, number?_remove] at numbered
        cases numbered
    · rw [number?_perform settles] at numbered
      obtain ⟨service, held⟩ := sound.read kind number numbered
      exact ⟨_, read?_perform held operation⟩
  · cases operation with
    | register kind service =>
      exact List.nodup_cons.mpr ⟨not_mem_keys_filter, distinct_filter sound.distinct kind⟩
    | remove kind => exact distinct_filter sound.distinct kind
    | get => exact sound.distinct
    | tryGet => exact sound.distinct
    | change kind number update =>
      rw [Operation.perform, current_changeAt]
      exact sound.distinct

theorem get_of_read? {service : σ kind} (numbered : registry.number? kind = some number)
    (held : registry.read? kind number = some service) : registry.get kind = .ok service := by
  have found : registry.get? kind = some service := by rw [get?, numbered, Option.bind_some, held]
  rw [get, found]

theorem get_of_unnumbered (unnumbered : registry.number? kind = none) : registry.get kind = .error ⟨kind⟩ := by
  have missing : registry.get? kind = none := by rw [get?, unnumbered, Option.bind_none]
  rw [get, missing]

namespace Sound

/-- Looking for a service finds the registered instance, and it fails only where there is none. -/
theorem cases_number? (sound : registry.Sound) (kind : ι) :
    (registry.number? kind = none ∧ registry.get kind = .error ⟨kind⟩) ∨
    ∃ number service, registry.number? kind = some number ∧ registry.read? kind number = some service ∧
      registry.get kind = .ok service := by
  cases numbered : registry.number? kind with
  | none => exact Or.inl ⟨rfl, get_of_unnumbered numbered⟩
  | some number =>
    obtain ⟨service, held⟩ := sound.read kind number numbered
    exact Or.inr ⟨number, service, rfl, held, get_of_read? numbered held⟩

theorem contains_iff (sound : registry.Sound) (kind : ι) :
    registry.contains kind = true ↔ ∃ service, registry.get kind = .ok service := by
  rcases sound.cases_number? kind with ⟨unnumbered, missing⟩ | ⟨number, service, numbered, -, found⟩
  · simp [contains, unnumbered, missing]
  · simp [contains, numbered, found]

theorem handle?_eq (sound : registry.Sound) (kind : ι) : registry.handle? kind = registry.number? kind := by
  rcases sound.cases_number? kind with ⟨unnumbered, -⟩ | ⟨number, service, numbered, held, -⟩
  · rw [handle?, unnumbered, Option.filter_none]
  · rw [handle?, numbered, Option.filter_some, held, Option.isSome_some, if_pos rfl]

/-- What is done with one kind goes unnoticed by every other. -/
theorem get_perform_other (sound : registry.Sound) {operation : Operation σ} (different : operation.kind ≠ kind) :
    (operation.perform registry).number? kind = registry.number? kind ∧
      (operation.perform registry).get kind = registry.get kind := by
  have same := number?_perform (Operation.not_settles different) registry
  refine ⟨same, ?_⟩
  rcases sound.cases_number? kind with ⟨unnumbered, missing⟩ | ⟨number, service, numbered, held, found⟩
  · rw [missing, get_of_unnumbered (same.trans unnumbered)]
  · have still := read?_perform held operation
    rw [Operation.updateOf_other different] at still
    rw [found, get_of_read? (same.trans numbered) still]

/-- A change shows in what is found if and only if it was made on the registered instance. -/
theorem get_change (sound : registry.Sound) {state : σ kind} (found : registry.get kind = .ok state)
    (number : Nat) (update : σ kind → σ kind) :
    ((Operation.change kind number update).perform registry).get kind =
      .ok (if registry.number? kind = some number then update state else state) := by
  rcases sound.cases_number? kind with ⟨-, missing⟩ | ⟨current, service, numbered, held, same⟩
  · rw [missing] at found
    cases found
  · rw [same] at found
    cases found
    have unsettled : ¬ (Operation.change kind number update).Settles kind := id
    have still := (number?_perform unsettled registry).trans numbered
    rw [get_of_read? still (read?_perform held _), Operation.updateOf, numbered]
    by_cases own : number = current
    · rw [dif_pos ⟨rfl, own⟩, if_pos (congrArg some own.symm)]
    · rw [dif_neg fun both => own both.2, if_neg fun shared => own (Option.some.inj shared).symm]

end Sound

theorem mem_kinds_iff (registry : Registry σ) (kind : ι) :
    kind ∈ registry.current.map Prod.fst ↔ registry.contains kind = true := by
  rw [contains, number?, List.lookup_isSome_iff, List.mem_map]
  constructor
  · intro ⟨entry, member, same⟩
    exact ⟨entry, member, beq_iff_eq.mpr same.symm⟩
  · intro ⟨entry, member, same⟩
    exact ⟨entry, member, (beq_iff_eq.mp same).symm⟩

omit [DecidableEq ι] in
theorem names_sorted (registry : Registry σ) (name : ι → String) :
    (registry.names name).Pairwise (· ≤ ·) := by
  have sorted (texts : List String) : (texts.mergeSort fun left right => left ≤ right).Pairwise
      fun left right => decide (left ≤ right) = true := by
    apply List.pairwise_mergeSort
    · intro low middle high first second
      exact decide_eq_true (String.le_trans (of_decide_eq_true first) (of_decide_eq_true second))
    · intro left right
      simpa using String.le_total left right
  exact (sorted _).imp of_decide_eq_true

end Scribe.Registry
