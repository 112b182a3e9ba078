import Mathlib.Data.List.Induction
import Scribe.Proofs.RegistryOperations
import Scribe.Registry.Service

/-! Runs of a registry. Which instance of a kind is registered is settled by the last registration or removal
of the kind alone, and the state of an instance by what was done through it since its own registration. -/

namespace Scribe.Registry

variable {ι : Type} [DecidableEq ι] {σ : ι → Type}

def after (registry : Registry σ) (operations : List (Operation σ)) : Registry σ :=
  operations.foldl (fun registry operation => operation.perform registry) registry

def run (operations : List (Operation σ)) : Registry σ :=
  empty.after operations

/-- The instances that were handed out along the way, each for its kind. -/
def handles : Registry σ → List (Operation σ) → List (ι × Nat)
  | _, [] => []
  | registry, operation :: rest =>
    ((operation.answer? registry).map (operation.kind, ·)).toList ++ handles (operation.perform registry) rest

def registrations (operations : List (Operation σ)) : Nat :=
  operations.countP Operation.isRegistration

/-- The state of an instance after all that was done through it, in order. -/
def updated (kind : ι) (number : Nat) (operations : List (Operation σ)) (service : σ kind) : σ kind :=
  operations.foldl (fun service operation => operation.updateOf kind number service) service

/-- The last registration of the kind that no other registration or removal of the kind follows. -/
structure Latest (operations : List (Operation σ)) (kind : ι) (earlier : List (Operation σ))
    (service : σ kind) (later : List (Operation σ)) : Prop where
  split : operations = earlier ++ .register kind service :: later
  last : ∀ operation ∈ later, ¬ operation.Settles kind

variable {registry : Registry σ} {kind : ι} {number : Nat}

theorem read?_after {service : σ kind} (held : registry.read? kind number = some service)
    (operations : List (Operation σ)) :
    (registry.after operations).read? kind number = some (updated kind number operations service) := by
  induction operations generalizing registry service with
  | nil => exact held
  | cons operation rest ih => exact ih (read?_perform held operation)

theorem size_after (registry : Registry σ) (operations : List (Operation σ)) :
    (registry.after operations).instances.size = registry.instances.size + registrations operations := by
  induction operations generalizing registry with
  | nil => rfl
  | cons operation rest ih =>
    rw [after, List.foldl_cons, ← after, ih, size_perform, registrations, registrations, List.countP_cons,
      Nat.add_assoc, Nat.add_comm (List.countP _ rest)]

theorem number?_after {operations : List (Operation σ)}
    (unsettled : ∀ operation ∈ operations, ¬ operation.Settles kind) (registry : Registry σ) :
    (registry.after operations).number? kind = registry.number? kind := by
  induction operations generalizing registry with
  | nil => rfl
  | cons operation rest ih =>
    obtain ⟨first, others⟩ := List.forall_mem_cons.mp unsettled
    exact (ih others (operation.perform registry)).trans (number?_perform first registry)

theorem Sound.after (sound : registry.Sound) (operations : List (Operation σ)) :
    (registry.after operations).Sound := by
  induction operations generalizing registry with
  | nil => exact sound
  | cons operation rest ih => exact ih (sound.perform operation)

theorem after_append (registry : Registry σ) (first second : List (Operation σ)) :
    registry.after (first ++ second) = (registry.after first).after second :=
  List.foldl_append

section History

variable {operations earlier later : List (Operation σ)} {service : σ kind}

theorem run_append (first second : List (Operation σ)) :
    (run (first ++ second) : Registry σ) = (run first).after second :=
  after_append empty first second

theorem size_run (operations : List (Operation σ)) :
    (run operations).instances.size = registrations operations :=
  (size_after empty operations).trans (Nat.zero_add _)

theorem sound_run (operations : List (Operation σ)) : (run operations).Sound :=
  Sound.empty.after operations

/-- The number of an instance is the number of registrations before its own. -/
theorem read?_of_registration (split : operations = earlier ++ .register kind service :: later) :
    (run operations).read? kind (registrations earlier) =
      some (updated kind (registrations earlier) later service) := by
  rw [split, run_append, ← size_run]
  exact read?_after (read?_register_new (run earlier) service) later

theorem Latest.number? (latest : Latest operations kind earlier service later) :
    (run operations).number? kind = some (registrations earlier) := by
  rw [latest.split, run_append, ← size_run]
  exact (number?_after latest.last _).trans (number?_register (run earlier) service)

omit [DecidableEq ι] in
theorem Latest.concat (latest : Latest operations kind earlier service later) {operation : Operation σ}
    (unsettled : ¬ operation.Settles kind) :
    Latest (operations ++ [operation]) kind earlier service (later ++ [operation]) := by
  constructor
  · rw [latest.split, List.append_assoc, List.cons_append]
  · exact List.forall_mem_append.mpr ⟨latest.last, List.forall_mem_singleton.mpr unsettled⟩

theorem exists_latest (operations : List (Operation σ)) (numbered : (run operations).number? kind = some number) :
    ∃ earlier service later, Latest operations kind earlier service later := by
  -- From the end of the run: the first operation met that settles the kind is the one that counts.
  induction operations using List.reverseRecOn with
  | nil => cases numbered
  | append_singleton operations operation ih =>
    rw [run_append] at numbered
    by_cases settles : operation.Settles kind
    · rcases settles.cases with ⟨service, rfl⟩ | rfl
      · exact ⟨operations, service, [], rfl, List.forall_mem_nil _⟩
      · have unnumbered := number?_remove (run operations) kind
        exact absurd (unnumbered.symm.trans numbered) (Option.some_ne_none number).symm
    · obtain ⟨earlier, service, later, latest⟩ := ih ((number?_perform settles _).symm.trans numbered)
      exact ⟨earlier, service, later ++ [operation], latest.concat settles⟩

theorem exists_registration (operations : List (Operation σ)) {state : σ kind}
    (held : (run operations).read? kind number = some state) :
    ∃ earlier service later, operations = earlier ++ .register kind service :: later ∧
      number = registrations earlier := by
  induction operations using List.reverseRecOn generalizing state with
  | nil => cases held
  | append_singleton operations operation ih =>
    rw [run_append] at held
    -- An instance that was not there before the last operation was registered by it.
    cases before : (run operations).read? kind number with
    | none =>
      obtain ⟨rfl, place⟩ := registered_of_read?_perform before held
      exact ⟨operations, state, [], rfl, place.trans (size_run operations)⟩
    | some old =>
      obtain ⟨earlier, service, later, split, place⟩ := ih before
      refine ⟨earlier, service, later ++ [operation], ?_, place⟩
      rw [split, List.append_assoc, List.cons_append]

theorem handles_append (registry : Registry σ) (first second : List (Operation σ)) :
    handles registry (first ++ second) = handles registry first ++ handles (registry.after first) second := by
  induction first generalizing registry with
  | nil => rfl
  | cons operation rest ih =>
    rw [List.cons_append, handles, ih, handles, List.append_assoc]
    rfl

theorem read?_of_answer? {operation : Operation σ} (answered : operation.answer? registry = some number) :
    ∃ state, (operation.perform registry).read? operation.kind number = some state := by
  have registered {kind : ι} (handed : registry.handle? kind = some number) :
      ∃ state, registry.read? kind number = some state :=
    Option.isSome_iff_exists.mp (Option.filter_eq_some_iff.mp handed).2
  cases operation with
  | register kind service =>
    cases answered
    exact ⟨service, read?_register_new registry service⟩
  | remove kind => exact registered answered
  | get kind => exact registered answered
  | tryGet kind => exact registered answered
  | change => cases answered

theorem read?_of_mem_handles (operations : List (Operation σ)) (registry : Registry σ)
    (handed : (kind, number) ∈ handles registry operations) :
    ∃ state, (registry.after operations).read? kind number = some state := by
  induction operations generalizing registry with
  | nil => cases handed
  | cons operation rest ih =>
    rcases List.mem_append.mp handed with now | later
    · rw [Option.mem_toList, Option.map_eq_some_iff] at now
      obtain ⟨answer, answered, same⟩ := now
      cases same
      obtain ⟨state, held⟩ := read?_of_answer? answered
      exact ⟨_, read?_after held rest⟩
    · exact ih (operation.perform registry) later

/-- The instances that were handed out are those that exist, each under its own kind. -/
theorem mem_handles_iff (operations : List (Operation σ)) (kind : ι) (number : Nat) :
    (kind, number) ∈ handles (empty : Registry σ) operations ↔
      ∃ state, (run operations).read? kind number = some state := by
  constructor
  · exact read?_of_mem_handles operations empty
  · intro ⟨state, held⟩
    obtain ⟨earlier, service, later, split, place⟩ := exists_registration operations held
    rw [split, handles_append]
    apply List.mem_append_right
    rw [handles]
    apply List.mem_append_left
    rw [place, Operation.answer?, ← run, size_run]
    exact List.mem_singleton.mpr rfl

end History

/-- Over a whole run, a kind stands for the instance of its last registration, unless the kind was removed
since. All instances live on side by side: each shows what was done through it, and nothing that was done
through another one. -/
theorem runs_follow_latest_registration (name : ι → String) (operations : List (Operation σ)) :
    (∀ kind, (run operations).contains kind = true ↔
      ∃ service, (run operations).get kind = .ok service) ∧
    (∀ kind earlier service later, operations = earlier ++ .register kind service :: later →
      (Operation.register kind service).answer? (run earlier) = some (registrations earlier) ∧
      (run operations).read? kind (registrations earlier) =
        some (updated kind (registrations earlier) later service)) ∧
    (∀ kind earlier service later, Latest operations kind earlier service later →
      (run operations).handle? kind = some (registrations earlier) ∧
      (run operations).get kind = .ok (updated kind (registrations earlier) later service)) ∧
    (∀ kind, (¬ ∃ earlier service later, Latest operations kind earlier service later) →
      ∃ missing, (run operations).get kind = .error missing ∧
        missing.message name = "Service not registered: " ++ name kind) ∧
    (∀ kind number, (kind, number) ∈ handles empty operations ↔
      ∃ state, (run operations).read? kind number = some state) ∧
    (∀ kind state, (run operations).get kind = .ok state → ∀ number update,
      (run (operations ++ [.change kind number update])).get kind =
        .ok (if (run operations).handle? kind = some number then update state else state)) ∧
    (∀ operation kind, operation.kind ≠ kind →
      (run (operations ++ [operation])).handle? kind = (run operations).handle? kind ∧
      (run (operations ++ [operation])).get kind = (run operations).get kind) ∧
    ∃ kinds : List ι, kinds.Nodup ∧ (∀ kind, kind ∈ kinds ↔ (run operations).contains kind = true) ∧
      (run operations).size = kinds.length ∧
      ((run operations).names name).Pairwise (· ≤ ·) ∧
      ((run operations).names name).Perm (kinds.map name) := by
  have sound := sound_run operations
  refine ⟨sound.contains_iff, ?_, ?_, ?_, mem_handles_iff operations, ?_, ?_, ?_⟩
  · intro kind earlier service later split
    exact ⟨congrArg some (size_run earlier), read?_of_registration split⟩
  · intro kind earlier service later latest
    refine ⟨(sound.handle?_eq kind).trans latest.number?, ?_⟩
    exact get_of_read? latest.number? (read?_of_registration latest.split)
  · intro kind unregistered
    have unnumbered : (run operations).number? kind = none := by
      apply Option.eq_none_iff_forall_ne_some.mpr
      intro number numbered
      exact unregistered (exists_latest operations numbered)
    exact ⟨⟨kind⟩, get_of_unnumbered unnumbered, rfl⟩
  · intro kind state found number update
    rw [sound.handle?_eq, run_append]
    exact sound.get_change found number update
  · intro operation kind different
    rw [(sound_run _).handle?_eq, sound.handle?_eq, run_append]
    exact sound.get_perform_other different
  · refine ⟨(run operations).current.map Prod.fst, sound.distinct, mem_kinds_iff _, ?_, names_sorted _ name, ?_⟩
    · exact (List.length_map _).symm
    · rw [List.map_map]
      exact List.mergeSort_perm _ _

/-- A number is replaced and both are changed; a text comes and goes. -/
def busyOperations : List (Operation ServiceKind.Service) :=
  [.register .number (1 : UInt32), .register .text "a", .register .number (2 : UInt32),
    .change .number 0 fun number : UInt32 => number + 5, .remove .text,
    .change .number 2 fun number : UInt32 => number + 7]

theorem replaced_number_lives_on :
    Latest busyOperations .number (busyOperations.take 2) (2 : UInt32) (busyOperations.drop 3) ∧
      (run busyOperations).handle? .number = some 2 ∧
      (run busyOperations).get .number = .ok (9 : UInt32) ∧
      (run busyOperations).read? .number 0 = some (6 : UInt32) ∧
      ∃ missing, (run busyOperations).get .text = .error missing ∧
        missing.message ServiceKind.name = "Service not registered: alloc::string::String" := by
  obtain ⟨-, registered, latest, missing, -⟩ := runs_follow_latest_registration ServiceKind.name busyOperations
  have last : Latest busyOperations .number (busyOperations.take 2) (2 : UInt32) (busyOperations.drop 3) := by
    refine ⟨rfl, ?_⟩
    simp [busyOperations, Operation.Settles]
  have unregistered : ¬ ∃ earlier service later, Latest busyOperations .text earlier service later := by
    intro ⟨earlier, service, later, held⟩
    have found := (latest .text earlier service later held).1
    cases found
  obtain ⟨handed, found⟩ := latest _ _ _ _ last
  exact ⟨last, handed, found, (registered .number [] (1 : UInt32) (busyOperations.drop 1) rfl).2,
    missing .text unregistered⟩

end Scribe.Registry
