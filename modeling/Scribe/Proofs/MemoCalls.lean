import Scribe.Memo.Basic
import Scribe.Proofs.Exits

/-! Runs of calls on one memo table. Making a value may call the table again, for any key and to any
depth, and may fail. All the same an entry never changes once it is there, and whatever a call returns
for a key is the key's entry. -/

namespace Scribe.Memo

variable {κ ν ε : Type} [DecidableEq κ]

/-- A finite tree of calls on one table. What follows a call may depend on how it ended, and making a
value is a tree of its own, which may ask for the same key again. It ends with the value or it stops;
one that is never to fail is one that has no `stop`. -/
inductive CallTree (κ ν ε : Type) where
  | finish (value : ν)
  | stop (cause : Stop ε)
  | lookup (key : κ) (next : Option ν → CallTree κ ν ε)
  | getOrMake (key : κ) (make : CallTree κ ν ε) (next : Except (Stop ε) ν → CallTree κ ν ε)

inductive Event (κ ν ε : Type) where
  | found (key : κ) (value : ν)
  | absent (key : κ)
  | making (key : κ)
  | made (key : κ) (value : ν)
  | failed (key : κ) (cause : Stop ε)
deriving DecidableEq, Repr

/-- The key that a call was for and the value that it returned. -/
def Event.returned? : Event κ ν ε → Option (κ × ν)
  | .found key value => some (key, value)
  | .made key value => some (key, value)
  | _ => none

/-- How a call for a key has ended, where `silent` says that nothing has happened in between. -/
def Event.ofCall (key : κ) (silent : Bool) : Except (Stop ε) ν → Event κ ν ε
  | .ok value => if silent then .found key value else .made key value
  | .error cause => .failed key cause

/-- An event together with the table right after it. -/
structure Moment (κ ν ε : Type) where
  event : Event κ ν ε
  table : Memo κ ν

/-- A table and the log of what has happened on it. -/
structure Journal (κ ν ε : Type) where
  table : Memo κ ν
  moments : List (Moment κ ν ε)

namespace Journal

def tablePart : Lens (Journal κ ν ε) (Memo κ ν) where
  get := table
  modify change journal := { journal with table := change journal.table }

def note (event : Event κ ν ε) (journal : Journal κ ν ε) : Journal κ ν ε :=
  { journal with moments := journal.moments ++ [⟨event, journal.table⟩] }

end Journal

namespace CallTree

def run : CallTree κ ν ε → Action ε (Memo κ ν) ν
  | .finish value => pure value
  | .stop cause => throw cause
  | .lookup key next => fun memo =>
    let (found, after) := memo.lookup key
    (next found).run after
  | .getOrMake key make next => do
    let result ← Action.settle (Memo.getOrMake Lens.self key make.run)
    (next result).run

/-- The run with a log. A maker notes that it starts before it does anything else, so the note is there
just when the call has run its maker; a call that adds nothing to the log has found an entry. -/
def record : CallTree κ ν ε → Action ε (Journal κ ν ε) ν
  | .finish value => pure value
  | .stop cause => throw cause
  | .lookup key next => fun journal =>
    let (found, after) := journal.table.lookup key
    (next found).record
      (Journal.note (found.elim (.absent key) (.found key)) { journal with table := after })
  | .getOrMake key make next => do
    let before ← get
    let result ← Action.settle (Memo.getOrMake Journal.tablePart key do
      modify (Journal.note (.making key))
      make.record)
    modify fun after => after.note (.ofCall key (after.moments.drop before.moments.length).isEmpty result)
    (next result).record

/-- The moments of a run in order. A value that is made has its own moments before the call for it
returns. -/
def trace (tree : CallTree κ ν ε) (memo : Memo κ ν) : List (Moment κ ν ε) :=
  (stateAfter tree.record ⟨memo, []⟩).moments

end CallTree

/-- Every entry of the first table is an entry of the second. -/
def Extends (before after : Memo κ ν) : Prop :=
  ∀ key value, before.find? key = some value → after.find? key = some value

theorem Extends.refl (memo : Memo κ ν) : Extends memo memo :=
  fun _ _ found => found

theorem Extends.trans {first middle last : Memo κ ν} (before : Extends first middle)
    (after : Extends middle last) : Extends first last :=
  fun key value found => after key value (before key value found)

theorem store_of_absent {memo : Memo κ ν} {key : κ} (absent : memo.find? key = none) (value : ν) :
    memo.store key value = { memo with entries := (key, value) :: memo.entries } := by
  simp [store, contains, absent]

theorem store_of_present {memo : Memo κ ν} {key : κ} {held : ν} (present : memo.find? key = some held)
    (value : ν) : memo.store key value = memo := by
  simp [store, contains, present]

theorem find?_store (memo : Memo κ ν) (key : κ) (value : ν) :
    (memo.store key value).find? key = some ((memo.find? key).getD value) := by
  cases held : memo.find? key with
  | none => simp [store_of_absent held, find?]
  | some stored => simp [store_of_present held, held]

theorem extends_store (memo : Memo κ ν) (key : κ) (value : ν) :
    Extends memo (memo.store key value) := by
  intro other stored found
  cases held : memo.find? key with
  | none =>
    have different : (other == key) = false := by
      apply beq_eq_false_iff_ne.mpr
      rintro rfl
      simp [held] at found
    rw [store_of_absent held, find?, List.lookup_cons, different]
    exact found
  | some present =>
    rw [store_of_present held]
    exact found

theorem lookup_found {memo : Memo κ ν} {key : κ} {value : ν} (found : memo.find? key = some value) :
    memo.lookup key = (some value, memo.countHit) := by
  simp only [lookup, found]

theorem getOrMake_found {memo : Memo κ ν} {key : κ} {value : ν} (make : Action ε (Memo κ ν) ν)
    (found : memo.find? key = some value) :
    getOrMake Lens.self key make memo = .ok value memo.countHit := by
  simp [getOrMake, Lens.self, found]

theorem getOrMake_made {memo after : Memo κ ν} {key : κ} {own : ν} {make : Action ε (Memo κ ν) ν}
    (absent : memo.find? key = none) (made : make memo.countMiss = .ok own after) :
    getOrMake Lens.self key make memo =
      .ok ((after.find? key).getD own) (after.store key own) := by
  simp [getOrMake, Lens.self, absent, made]

theorem getOrMake_failed {memo after : Memo κ ν} {key : κ} {cause : Stop ε}
    {make : Action ε (Memo κ ν) ν} (absent : memo.find? key = none)
    (failed : make memo.countMiss = .error cause after) :
    getOrMake Lens.self key make memo = .error cause after := by
  simp [getOrMake, Lens.self, absent, failed]

/-- How a moment comes about: what its event says of the table before it, and the table that it leaves. -/
inductive Moves (before : Memo κ ν) : Moment κ ν ε → Prop where
  | found {key : κ} {value : ν} (held : before.find? key = some value) :
      Moves before ⟨.found key value, before.countHit⟩
  | absent {key : κ} (missing : before.find? key = none) : Moves before ⟨.absent key, before⟩
  | making {key : κ} (missing : before.find? key = none) : Moves before ⟨.making key, before.countMiss⟩
  | made (key : κ) (own : ν) :
      Moves before ⟨.made key ((before.find? key).getD own), before.store key own⟩
  | failed (key : κ) (cause : Stop ε) : Moves before ⟨.failed key cause, before⟩

/-- Moments that lead from one table to another, each from the table that the one before it has left. -/
inductive Leads : Memo κ ν → List (Moment κ ν ε) → Memo κ ν → Prop where
  | refl {memo : Memo κ ν} : Leads memo [] memo
  | step {before after : Memo κ ν} {moment : Moment κ ν ε} {rest : List (Moment κ ν ε)}
      (moves : Moves before moment) (later : Leads moment.table rest after) :
      Leads before (moment :: rest) after

theorem Leads.append {first middle last : Memo κ ν} {early late : List (Moment κ ν ε)}
    (before : Leads first early middle) (afterwards : Leads middle late last) :
    Leads first (early ++ late) last := by
  induction before with
  | refl => exact afterwards
  | step moves later ih => exact .step moves (ih afterwards)

namespace CallTree

variable {memo after : Memo κ ν} {key : κ} {make : CallTree κ ν ε}

theorem run_getOrMake (key : κ) (make : CallTree κ ν ε) (next : Except (Stop ε) ν → CallTree κ ν ε)
    (memo : Memo κ ν) :
    (CallTree.getOrMake key make next).run memo =
      match Memo.getOrMake Lens.self key make.run memo with
      | .ok value after => (next (.ok value)).run after
      | .error cause after => (next (.error cause)).run after := by
  simp only [run, bind, EStateM.bind, Action.settle]
  cases Memo.getOrMake Lens.self key make.run memo <;> rfl

/-- The run with a log ends as the run without one, and adds the given moments to the log. -/
def Logs (tree : CallTree κ ν ε) (memo : Memo κ ν) (moments : List (Moment κ ν ε)) : Prop :=
  ∀ before, tree.record ⟨memo, before⟩ =
    match tree.run memo with
    | .ok value after => .ok value ⟨after, before ++ moments⟩
    | .error cause after => .error cause ⟨after, before ++ moments⟩

theorem Logs.trace_eq {tree : CallTree κ ν ε} {moments : List (Moment κ ν ε)} (logs : tree.Logs memo moments) :
    tree.trace memo = moments := by
  rw [trace, stateAfter, logs []]
  cases tree.run memo <;> rfl

theorem record_getOrMake (key : κ) (make : CallTree κ ν ε) (next : Except (Stop ε) ν → CallTree κ ν ε)
    (journal : Journal κ ν ε) :
    (CallTree.getOrMake key make next).record journal =
      match Memo.getOrMake Journal.tablePart key (fun started => make.record (started.note (.making key)))
        journal with
      | .ok value after =>
        (next (.ok value)).record
          (after.note (.ofCall key (after.moments.drop journal.moments.length).isEmpty (.ok value)))
      | .error cause after => (next (.error cause)).record (after.note (.failed key cause)) := by
  rw [record]
  change EStateM.bind (Action.settle (Memo.getOrMake Journal.tablePart key fun started =>
    make.record (started.note (.making key)))) _ journal = _
  simp only [EStateM.bind, Action.settle]
  cases Memo.getOrMake Journal.tablePart key (fun started => make.record (started.note (.making key)))
    journal <;> rfl

theorem Logs.lookup {next : Option ν → CallTree κ ν ε} {moments : List (Moment κ ν ε)}
    (later : (next (memo.find? key)).Logs (memo.lookup key).2 moments) :
    (CallTree.lookup key next).Logs memo
      (⟨(memo.find? key).elim (.absent key) (.found key), (memo.lookup key).2⟩ :: moments) := by
  intro before
  have logged := later (before ++
    [⟨(memo.find? key).elim (.absent key) (.found key), (memo.lookup key).2⟩])
  rw [List.append_assoc, List.singleton_append] at logged
  cases held : memo.find? key <;>
    simpa only [record, run, Memo.lookup, Journal.note, held] using logged

theorem Logs.found {next : Except (Stop ε) ν → CallTree κ ν ε} {moments : List (Moment κ ν ε)} {value : ν}
    (held : memo.find? key = some value) (later : (next (.ok value)).Logs memo.countHit moments) :
    (CallTree.getOrMake key make next).Logs memo (⟨.found key value, memo.countHit⟩ :: moments) := by
  intro before
  have logged := later (before ++ [⟨.found key value, memo.countHit⟩])
  rw [List.append_assoc, List.singleton_append] at logged
  simpa [record_getOrMake, run_getOrMake, Memo.getOrMake, Journal.tablePart, Journal.note, Lens.self, held,
    Event.ofCall] using logged

theorem Logs.made {next : Except (Stop ε) ν → CallTree κ ν ε} {inside moments : List (Moment κ ν ε)} {own : ν}
    (missing : memo.find? key = none) (making : make.Logs memo.countMiss inside)
    (made : make.run memo.countMiss = .ok own after)
    (later : (next (.ok ((after.find? key).getD own))).Logs (after.store key own) moments) :
    (CallTree.getOrMake key make next).Logs memo
      (⟨.making key, memo.countMiss⟩ :: (inside ++
        ⟨.made key ((after.find? key).getD own), after.store key own⟩ :: moments)) := by
  intro before
  have started := making (before ++ [⟨.making key, memo.countMiss⟩])
  have logged := later (before ++ ⟨.making key, memo.countMiss⟩ :: inside ++
    [⟨.made key ((after.find? key).getD own), after.store key own⟩])
  simp only [made, List.append_assoc, List.singleton_append] at started
  simp only [List.append_assoc, List.cons_append] at logged
  simpa [record_getOrMake, run_getOrMake, Memo.getOrMake, Journal.tablePart, Journal.note, Lens.self, missing,
    made, started, Event.ofCall] using logged

theorem Logs.failed {next : Except (Stop ε) ν → CallTree κ ν ε} {inside moments : List (Moment κ ν ε)}
    {cause : Stop ε} (missing : memo.find? key = none) (making : make.Logs memo.countMiss inside)
    (failed : make.run memo.countMiss = .error cause after) (later : (next (.error cause)).Logs after moments) :
    (CallTree.getOrMake key make next).Logs memo
      (⟨.making key, memo.countMiss⟩ :: (inside ++ ⟨.failed key cause, after⟩ :: moments)) := by
  intro before
  have started := making (before ++ [⟨.making key, memo.countMiss⟩])
  have logged := later (before ++ ⟨.making key, memo.countMiss⟩ :: inside ++ [⟨.failed key cause, after⟩])
  simp only [failed, List.append_assoc, List.singleton_append] at started
  simp only [List.append_assoc, List.cons_append] at logged
  simpa [record_getOrMake, run_getOrMake, Memo.getOrMake, Journal.tablePart, Journal.note, Lens.self, missing,
    failed, started] using logged

theorem exists_logs (tree : CallTree κ ν ε) (memo : Memo κ ν) : ∃ moments, tree.Logs memo moments := by
  induction tree generalizing memo with
  | finish value =>
    refine ⟨[], fun before => ?_⟩
    rw [List.append_nil]
    rfl
  | stop cause =>
    refine ⟨[], fun before => ?_⟩
    rw [List.append_nil]
    rfl
  | lookup key next ih =>
    obtain ⟨moments, later⟩ := ih (memo.find? key) (memo.lookup key).2
    exact ⟨_, later.lookup⟩
  | getOrMake key make next ihMake ihNext =>
    cases held : memo.find? key with
    | some value =>
      obtain ⟨moments, later⟩ := ihNext (.ok value) memo.countHit
      exact ⟨_, later.found held⟩
    | none =>
      obtain ⟨inside, making⟩ := ihMake memo.countMiss
      cases ended : make.run memo.countMiss with
      | ok own after =>
        obtain ⟨moments, later⟩ := ihNext (.ok ((after.find? key).getD own)) (after.store key own)
        exact ⟨_, .made held making ended later⟩
      | error cause after =>
        obtain ⟨moments, later⟩ := ihNext (.error cause) after
        exact ⟨_, .failed held making ended later⟩

/-- Keeping the log changes nothing in the run. -/
theorem logs_trace (tree : CallTree κ ν ε) (memo : Memo κ ν) : tree.Logs memo (tree.trace memo) := by
  obtain ⟨moments, logs⟩ := tree.exists_logs memo
  rw [logs.trace_eq]
  exact logs

theorem trace_lookup (key : κ) (next : Option ν → CallTree κ ν ε) (memo : Memo κ ν) :
    (CallTree.lookup key next).trace memo =
      ⟨(memo.find? key).elim (.absent key) (.found key), (memo.lookup key).2⟩ ::
        (next (memo.find? key)).trace (memo.lookup key).2 :=
  (Logs.lookup (logs_trace _ _)).trace_eq

theorem trace_found {value : ν} (next : Except (Stop ε) ν → CallTree κ ν ε)
    (held : memo.find? key = some value) :
    (CallTree.getOrMake key make next).trace memo =
      ⟨.found key value, memo.countHit⟩ :: (next (.ok value)).trace memo.countHit :=
  (Logs.found held (logs_trace _ _)).trace_eq

theorem trace_made {own : ν} (next : Except (Stop ε) ν → CallTree κ ν ε) (missing : memo.find? key = none)
    (made : make.run memo.countMiss = .ok own after) :
    (CallTree.getOrMake key make next).trace memo =
      ⟨.making key, memo.countMiss⟩ :: (make.trace memo.countMiss ++
        ⟨.made key ((after.find? key).getD own), after.store key own⟩ ::
          (next (.ok ((after.find? key).getD own))).trace (after.store key own)) :=
  (Logs.made missing (logs_trace _ _) made (logs_trace _ _)).trace_eq

theorem trace_failed {cause : Stop ε} (next : Except (Stop ε) ν → CallTree κ ν ε)
    (missing : memo.find? key = none) (failed : make.run memo.countMiss = .error cause after) :
    (CallTree.getOrMake key make next).trace memo =
      ⟨.making key, memo.countMiss⟩ :: (make.trace memo.countMiss ++
        ⟨.failed key cause, after⟩ :: (next (.error cause)).trace after) :=
  (Logs.failed missing (logs_trace _ _) failed (logs_trace _ _)).trace_eq

theorem leads (tree : CallTree κ ν ε) (memo : Memo κ ν) :
    Leads memo (tree.trace memo) (stateAfter tree.run memo) := by
  induction tree generalizing memo with
  | finish value => exact .refl
  | stop cause => exact .refl
  | lookup key next ih =>
    rw [trace_lookup]
    cases held : memo.find? key with
    | none =>
      simp only [run, stateAfter, Memo.lookup, held]
      exact .step (.absent held) (ih none memo)
    | some value =>
      simp only [run, stateAfter, Memo.lookup, held]
      exact .step (.found held) (ih (some value) memo.countHit)
  | getOrMake key make next ihMake ihNext =>
    cases held : memo.find? key with
    | some value =>
      rw [trace_found next held]
      simp only [stateAfter, run_getOrMake, getOrMake_found _ held]
      exact .step (.found held) (ihNext (.ok value) memo.countHit)
    | none =>
      have inner := ihMake memo.countMiss
      cases ended : make.run memo.countMiss with
      | ok own after =>
        rw [trace_made next held ended]
        simp only [stateAfter, ended] at inner
        simp only [stateAfter, run_getOrMake, getOrMake_made held ended]
        exact .step (.making held) (inner.append (.step (.made key own) (ihNext _ _)))
      | error cause after =>
        rw [trace_failed next held ended]
        simp only [stateAfter, ended] at inner
        simp only [stateAfter, run_getOrMake, getOrMake_failed held ended]
        exact .step (.making held) (inner.append (.step (.failed key cause) (ihNext _ _)))

end CallTree

theorem Moves.extends {before : Memo κ ν} {moment : Moment κ ν ε} (moves : Moves before moment) :
    Extends before moment.table := by
  cases moves with
  | found | absent | making | failed => exact .refl before
  | made key own => exact extends_store before key own

theorem Moves.agrees {before : Memo κ ν} {moment : Moment κ ν ε} (moves : Moves before moment) (key : κ)
    (value : ν) (returned : moment.event.returned? = some (key, value)) :
    moment.table.find? key = some value := by
  cases moves with
  | found held =>
    cases returned
    exact held
  | made key own =>
    cases returned
    exact find?_store before key own
  | absent | making | failed => cases returned

/-- Tables only grow from moment to moment, and what a call returns is an entry when it returns. -/
inductive Grows : Memo κ ν → List (Moment κ ν ε) → Memo κ ν → Prop where
  | refl {memo : Memo κ ν} : Grows memo [] memo
  | step {before after : Memo κ ν} {moment : Moment κ ν ε} {rest : List (Moment κ ν ε)}
      (growth : Extends before moment.table)
      (agrees : ∀ key value, moment.event.returned? = some (key, value) →
        moment.table.find? key = some value)
      (later : Grows moment.table rest after) : Grows before (moment :: rest) after

theorem Grows.extends {before after : Memo κ ν} {moments : List (Moment κ ν ε)}
    (grows : Grows before moments after) : Extends before after := by
  induction grows with
  | refl => exact .refl _
  | step growth agrees later ih => exact growth.trans ih

theorem Leads.grows {before after : Memo κ ν} {moments : List (Moment κ ν ε)}
    (leads : Leads before moments after) : Grows before moments after := by
  induction leads with
  | refl => exact .refl
  | step moves later ih => exact .step moves.extends moves.agrees ih

theorem CallTree.grows (tree : CallTree κ ν ε) (memo : Memo κ ν) :
    Grows memo (tree.trace memo) (stateAfter tree.run memo) :=
  (tree.leads memo).grows

theorem Grows.pairwise {before after : Memo κ ν} {moments : List (Moment κ ν ε)}
    (grows : Grows before moments after) :
    (before :: moments.map (·.table) ++ [after]).Pairwise Extends := by
  induction grows with
  | refl => simp [Extends.refl]
  | step growth agrees later ih =>
    apply List.pairwise_cons.mpr
    refine ⟨?_, ih⟩
    intro table member
    rcases List.mem_cons.mp member with rfl | member
    · exact growth
    · exact growth.trans ((List.pairwise_cons.mp ih).1 table member)

theorem Grows.agrees {before after : Memo κ ν} {moments : List (Moment κ ν ε)}
    (grows : Grows before moments after) {moment : Moment κ ν ε} (member : moment ∈ moments) {key : κ}
    {value : ν} (returned : moment.event.returned? = some (key, value)) :
    moment.table.find? key = some value ∧ after.find? key = some value := by
  induction grows with
  | refl => cases member
  | step growth agrees later ih =>
    rcases List.mem_cons.mp member with rfl | member
    · have entry := agrees key value returned
      exact ⟨entry, later.extends key value entry⟩
    · exact ih member

/-- Whatever calls are made, and however makers call the table again or fail: from each moment of the
run to every later one, entries stay as they are. A call returns the entry that its key has at that
moment, so all calls for a key return the same value. A call whose maker ends with a value leaves an
entry and returns it; a call whose maker fails does just what the maker did. -/
theorem entries_never_change (tree : CallTree κ ν ε) (memo : Memo κ ν) :
    (memo :: (tree.trace memo).map (·.table) ++ [stateAfter tree.run memo]).Pairwise Extends ∧
    (∀ moment ∈ tree.trace memo, ∀ key value, moment.event.returned? = some (key, value) →
      moment.table.find? key = some value) ∧
    (∀ first ∈ tree.trace memo, ∀ second ∈ tree.trace memo, ∀ key value other,
      first.event.returned? = some (key, value) → second.event.returned? = some (key, other) →
      value = other) ∧
    ∀ (key : κ) (make : CallTree κ ν ε) (table after : Memo κ ν), table.find? key = none →
      (∀ own, make.run table.countMiss = .ok own after → ∃ value final,
        getOrMake Lens.self key make.run table = .ok value final ∧ final.find? key = some value) ∧
      ∀ cause, make.run table.countMiss = .error cause after →
        getOrMake Lens.self key make.run table = .error cause after := by
  have grows := tree.grows memo
  refine ⟨grows.pairwise, ?_, ?_, ?_⟩
  · intro moment member key value returned
    exact (grows.agrees member returned).1
  · intro first firstMember second secondMember key value other firstReturned secondReturned
    have earlier := (grows.agrees firstMember firstReturned).2
    have later := (grows.agrees secondMember secondReturned).2
    exact Option.some.inj (earlier.symm.trans later)
  · intro key make table after absent
    refine ⟨?_, fun cause => getOrMake_failed absent⟩
    intro own made
    exact ⟨_, _, getOrMake_made absent made, find?_store after key own⟩

/-- The maker for the key 1 asks for the key 1 and gets another value stored; the maker for the key 2
stores the key 3 and fails. -/
def reentrantCalls : CallTree Nat String String :=
  .getOrMake 1 (.getOrMake 1 (.finish "inner") fun _ => .finish "outer") fun _ =>
    .getOrMake 2 (.getOrMake 3 (.finish "kept") fun _ => .stop (.failure "broken")) fun _ =>
      .lookup 1 fun _ => .lookup 2 fun _ => .lookup 3 fun _ => .finish "done"

example : (reentrantCalls.trace .empty).map (·.event) =
    [.making 1, .making 1, .made 1 "inner", .made 1 "inner", .making 2, .making 3, .made 3 "kept",
      .failed 2 (.failure "broken"), .found 1 "inner", .absent 2, .found 3 "kept"] := by
  decide

end Scribe.Memo
