import Mathlib.Data.Finset.Card
import Scribe.Proofs.MemoCalls

/-! The accounts of a memo table. The counters and the number of entries can be read off the moments of a
run, whatever makers call and however they end. A key may be made more than once, but only by a maker that
asks for its own key. -/

namespace Scribe.Memo

variable {κ ν ε : Type} [DecidableEq κ]

namespace Event

/-- The key whose maker is started. -/
def making? : Event κ ν ε → Option κ
  | .making key => some key
  | _ => none

/-- The key whose maker has ended with a value. -/
def made? : Event κ ν ε → Option κ
  | .made key _ => some key
  | _ => none

/-- A call has found an entry. -/
def isFound : Event κ ν ε → Bool
  | .found _ _ => true
  | _ => false

end Event

/-- The table after the given moments. -/
def tableAfter (memo : Memo κ ν) (moments : List (Moment κ ν ε)) : Memo κ ν :=
  moments.foldl (fun _ moment => moment.table) memo

/-- The keys whose makers have ended with a value, each as often as they did. -/
def madeKeys (moments : List (Moment κ ν ε)) : List κ :=
  moments.filterMap (·.event.made?)

def keys (memo : Memo κ ν) : List κ :=
  memo.entries.map Prod.fst

/-- No maker that is run asks for the key that it is to make, neither itself nor through the calls inside
it. It would find no entry, so its call would start another maker for the key. -/
def CallTree.sparesOwnKeys : CallTree κ ν ε → Memo κ ν → Bool
  | .finish _, _ => true
  | .stop _, _ => true
  | .lookup key next, memo =>
    let (found, after) := memo.lookup key
    (next found).sparesOwnKeys after
  | .getOrMake key make next, memo =>
    (memo.contains key || make.sparesOwnKeys memo.countMiss &&
      (make.trace memo.countMiss).all (·.event.making? ≠ some key)) &&
    match Memo.getOrMake Lens.self key make.run memo with
    | .ok value after => (next (.ok value)).sparesOwnKeys after
    | .error cause after => (next (.error cause)).sparesOwnKeys after

variable {memo before after : Memo κ ν} {moments early late : List (Moment κ ν ε)} {key : κ}

theorem mem_keys_iff : key ∈ memo.keys ↔ memo.contains key = true := by
  simp [keys, contains, find?]

theorem Extends.mem_keys (growth : Extends before after) (held : key ∈ before.keys) : key ∈ after.keys := by
  rw [mem_keys_iff, contains, Option.isSome_iff_exists] at held ⊢
  obtain ⟨value, found⟩ := held
  exact ⟨value, growth key value found⟩

theorem keys_store (memo : Memo κ ν) (key : κ) (value : ν) :
    (memo.store key value).keys = memo.keys.insert key := by
  cases held : memo.contains key with
  | true => simp [store, held, List.insert_of_mem (mem_keys_iff.mpr held)]
  | false =>
    have missing : key ∉ memo.keys := by simp [mem_keys_iff, held]
    rw [List.insert_of_not_mem missing, store, if_neg (by simp [held])]
    rfl

section Moments

variable {moment : Moment κ ν ε}

theorem Moves.mem_keys (moves : Moves before moment) :
    key ∈ moment.table.keys ↔ key ∈ before.keys ∨ moment.event.made? = some key := by
  cases moves with
  | found | absent | making | failed => simp [Event.made?, keys, countHit, countMiss]
  | made other own =>
    rw [keys_store, List.mem_insert_iff, or_comm]
    simp [Event.made?, eq_comm]

theorem Moves.nodup_keys (moves : Moves before moment) (distinct : before.keys.Nodup) :
    moment.table.keys.Nodup := by
  cases moves with
  | found | absent | making | failed => exact distinct
  | made key own =>
    rw [keys_store]
    exact distinct.insert

theorem Moves.counters (moves : Moves before moment) :
    moment.table.misses = before.misses + (if moment.event.making?.isSome then 1 else 0) ∧
      moment.table.hits = before.hits + (if moment.event.isFound then 1 else 0) := by
  cases moves with
  | found | absent | making | failed => exact ⟨rfl, rfl⟩
  | made key own =>
    rw [store]
    split
    · exact ⟨rfl, rfl⟩
    · exact ⟨rfl, rfl⟩

/-- A maker is started on a table that has no entry for its key. -/
theorem Moves.missing (moves : Moves before moment) (started : moment.event.making? = some key) :
    key ∉ before.keys ∧ moment.table.find? key = none := by
  cases moves with
  | making missing =>
    cases started
    exact ⟨by simp [mem_keys_iff, contains, missing], missing⟩
  | found | absent | made | failed => cases started

end Moments

namespace Leads

theorem tableAfter_eq (leads : Leads before moments after) : tableAfter before moments = after := by
  induction leads with
  | refl => rfl
  | step moves later ih => exact ih

theorem split (leads : Leads before (early ++ late) after) :
    Leads before early (tableAfter before early) ∧ Leads (tableAfter before early) late after := by
  induction early generalizing before with
  | nil => exact ⟨.refl, leads⟩
  | cons moment early ih =>
    cases leads with
    | step moves later =>
      obtain ⟨first, second⟩ := ih later
      exact ⟨.step moves first, second⟩

theorem misses_eq (leads : Leads before moments after) :
    after.misses = before.misses + moments.countP (·.event.making?.isSome) := by
  induction leads with
  | refl => rfl
  | step moves later ih =>
    rw [ih, moves.counters.1, List.countP_cons]
    omega

theorem hits_eq (leads : Leads before moments after) :
    after.hits = before.hits + moments.countP (·.event.isFound) := by
  induction leads with
  | refl => rfl
  | step moves later ih =>
    rw [ih, moves.counters.2, List.countP_cons]
    omega

theorem mem_keys (leads : Leads before moments after) :
    key ∈ after.keys ↔ key ∈ before.keys ∨ key ∈ madeKeys moments := by
  induction leads with
  | refl => simp [madeKeys]
  | step moves later ih =>
    rw [ih, moves.mem_keys, or_assoc]
    simp [madeKeys]

theorem nodup_keys (leads : Leads before moments after) (distinct : before.keys.Nodup) :
    after.keys.Nodup := by
  induction leads with
  | refl => exact distinct
  | step moves later ih => exact ih (moves.nodup_keys distinct)

theorem size_eq (leads : Leads .empty moments after) : after.size = (madeKeys moments).toFinset.card := by
  have distinct : after.keys.Nodup := leads.nodup_keys List.nodup_nil
  have same : after.keys.toFinset = (madeKeys moments).toFinset := by
    ext key
    rw [List.mem_toFinset, List.mem_toFinset, leads.mem_keys]
    exact or_iff_right List.not_mem_nil
  rw [← same, List.toFinset_card_of_nodup distinct, keys, List.length_map, size]

theorem missing (leads : Leads before moments after) {moment : Moment κ ν ε} (member : moment ∈ moments)
    (started : moment.event.making? = some key) : key ∉ before.keys ∧ moment.table.find? key = none := by
  induction leads with
  | refl => cases member
  | step moves later ih =>
    rcases List.mem_cons.mp member with rfl | member
    · exact moves.missing started
    · obtain ⟨absent, free⟩ := ih member
      exact ⟨fun held => absent (moves.extends.mem_keys held), free⟩

end Leads

namespace CallTree

/-- A maker that ends with a value was started before. -/
theorem started_of_made {tree : CallTree κ ν ε} (made : key ∈ madeKeys (tree.trace memo)) :
    ∃ moment ∈ tree.trace memo, moment.event.making? = some key := by
  induction tree generalizing memo with
  | finish value => cases made
  | stop cause => cases made
  | lookup other next ih =>
    rw [trace_lookup] at made ⊢
    have later : key ∈ madeKeys ((next (memo.find? other)).trace (memo.lookup other).2) := by
      cases held : memo.find? other <;> simpa [madeKeys, held, Event.made?] using made
    obtain ⟨moment, member, started⟩ := ih _ later
    exact ⟨moment, List.mem_cons_of_mem _ member, started⟩
  | getOrMake other make next ihMake ihNext =>
    cases held : memo.find? other with
    | some value =>
      rw [trace_found next held] at made ⊢
      obtain ⟨moment, member, started⟩ := ihNext _ made
      exact ⟨moment, List.mem_cons_of_mem _ member, started⟩
    | none =>
      cases ended : make.run memo.countMiss with
      | ok own after =>
        rw [trace_made next held ended] at made ⊢
        simp only [madeKeys, List.filterMap_cons, List.filterMap_append, Event.made?, List.mem_append,
          List.mem_cons] at made
        rcases made with inside | rfl | later
        · obtain ⟨moment, member, started⟩ := ihMake inside
          exact ⟨moment, by simp [member], started⟩
        · exact ⟨_, List.mem_cons_self, rfl⟩
        · obtain ⟨moment, member, started⟩ := ihNext _ later
          exact ⟨moment, by simp [member], started⟩
      | error cause after =>
        rw [trace_failed next held ended] at made ⊢
        simp only [madeKeys, List.filterMap_cons, List.filterMap_append, Event.made?, List.mem_append]
          at made
        rcases made with inside | later
        · obtain ⟨moment, member, started⟩ := ihMake inside
          exact ⟨moment, by simp [member], started⟩
        · obtain ⟨moment, member, started⟩ := ihNext _ later
          exact ⟨moment, by simp [member], started⟩

/-- What is there is not made again. -/
theorem not_made_of_mem_keys (tree : CallTree κ ν ε) (held : key ∈ memo.keys) :
    key ∉ madeKeys (tree.trace memo) := by
  intro made
  obtain ⟨moment, member, started⟩ := started_of_made made
  exact ((tree.leads memo).missing member started).1 held

/-- What is made inside is there afterwards, so it is not made again. -/
theorem disjoint_madeKeys {inside later : CallTree κ ν ε} {middle : Memo κ ν}
    (growth : Extends (stateAfter inside.run memo) middle) :
    (madeKeys (inside.trace memo)).Disjoint (madeKeys (later.trace middle)) := by
  intro key made madeLater
  have stored : key ∈ (stateAfter inside.run memo).keys := (inside.leads memo).mem_keys.mpr (.inr made)
  exact later.not_made_of_mem_keys (growth.mem_keys stored) madeLater

theorem nodup_madeKeys {tree : CallTree κ ν ε} (spared : tree.sparesOwnKeys memo = true) :
    (madeKeys (tree.trace memo)).Nodup := by
  induction tree generalizing memo with
  | finish value => exact List.nodup_nil
  | stop cause => exact List.nodup_nil
  | lookup other next ih =>
    rw [trace_lookup]
    cases held : memo.find? other <;> simp only [sparesOwnKeys, Memo.lookup, held] at spared ⊢
    · exact ih _ spared
    · exact ih _ spared
  | getOrMake other make next ihMake ihNext =>
    cases held : memo.find? other with
    | some value =>
      rw [trace_found next held]
      simp only [sparesOwnKeys, getOrMake_found _ held, Bool.and_eq_true] at spared
      exact ihNext _ spared.2
    | none =>
      have absent : memo.contains other = false := by simp [contains, held]
      cases ended : make.run memo.countMiss with
      | ok own after =>
        simp only [sparesOwnKeys, getOrMake_made held ended, absent, Bool.false_or, Bool.and_eq_true,
          List.all_eq_true, decide_eq_true_eq] at spared
        obtain ⟨⟨insideSpared, ownSpared⟩, laterSpared⟩ := spared
        have notInside : other ∉ madeKeys (make.trace memo.countMiss) := by
          intro made
          obtain ⟨moment, member, started⟩ := started_of_made made
          exact ownSpared moment member started
        have stored : other ∈ (after.store other own).keys := by
          rw [keys_store]
          exact List.mem_insert_self
        have growth : Extends (stateAfter make.run memo.countMiss) (after.store other own) := by
          simp only [stateAfter, ended]
          exact extends_store after other own
        rw [trace_made next held ended]
        simp only [madeKeys, List.filterMap_cons, List.filterMap_append, Event.made?]
        apply List.Nodup.append (ihMake insideSpared)
        · exact List.nodup_cons.mpr ⟨not_made_of_mem_keys _ stored, ihNext _ laterSpared⟩
        · exact List.disjoint_cons_right.mpr ⟨notInside, disjoint_madeKeys growth⟩
      | error cause after =>
        have growth : Extends (stateAfter make.run memo.countMiss) after := by
          simp only [stateAfter, ended]
          exact .refl after
        simp only [sparesOwnKeys, getOrMake_failed held ended, absent, Bool.false_or, Bool.and_eq_true]
          at spared
        rw [trace_failed next held ended]
        simp only [madeKeys, List.filterMap_cons, List.filterMap_append, Event.made?]
        apply List.Nodup.append (ihMake spared.1.1) (ihNext _ spared.2)
        exact disjoint_madeKeys growth

end CallTree

/-- The accounts of a run that starts with an empty table. Keeping the log changes nothing. At every moment
the misses are the makers that were started and the hits are the calls that found an entry, and there is one
entry for each key that some maker has ended with a value for. A maker is only started where its key has no
entry, so none is started once one for the key has ended with a value. If no maker asks for its own key, at
most one for each key does. Where the key has an entry, a call or a lookup returns it and only counts a
hit. -/
theorem calls_accounted_for (tree : CallTree κ ν ε) :
    tree.Logs .empty (tree.trace .empty) ∧
    tableAfter .empty (tree.trace .empty) = stateAfter tree.run .empty ∧
    (∀ early late, tree.trace .empty = early ++ late →
      (tableAfter .empty early).misses = early.countP (·.event.making?.isSome) ∧
      (tableAfter .empty early).hits = early.countP (·.event.isFound) ∧
      (tableAfter .empty early).size = (madeKeys early).toFinset.card) ∧
    (∀ moment ∈ tree.trace .empty, ∀ key, moment.event.making? = some key →
      moment.table.find? key = none) ∧
    (∀ early moment late key, tree.trace .empty = early ++ moment :: late →
      moment.event.made? = some key → ∀ later ∈ late, later.event.making? ≠ some key) ∧
    (tree.sparesOwnKeys .empty = true → ∀ key, (madeKeys (tree.trace .empty)).count key ≤ 1) ∧
    (∀ (table : Memo κ ν) key value, table.find? key = some value →
      table.lookup key = (some value, table.countHit) ∧
      ∀ make : CallTree κ ν ε, getOrMake Lens.self key make.run table = .ok value table.countHit) := by
  have leads := tree.leads .empty
  refine ⟨tree.logs_trace .empty, leads.tableAfter_eq, ?_,
    fun moment member key started => (leads.missing member started).2, ?_,
    fun spared => List.nodup_iff_count_le_one.mp (CallTree.nodup_madeKeys spared), ?_⟩
  · intro early late divided
    have first := (divided ▸ leads).split.1
    refine ⟨?_, ?_, first.size_eq⟩
    · rw [first.misses_eq]
      exact Nat.zero_add _
    · rw [first.hits_eq]
      exact Nat.zero_add _
  · intro early moment late key divided made later member started
    cases (divided ▸ leads).split.2 with
    | step moves rest => exact (rest.missing member started).1 (moves.mem_keys.mpr (.inr made))
  · intro table key value held
    exact ⟨lookup_found held, fun make => getOrMake_found make.run held⟩

/-- The first maker for the key 1 has the key 2 made and fails, and the second one finds the key 2. -/
def retriedCalls : CallTree Nat String String :=
  .getOrMake 1 (.getOrMake 2 (.finish "inner") fun _ => .stop (.failure "broken")) fun _ =>
    .getOrMake 1 (.lookup 1 fun _ => .getOrMake 2 (.finish "unused") fun _ => .finish "outer") fun _ =>
      .getOrMake 1 (.finish "late") fun _ => .finish "done"

theorem retried_calls_accounted_for :
    retriedCalls.sparesOwnKeys .empty = true ∧ (madeKeys (retriedCalls.trace .empty)).count 1 ≤ 1 ∧
    (stateAfter retriedCalls.run .empty).misses = 3 ∧ (stateAfter retriedCalls.run .empty).hits = 2 ∧
    (stateAfter retriedCalls.run .empty).size = 2 := by
  obtain ⟨_, ended, accounts, _, _, once, _⟩ := calls_accounted_for retriedCalls
  have spared : retriedCalls.sparesOwnKeys .empty = true := by decide
  obtain ⟨misses, hits, size⟩ := accounts _ [] (List.append_nil _).symm
  rw [ended] at misses hits size
  exact ⟨spared, once spared 1, misses.trans (by decide), hits.trans (by decide), size.trans (by decide)⟩

example : (madeKeys (reentrantCalls.trace .empty)).count 1 = 2 := by
  decide

end Scribe.Memo
