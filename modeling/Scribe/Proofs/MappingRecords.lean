import Scribe.Mapping.Record

/-! What insertion and search do to a list of records. A record goes to the point that divides the
records before it from the later ones, so they stay in opening order however late they arrive. The
search by output line, which goes through them backwards, prefers the record that was opened last among
those of the least length. -/

namespace Scribe

theorem OutputBlock.contains_iff {block : OutputBlock} {line : UInt32} :
    block.contains line = true ↔
      block.start.line.toNat ≤ line.toNat ∧ line.toNat < block.finish.line.toNat := by
  simp only [contains, Bool.and_eq_true, decide_eq_true_eq, UInt32.le_iff_toNat_le,
    UInt32.lt_iff_toNat_lt]

namespace MappingList

/-- Records in the order in which their scopes were opened, none of them twice. -/
def Ordered (entries : List MappingEntry) : Prop :=
  entries.Pairwise fun earlier later => earlier.order < later.order

theorem mem_insertEntry {entry other : MappingEntry} {entries : List MappingEntry} :
    other ∈ insertEntry entry entries ↔ other = entry ∨ other ∈ entries := by
  induction entries with
  | nil => simp [insertEntry]
  | cons first rest ih =>
    simp only [insertEntry]
    split
    · simp only [List.mem_cons, ih]
      exact or_left_comm
    · simp only [List.mem_cons]

/-- The numbers of the scopes that the records belong to. -/
def sequence (list : MappingList) : List Nat :=
  list.entries.map (·.order)

/-- An entry goes between those whose numbers are below its own and the others. -/
theorem insertEntry_between (entry : MappingEntry) {earlier later : List MappingEntry}
    (below : ∀ other ∈ earlier, other.order < entry.order)
    (above : ∀ other ∈ later, entry.order ≤ other.order) :
    insertEntry entry (earlier ++ later) = earlier ++ entry :: later := by
  induction earlier with
  | nil =>
    cases later with
    | nil => rfl
    | cons first rest =>
      have notBelow := Nat.not_lt.mpr (above first List.mem_cons_self)
      simp only [List.nil_append, insertEntry, if_neg notBelow]
  | cons first rest ih =>
    have firstBelow := below first List.mem_cons_self
    simp only [List.cons_append, insertEntry, if_pos firstBelow]
    rw [ih fun other member => below other (List.mem_cons_of_mem _ member)]

/-- The index that divides numbers into those below the given one and the others. -/
structure PartitionPoint (sequence : List Nat) (order point : Nat) : Prop where
  inside : point ≤ sequence.length
  below : ∀ number ∈ sequence.take point, number < order
  above : ∀ number ∈ sequence.drop point, order ≤ number

theorem exists_partitionPoint {sequence : List Nat} (increasing : sequence.Pairwise (· < ·)) (order : Nat) :
    ∃ point, PartitionPoint sequence order point := by
  induction sequence with
  | nil => exact ⟨0, Nat.zero_le _, nofun, nofun⟩
  | cons first rest ih =>
    obtain ⟨later, restIncreasing⟩ := List.pairwise_cons.mp increasing
    by_cases earlier : first < order
    · obtain ⟨point, inside, below, above⟩ := ih restIncreasing
      refine ⟨point + 1, Nat.succ_le_succ inside, ?_, above⟩
      exact List.forall_mem_cons.mpr ⟨earlier, below⟩
    · have least := Nat.not_lt.mp earlier
      refine ⟨0, Nat.zero_le _, nofun, ?_⟩
      rw [List.drop_zero, List.forall_mem_cons]
      exact ⟨least, fun number member => Nat.le_trans least (Nat.le_of_lt (later number member))⟩

/-- Numbers and mappings, each as a list of its own, get the new one at the same index. -/
theorem PartitionPoint.insert {list : MappingList} {order point : Nat}
    (divides : PartitionPoint list.sequence order point) (mapping : Mapping) :
    (list.insert order mapping).sequence = list.sequence.take point ++ order :: list.sequence.drop point ∧
      (list.insert order mapping).mappings =
        list.mappings.take point ++ mapping :: list.mappings.drop point := by
  have entries : (list.insert order mapping).entries =
      list.entries.take point ++ ⟨order, mapping⟩ :: list.entries.drop point := by
    have below := divides.below
    have above := divides.above
    simp only [sequence, ← List.map_take, ← List.map_drop, List.forall_mem_map] at below above
    rw [MappingList.insert, ← insertEntry_between _ below above, List.take_append_drop]
  simp only [sequence, mappings, entries, List.map_append, List.map_cons, List.map_take, List.map_drop,
    and_self]

theorem Ordered.insertEntry {entry : MappingEntry} {entries : List MappingEntry}
    (ordered : Ordered entries) (fresh : ∀ other ∈ entries, other.order ≠ entry.order) :
    Ordered (insertEntry entry entries) := by
  induction entries with
  | nil => exact List.pairwise_singleton _ _
  | cons first rest ih =>
    obtain ⟨below, restOrdered⟩ := List.pairwise_cons.mp ordered
    simp only [MappingList.insertEntry]
    split
    next earlier =>
      apply List.pairwise_cons.mpr
      refine ⟨?_, ih restOrdered fun other member => fresh other (List.mem_cons_of_mem _ member)⟩
      intro other member
      rcases mem_insertEntry.mp member with rfl | member
      · exact earlier
      · exact below other member
    next notEarlier =>
      apply List.pairwise_cons.mpr
      refine ⟨?_, ordered⟩
      have first_lt : entry.order < first.order := by
        have different := fresh first List.mem_cons_self
        omega
      intro other member
      rcases List.mem_cons.mp member with rfl | member
      · exact first_lt
      · exact Nat.lt_trans first_lt (below other member)

/-- A record that no other undercuts stays the best one through the whole search. -/
theorem shortest?_cons {first : Mapping} {rest : List Mapping}
    (least : ∀ next ∈ rest, first.output.length ≤ next.output.length) :
    shortest? (first :: rest) = some first := by
  have unchanged : rest.foldl
      (fun best next => if next.output.length < best.output.length then next else best) first = first := by
    induction rest with
    | nil => rfl
    | cons next rest ih =>
      have notLess := Nat.not_lt.mpr (least next List.mem_cons_self)
      simp only [List.foldl_cons, if_neg notLess]
      exact ih fun other member => least other (List.mem_cons_of_mem _ member)
  simp only [shortest?, unchanged]

/-- Going backwards, the search meets the record that was opened last first, and keeps it if none of
the others is shorter. -/
theorem atOutputLine?_eq_some {list : MappingList} {line : UInt32} {entry : MappingEntry}
    (ordered : Ordered list.entries) (member : entry ∈ list.entries)
    (contains : entry.mapping.output.contains line = true)
    (last : ∀ other ∈ list.entries, other.mapping.output.contains line = true →
      other.order ≤ entry.order)
    (least : ∀ other ∈ list.entries, other.mapping.output.contains line = true →
      entry.mapping.output.length ≤ other.mapping.output.length) :
    list.atOutputLine? line = some entry.mapping := by
  obtain ⟨before, after, split⟩ := List.append_of_mem member
  have later : ∀ other ∈ after, entry.order < other.order := by
    intro other inside
    rw [split] at ordered
    exact (List.pairwise_cons.mp (List.pairwise_append.mp ordered).2.1).1 other inside
  have skipped : (after.reverse.map (·.mapping)).filter (·.output.contains line) = [] := by
    apply List.filter_eq_nil_iff.mpr
    intro mapping inside holds
    obtain ⟨other, reversed, rfl⟩ := List.mem_map.mp inside
    have inAfter := List.mem_reverse.mp reversed
    have bound := last other (by simp [split, inAfter]) holds
    exact Nat.not_lt.mpr bound (later other inAfter)
  have found : list.mappings.reverse.filter (·.output.contains line) =
      entry.mapping :: (before.reverse.map (·.mapping)).filter (·.output.contains line) := by
    rw [mappings, split, ← List.map_reverse]
    simp only [List.reverse_append, List.reverse_cons, List.append_assoc, List.map_append,
      List.filter_append, skipped, List.nil_append, List.map_cons, List.filter_cons, contains, if_true,
      List.cons_append]
  rw [atOutputLine?, found]
  apply shortest?_cons
  intro mapping inside
  obtain ⟨mapped, holds⟩ := List.mem_filter.mp inside
  obtain ⟨other, reversed, rfl⟩ := List.mem_map.mp mapped
  exact least other (by simp [split, List.mem_reverse.mp reversed]) holds

theorem atOutputLine?_eq_none {list : MappingList} {line : UInt32}
    (missed : ∀ entry ∈ list.entries, entry.mapping.output.contains line = false) :
    list.atOutputLine? line = none := by
  have nothing : list.mappings.reverse.filter (·.output.contains line) = [] := by
    apply List.filter_eq_nil_iff.mpr
    intro mapping inside
    obtain ⟨entry, member, rfl⟩ := List.mem_map.mp (List.mem_reverse.mp inside)
    simp [missed entry member]
  rw [atOutputLine?, nothing]
  rfl

theorem Ordered.eq_of_order_eq {entries : List MappingEntry} {first second : MappingEntry}
    (ordered : Ordered entries) (firstMember : first ∈ entries) (secondMember : second ∈ entries)
    (same : first.order = second.order) : first = second := by
  induction entries with
  | nil => cases firstMember
  | cons entry rest ih =>
    obtain ⟨below, restOrdered⟩ := List.pairwise_cons.mp ordered
    rcases List.mem_cons.mp firstMember with rfl | firstLater
    · rcases List.mem_cons.mp secondMember with rfl | secondLater
      · rfl
      · have later := below second secondLater
        omega
    · rcases List.mem_cons.mp secondMember with rfl | secondLater
      · have later := below first firstLater
        omega
      · exact ih restOrdered firstLater secondLater

end MappingList

end Scribe
