/-! Lists of pairs that are searched by the first part. Taking the pairs of one key out of a list leaves the
search for any other key as it was. -/

namespace Scribe

variable {α β : Type} [DecidableEq α] {entries : List (α × β)} {key other : α} {value : β}

theorem lookup_filter_ne (different : other ≠ key) :
    (entries.filter (·.1 ≠ key)).lookup other = entries.lookup other := by
  induction entries with
  | nil => rfl
  | cons entry rest ih =>
    by_cases same : entry.1 = key
    · have passed : (other == entry.1) = false := beq_eq_false_iff_ne.mpr (same ▸ different)
      rw [List.filter_cons_of_neg (by simp [same]), ih, List.lookup_cons, passed]
    · rw [List.filter_cons_of_pos (by simp [same]), List.lookup_cons, List.lookup_cons, ih]

theorem lookup_eq_none (absent : key ∉ entries.map Prod.fst) : entries.lookup key = none := by
  rw [List.lookup_eq_none_iff]
  intro entry member
  exact bne_iff_ne.mpr fun same => absent (same ▸ List.mem_map_of_mem member)

theorem not_mem_keys_filter : key ∉ (entries.filter (·.1 ≠ key)).map Prod.fst := by
  intro member
  obtain ⟨entry, kept, same⟩ := List.mem_map.mp member
  exact of_decide_eq_true (List.mem_filter.mp kept).2 same

theorem lookup_of_mem (distinct : (entries.map Prod.fst).Nodup) (member : (key, value) ∈ entries) :
    entries.lookup key = some value := by
  obtain ⟨before, after, rfl⟩ := List.append_of_mem member
  rw [List.map_append, List.nodup_append] at distinct
  apply List.lookup_eq_some_iff.mpr
  refine ⟨before, after, rfl, ?_⟩
  intro entry earlier
  apply bne_iff_ne.mpr
  exact (distinct.2.2 entry.1 (List.mem_map_of_mem earlier) key List.mem_cons_self).symm

end Scribe
