import Mathlib.Data.List.Induction
import Scribe.Settings.Basic

/-! Settings that are merged one after another. It does not matter how the merges are grouped, settings
that say nothing change nothing, and merging the same settings again changes nothing either. Reserved
names are only ever added, each of them once. -/

namespace Scribe.Settings

section Override

variable {α : Type} [DecidableEq α] (default current changed last : α)

theorem override_default : override default current default = current :=
  if_pos rfl

theorem default_override : override default default changed = changed := by
  unfold override
  split
  next same => exact same.symm
  next => rfl

theorem override_self : override default changed changed = changed :=
  ite_self _

variable {default changed} in
theorem override_of_ne (said : changed ≠ default) : override default current changed = changed :=
  if_neg said

theorem override_override :
    override default (override default current changed) last =
      override default current (override default changed last) := by
  by_cases silent : last = default
  · rw [silent, override_default, override_default]
  · rw [override_of_ne _ silent, override_of_ne _ silent, override_of_ne _ silent]

theorem override_again :
    override default (override default current changed) changed = override default current changed := by
  rw [override_override, override_self]

variable {default current changed}

theorem override_keeps (holds : α → Prop) (before : holds current) (after : holds changed) :
    holds (override default current changed) := by
  unfold override
  split
  next => exact before
  next => exact after

end Override

variable {names added : List String} {name : String}

/-- A list is gone through from the front, so its last name meets all the others. -/
theorem mergeReserved_concat (names added : List String) (name : String) :
    mergeReserved names (added ++ [name]) =
      if name ∈ mergeReserved names added then mergeReserved names added
      else mergeReserved names added ++ [name] := by
  simp [mergeReserved]

theorem mem_mergeReserved : name ∈ mergeReserved names added ↔ name ∈ names ∨ name ∈ added := by
  induction added using List.reverseRecOn with
  | nil => simp [mergeReserved]
  | append_singleton added last ih =>
    have grown : name ∈ mergeReserved names (added ++ [last]) ↔
        name ∈ mergeReserved names added ∨ name = last := by
      rw [mergeReserved_concat]
      split
      next held =>
        refine ⟨Or.inl, ?_⟩
        rintro (before | rfl)
        · exact before
        · exact held
      next => rw [List.mem_append, List.mem_singleton]
    rw [grown, ih, List.mem_append, List.mem_singleton, or_assoc]

theorem mergeReserved_of_subset (held : added ⊆ names) : mergeReserved names added = names := by
  induction added using List.reverseRecOn with
  | nil => rfl
  | append_singleton added last ih =>
    obtain ⟨before, here⟩ := List.append_subset.mp held
    rw [mergeReserved_concat, ih before, if_pos (here (List.mem_singleton.mpr rfl))]

theorem mergeReserved_again (names added : List String) :
    mergeReserved (mergeReserved names added) added = mergeReserved names added :=
  mergeReserved_of_subset fun _ member => mem_mergeReserved.mpr (Or.inr member)

theorem mergeReserved_assoc (names added later : List String) :
    mergeReserved (mergeReserved names added) later = mergeReserved names (mergeReserved added later) := by
  induction later using List.reverseRecOn with
  | nil => rfl
  | append_singleton later last ih =>
    rw [mergeReserved_concat, mergeReserved_concat, ih]
    -- What the right side finds on its way the left side has already.
    by_cases held : last ∈ mergeReserved added later
    · rw [if_pos held, if_pos (mem_mergeReserved.mpr (Or.inr held))]
    · rw [if_neg held, mergeReserved_concat]

theorem nil_mergeReserved (added : List String) : mergeReserved [] added = added.eraseDups := by
  induction added using List.reverseRecOn with
  | nil => rfl
  | append_singleton added last ih =>
    rw [mergeReserved_concat, ih, List.eraseDups_append]
    by_cases held : last ∈ added
    · simp [List.removeAll, held]
    · simp [List.removeAll, List.eraseDups_cons, held]

/-- The names before stay in front, and each name behind them is new. -/
theorem exists_appended (names added : List String) :
    ∃ appended, mergeReserved names added = names ++ appended ∧ appended.Nodup ∧
      ∀ name ∈ appended, name ∉ names := by
  induction added using List.reverseRecOn with
  | nil => exact ⟨[], by simp [mergeReserved]⟩
  | append_singleton added last ih =>
    obtain ⟨appended, same, distinct, new⟩ := ih
    rw [mergeReserved_concat, same]
    split
    next => exact ⟨appended, rfl, distinct, new⟩
    next absent =>
      rw [List.mem_append, not_or] at absent
      refine ⟨appended ++ [last], List.append_assoc _ _ _, ?_, ?_⟩
      · refine List.nodup_append.mpr ⟨distinct, List.pairwise_singleton _ last, ?_⟩
        intro name member other isLast same
        rw [same, List.mem_singleton.mp isLast] at member
        exact absent.2 member
      · simpa [or_imp, forall_and, absent.1] using new

theorem merge_assoc (first second third : Settings) :
    (first.merge second).merge third = first.merge (second.merge third) := by
  simp only [merge, override_override, mergeReserved_assoc, Bool.and_assoc]

theorem merge_default (settings : Settings) : settings.merge {} = settings := by
  simp only [merge, override_default, Bool.and_true]
  rfl

theorem merge_again (settings other : Settings) :
    (settings.merge other).merge other = settings.merge other := by
  simp only [merge, override_again, mergeReserved_again, Bool.and_assoc, Bool.and_self]

theorem default_merge (settings : Settings) :
    merge {} settings =
      { settings with naming := { settings.naming with reserved := settings.naming.reserved.eraseDups } } := by
  simp only [merge, default_override, nil_mergeReserved, Bool.true_and]

theorem merge_valid {settings other : Settings} (valid : settings.invalid? = none)
    (otherValid : other.invalid? = none) : (settings.merge other).invalid? = none := by
  obtain ⟨limit, lead, line⟩ := invalid?_eq_none_iff.mp valid
  obtain ⟨otherLimit, otherLead, otherLine⟩ := invalid?_eq_none_iff.mp otherValid
  refine invalid?_eq_none_iff.mpr ⟨?_, ?_, ?_⟩
  · exact override_keeps (· ≠ 0) limit otherLimit
  · exact override_keeps (startsIdentifier · = true) lead otherLead
  · exact override_keeps (· ≠ 0) line otherLine

/-- Merging accumulates: the grouping does not matter, default settings add nothing, and settings that
were merged already add nothing. Into default settings go all settings as they are, apart from repeated
reserved names. The reserved names of both sides are kept, those of the first in front and unchanged, with
nothing appended twice. Two valid settings make a valid one. What the second settings change wins, and
mapping is on only if both leave it on. -/
theorem merge_accumulates (first second third : Settings) :
    (first.merge second).merge third = first.merge (second.merge third) ∧
    first.merge {} = first ∧
    (first.merge second).merge second = first.merge second ∧
    merge {} second =
      { second with naming := { second.naming with reserved := second.naming.reserved.eraseDups } } ∧
    (∀ name, name ∈ (first.merge second).naming.reserved ↔
      name ∈ first.naming.reserved ∨ name ∈ second.naming.reserved) ∧
    (∃ appended, (first.merge second).naming.reserved = first.naming.reserved ++ appended ∧
      appended.Nodup ∧ ∀ name ∈ appended, name ∉ first.naming.reserved) ∧
    (first.invalid? = none → second.invalid? = none → (first.merge second).invalid? = none) ∧
    (second.naming.lead ≠ "" → (first.merge second).naming.lead = second.naming.lead) ∧
    (second.naming.hintLimit ≠ 32 → (first.merge second).naming.hintLimit = second.naming.hintLimit) ∧
    (second.mapping.firstLine ≠ 1 → (first.merge second).mapping.firstLine = second.mapping.firstLine) ∧
    ((first.merge second).mapping.enabled = true ↔
      first.mapping.enabled = true ∧ second.mapping.enabled = true) :=
  ⟨merge_assoc first second third, merge_default first, merge_again first second, default_merge second,
    fun _ => mem_mergeReserved, exists_appended _ _, merge_valid, override_of_ne _, override_of_ne _,
    override_of_ne _, Bool.and_eq_true_iff⟩

def plainSettings : Settings where
  naming := { reserved := ["il", "il"] }

def changedSettings : Settings where
  naming := { lead := "cc_", reserved := ["module", "il", "module"], hintLimit := 8 }
  mapping := { enabled := false }

theorem merge_accumulates_changed :
    plainSettings.invalid? = none ∧ changedSettings.invalid? = none ∧
    (plainSettings.merge changedSettings).naming.reserved = ["il", "il", "module"] ∧
    (plainSettings.merge changedSettings).invalid? = none ∧
    (plainSettings.merge changedSettings).naming.lead = changedSettings.naming.lead := by
  have valid : plainSettings.invalid? = none := by decide
  have changedValid : changedSettings.invalid? = none := by decide
  obtain ⟨-, -, -, -, -, -, kept, wins, -⟩ := merge_accumulates plainSettings changedSettings {}
  exact ⟨valid, changedValid, by decide, kept valid changedValid, wins (by decide)⟩

end Scribe.Settings
