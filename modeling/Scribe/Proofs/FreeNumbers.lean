import Mathlib.Order.Bounds.Basic
import Mathlib.Order.Interval.Finset.Nat
import Scribe.Proofs.NameRuns

/-! The number that a new name gets. Different numbers spell different names, so the reserved names cannot
take up more numbers than there are of them, and the search for a free one ends, with the number that the loop
which counts up one by one comes to. -/

namespace Scribe.NameSupply

variable {supply : NameSupply} {hint : String} {kind : ElementKind} {number : Nat}

/-- One round of the counting loop. The counter goes up by one, which is an overflow at its last value, and the
name with the new number is taken if it is free. -/
def countOnce (hint : String) (kind : ElementKind) : EStateM Overflow NameSupply (Option SyntheticName) :=
  fun supply =>
    let number := (supply.count kind).toNat + 1
    if number < UInt32.size then
      let name := supply.spelling hint kind number
      .ok (if supply.isReserved name then none else some ⟨name, kind⟩)
        { supply with counters := supply.counters.set kind (.ofNat number) }
    else .error .overflow supply

/-- Rounds until a name is taken, at most as many as the limit says. -/
def countUp (hint : String) (kind : ElementKind) :
    (limit : Nat) → EStateM Overflow NameSupply (Option SyntheticName)
  | 0 => pure none
  | limit + 1 => do
    match ← countOnce hint kind with
    | some name => return some name
    | none => countUp hint kind limit

/-- The unused numbers of a kind that spell free names. -/
def freeNumbers (supply : NameSupply) (hint : String) (kind : ElementKind) : Set Nat :=
  { number | (supply.count kind).toNat < number ∧ supply.spelling hint kind number ∉ supply.reserved }

theorem spelling_injective (supply : NameSupply) (hint : String) (kind : ElementKind) :
    Function.Injective (supply.spelling hint kind) :=
  fun _ _ same => (spelling_determines rfl same).2

theorem exists_freeNumber (supply : NameSupply) (hint : String) (kind : ElementKind) :
    ∃ number ∈ supply.freeNumbers hint kind,
      number ≤ (supply.count kind).toNat + supply.reserved.toFinset.card + 1 := by
  let used := (supply.count kind).toNat
  let names := (Finset.Ioc used (used + supply.reserved.toFinset.card + 1)).image (supply.spelling hint kind)
  have more : supply.reserved.toFinset.card < names.card := by
    rw [Finset.card_image_of_injective _ (supply.spelling_injective hint kind), Nat.card_Ioc]
    omega
  -- One more number than there are reserved names: some name among them is not reserved.
  obtain ⟨name, member, free⟩ := Finset.exists_mem_notMem_of_card_lt_card more
  obtain ⟨number, inside, rfl⟩ := Finset.mem_image.mp member
  obtain ⟨above, bounded⟩ := Finset.mem_Ioc.mp inside
  exact ⟨number, ⟨above, by simpa using free⟩, bounded⟩

theorem exists_least_freeNumber (supply : NameSupply) (hint : String) (kind : ElementKind) :
    ∃ number, IsLeast (supply.freeNumbers hint kind) number ∧
      number ≤ (supply.count kind).toNat + supply.reserved.toFinset.card + 1 := by
  obtain ⟨free, member, bounded⟩ := supply.exists_freeNumber hint kind
  classical
  have some : ∃ number, number ∈ supply.freeNumbers hint kind := ⟨free, member⟩
  have least : IsLeast (supply.freeNumbers hint kind) (Nat.find some) :=
    ⟨Nat.find_spec some, fun _ other => Nat.find_min' some other⟩
  exact ⟨_, least, (least.2 member).trans bounded⟩

theorem nextNumber?_of_least (least : IsLeast (supply.freeNumbers hint kind) number)
    (bounded : number ≤ (supply.count kind).toNat + supply.reserved.toFinset.card + 1)
    (fits : number < UInt32.size) : supply.nextNumber? hint kind = some number := by
  obtain ⟨⟨above, free⟩, first⟩ := least
  have distinct := List.toFinset_card_le supply.reserved
  rw [nextNumber?, List.find?_range'_eq_some]
  refine ⟨by simp [fits, isReserved, free], List.mem_range'_1.mpr ⟨by omega, by omega⟩, ?_⟩
  intro earlier unused below
  have taken : supply.spelling hint kind earlier ∈ supply.reserved := by
    by_contra free
    exact absurd (first ⟨unused, free⟩) (by omega)
  simp [isReserved, taken]

theorem nextNumber?_eq_none (least : IsLeast (supply.freeNumbers hint kind) number)
    (beyond : UInt32.size ≤ number) : supply.nextNumber? hint kind = none := by
  rw [nextNumber?, List.find?_eq_none]
  intro candidate inside accepted
  simp only [Bool.and_eq_true, decide_eq_true_eq, Bool.not_eq_true', isReserved,
    List.contains_eq_mem, decide_eq_false_iff_not] at accepted
  have unused := (List.mem_range'_1.mp inside).1
  have found := least.2 ⟨unused, accepted.2⟩
  omega

theorem all_reserved_iff (least : IsLeast (supply.freeNumbers hint kind) number) :
    (∀ candidate, (supply.count kind).toNat < candidate → candidate < UInt32.size →
      supply.spelling hint kind candidate ∈ supply.reserved) ↔ UInt32.size ≤ number := by
  constructor
  · intro taken
    by_contra fits
    exact least.1.2 (taken number least.1.1 (by omega))
  · intro beyond candidate unused fits
    by_contra free
    exact absurd (least.2 ⟨unused, free⟩) (by omega)

/-- A name that is reserved takes its number out of the unused ones, and the least free number stays. -/
theorem least_after_reserved (least : IsLeast (supply.freeNumbers hint kind) number)
    (room : (supply.count kind).toNat + 1 < UInt32.size)
    (taken : supply.spelling hint kind ((supply.count kind).toNat + 1) ∈ supply.reserved) :
    IsLeast (freeNumbers
      { supply with counters := supply.counters.set kind (.ofNat ((supply.count kind).toNat + 1)) } hint kind)
      number := by
  have counted : ((supply.counters.set kind (.ofNat ((supply.count kind).toNat + 1))).get kind).toNat =
      (supply.count kind).toNat + 1 := by
    rw [Counters.get_set_self]
    exact UInt32.toNat_ofNat_of_lt' room
  obtain ⟨⟨above, free⟩, first⟩ := least
  have passed : number ≠ (supply.count kind).toNat + 1 := by
    intro same
    exact free (same ▸ taken)
  refine ⟨⟨?_, free⟩, ?_⟩
  · rw [count, counted]
    omega
  · intro other member
    obtain ⟨later, unreserved⟩ := member
    rw [count, counted] at later
    exact first ⟨by omega, unreserved⟩

/-- The loop ends with the least free number, or with an overflow if that number is too large. -/
theorem countUp_eq {limit : Nat} (least : IsLeast (supply.freeNumbers hint kind) number)
    (enough : number ≤ (supply.count kind).toNat + limit) :
    countUp hint kind limit supply =
      if number < UInt32.size then
        .ok (some ⟨supply.spelling hint kind number, kind⟩)
          { supply with counters := supply.counters.set kind (.ofNat number) }
      else .error .overflow
        { supply with counters := supply.counters.set kind (.ofNat (UInt32.size - 1)) } := by
  induction limit generalizing supply with
  | zero => exact absurd least.1.1 (by omega)
  | succ limit ih =>
    have above := least.1.1
    by_cases room : (supply.count kind).toNat + 1 < UInt32.size
    · by_cases taken : supply.spelling hint kind ((supply.count kind).toNat + 1) ∈ supply.reserved
      · have once : countOnce hint kind supply = .ok none
            { supply with counters := supply.counters.set kind (.ofNat ((supply.count kind).toNat + 1)) } := by
          simp [countOnce, room, isReserved, taken]
        have rest := ih (least_after_reserved least room taken) (by
          rw [count, Counters.get_set_self, UInt32.toNat_ofNat_of_lt' room]
          omega)
        simp only [countUp, bind, EStateM.bind, once, rest, Counters.set_set]
        rfl
      · have next : number = (supply.count kind).toNat + 1 := by
          apply Nat.le_antisymm _ above
          exact least.2 ⟨Nat.lt_succ_self _, taken⟩
        subst next
        simp [countUp, bind, EStateM.bind, countOnce, room, isReserved, taken, pure, EStateM.pure]
    · have last : supply.count kind = .ofNat (UInt32.size - 1) := by
        have bound : (supply.count kind).toNat < UInt32.size := (supply.count kind).toNat_lt
        have value : UInt32.size - 1 = (supply.count kind).toNat := by omega
        rw [value, UInt32.ofNat_toNat]
      have beyond : ¬ number < UInt32.size := by omega
      simp only [countUp, bind, EStateM.bind, countOnce, room, if_false, beyond]
      rw [← last, count, Counters.set_get]

/-- A new name has the least unused number that spells a free name, and only the counter of its kind
changes. At most as many numbers are passed over as names are reserved. No name is made exactly when every
number that is left spells a reserved one. The loop that counts up by one does the same, in one round more than
names are reserved at most. -/
theorem synthesize_takes_least_free_number (supply : NameSupply) (text : String) (kind : ElementKind) :
    ∃ number, IsLeast (supply.freeNumbers (supply.hint text) kind) number ∧
      number ≤ (supply.count kind).toNat + supply.reserved.toFinset.card + 1 ∧
      (number < UInt32.size → ∃ after,
        synthesize text kind supply = .ok ⟨supply.spelling (supply.hint text) kind number, kind⟩ after ∧
        (after.count kind).toNat = number ∧
        (∀ other, kind ≠ other → after.count other = supply.count other) ∧
        after = { supply with counters := after.counters }) ∧
      ((∃ stop after, synthesize text kind supply = .error stop after) ↔
        ∀ candidate, (supply.count kind).toNat < candidate → candidate < UInt32.size →
          supply.spelling (supply.hint text) kind candidate ∈ supply.reserved) ∧
      ((supply.count kind).toNat + supply.reserved.toFinset.card + 1 < UInt32.size →
        ¬ ∃ stop after, synthesize text kind supply = .error stop after) ∧
      ∀ limit, supply.reserved.toFinset.card < limit →
        countUp (supply.hint text) kind limit supply = (some <$> synthesize text kind) supply := by
  obtain ⟨number, least, bounded⟩ := supply.exists_least_freeNumber (supply.hint text) kind
  have made (fits : number < UInt32.size) : synthesize text kind supply =
      .ok ⟨supply.spelling (supply.hint text) kind number, kind⟩
        { supply with counters := supply.counters.set kind (.ofNat number) } := by
    simp only [synthesize, nextNumber?_of_least least bounded fits]
  have stopped : (∃ stop after, synthesize text kind supply = .error stop after) ↔ UInt32.size ≤ number := by
    constructor
    · rintro ⟨stop, after, failed⟩
      by_contra fits
      rw [made (by omega)] at failed
      cases failed
    · intro beyond
      simp only [synthesize, nextNumber?_eq_none least beyond]
      exact ⟨_, _, rfl⟩
  refine ⟨number, least, bounded, fun fits => ⟨_, made fits, ?_, ?_, rfl⟩, ?_, ?_, ?_⟩
  · simp only [count, Counters.get_set_self]
    exact UInt32.toNat_ofNat_of_lt' fits
  · intro other different
    exact Counters.get_set_other _ _ different
  · rw [stopped, all_reserved_iff least]
  · intro room failed
    have beyond := stopped.mp failed
    omega
  · intro limit enough
    rw [countUp_eq least (by omega)]
    split
    next fits => simp only [Functor.map, EStateM.map, made fits]
    next beyond =>
      simp only [Functor.map, EStateM.map, synthesize, nextNumber?_eq_none least (Nat.le_of_not_lt beyond)]

end Scribe.NameSupply
