import Scribe.Proofs.Exits
import Scribe.Proofs.NameSpelling

/-! Runs of calls on one supply of names. Numbers of a kind only grow, so no name is given twice, and a
name is never given while it is reserved. -/

namespace Scribe

namespace Counters

theorem get_set_self (counters : Counters) (kind : ElementKind) (count : UInt32) :
    (counters.set kind count).get kind = count := by
  simp [get, set]

theorem get_set_other {kind other : ElementKind} (counters : Counters) (count : UInt32)
    (different : kind ≠ other) : (counters.set kind count).get other = counters.get other := by
  have places : kind.index.val ≠ other.index.val := fun same =>
    different (ElementKind.index_injective (Fin.ext same))
  simp only [get, set]
  exact Vector.getElem_set_ne _ _ places

theorem set_get (counters : Counters) (kind : ElementKind) : counters.set kind (counters.get kind) = counters := by
  simp [set, get]

theorem set_set (counters : Counters) (kind : ElementKind) (first second : UInt32) :
    (counters.set kind first).set kind second = counters.set kind second := by
  simp only [set, Vector.set_set]

end Counters

namespace NameSupply

inductive Call where
  | synthesize (text : String) (kind : ElementKind)
  | reserve (name : String)
deriving DecidableEq, Repr

/-- The names that calls return, one after another. A counter that overflows ends the run. -/
def run : List Call → EStateM Overflow NameSupply (List SyntheticName)
  | [] => pure []
  | .synthesize text kind :: rest => do
    let name ← synthesize text kind
    return name :: (← run rest)
  | .reserve name :: rest => do
    modify (·.reserve name)
    run rest

theorem synthesize_ok {text : String} {kind : ElementKind} {supply after : NameSupply}
    {name : SyntheticName} (made : synthesize text kind supply = .ok name after) :
    ∃ number, (supply.count kind).toNat < number ∧ number < UInt32.size ∧
      name = ⟨supply.spelling (supply.hint text) kind number, kind⟩ ∧
      supply.isReserved name.name = false ∧
      after = { supply with counters := supply.counters.set kind (.ofNat number) } := by
  simp only [synthesize] at made
  split at made
  next number found =>
    obtain ⟨rfl, rfl⟩ := EStateM.Result.ok.inj made
    have inside := List.mem_of_find?_eq_some found
    have free := List.find?_some found
    simp only [List.mem_range'_1] at inside
    simp only [Bool.and_eq_true, decide_eq_true_eq, Bool.not_eq_true'] at free
    exact ⟨number, by omega, free.1, rfl, free.2, rfl⟩
  next => cases made

theorem count_set {number : Nat} (supply : NameSupply) (kind : ElementKind) (fits : number < UInt32.size) :
    (NameSupply.count { supply with
      counters := supply.counters.set kind (.ofNat number) } kind).toNat = number := by
  simp only [count, Counters.get_set_self]
  exact UInt32.toNat_ofNat_of_lt' fits

/-- The counter of the kind is the number of the name. -/
theorem synthesize_count {text : String} {kind : ElementKind} {supply after : NameSupply}
    {name : SyntheticName} (made : synthesize text kind supply = .ok name after) :
    ∃ hint, name.name = supply.spelling hint kind (after.count kind).toNat ∧ name.kind = kind ∧
      (supply.count kind).toNat < (after.count kind).toNat ∧
      (∀ other, kind ≠ other → after.count other = supply.count other) ∧
      after.lead = supply.lead ∧ after.reserved = supply.reserved := by
  obtain ⟨number, above, fits, rfl, -, rfl⟩ := synthesize_ok made
  have counted := supply.count_set kind fits
  refine ⟨supply.hint text, ?_, rfl, ?_, ?_, rfl, rfl⟩
  · rw [counted]
  · rw [counted]
    exact above
  · intro other different
    exact Counters.get_set_other _ _ different

theorem run_synthesize {text : String} {kind : ElementKind} {rest : List Call}
    {supply final : NameSupply} {names : List SyntheticName} :
    run (.synthesize text kind :: rest) supply = .ok names final ↔
      ∃ name next others, synthesize text kind supply = .ok name next ∧
        run rest next = .ok others final ∧ names = name :: others := by
  rw [run, bind_eq_ok]
  constructor
  · intro ⟨name, next, made, finished⟩
    obtain ⟨others, _, ended, ⟨⟩⟩ := bind_eq_ok.mp finished
    exact ⟨name, next, others, made, ended, rfl⟩
  · intro ⟨name, next, others, made, ended, same⟩
    subst same
    exact ⟨name, next, made, bind_eq_ok.mpr ⟨others, final, ended, rfl⟩⟩

theorem run_reserve (name : String) (rest : List Call) (supply : NameSupply) :
    run (.reserve name :: rest) supply = run rest (supply.reserve name) :=
  rfl

theorem run_append {first second : List Call} {supply final : NameSupply}
    {names : List SyntheticName} :
    run (first ++ second) supply = .ok names final ↔
      ∃ earlier middle later, run first supply = .ok earlier middle ∧
        run second middle = .ok later final ∧ names = earlier ++ later := by
  induction first generalizing supply names with
  | nil =>
    constructor
    · intro finished
      exact ⟨[], supply, names, rfl, finished, rfl⟩
    · intro ⟨_, _, _, nothing, finished, same⟩
      cases nothing
      cases same
      exact finished
  | cons call rest ih =>
    cases call with
    | reserve name => exact ih
    | synthesize text kind =>
      simp only [List.cons_append, run_synthesize, ih]
      constructor
      · rintro ⟨name, next, _, made, ⟨earlier, middle, later, reached, finished, rfl⟩, rfl⟩
        exact ⟨name :: earlier, middle, later, ⟨name, next, earlier, made, reached, rfl⟩, finished, rfl⟩
      · rintro ⟨_, middle, later, ⟨name, next, earlier, made, reached, rfl⟩, finished, rfl⟩
        exact ⟨name, next, earlier ++ later, made, ⟨earlier, middle, later, reached, finished, rfl⟩, rfl⟩

theorem isReserved_reserve {supply : NameSupply} {name other : String} :
    (supply.reserve name).isReserved other = true ↔ supply.isReserved other = true ∨ other = name := by
  simp only [isReserved, reserve, List.contains_iff_mem, List.mem_insert_iff]
  exact or_comm

/-- Nothing is reserved but what the calls reserve. -/
theorem run_isReserved {calls : List Call} {supply final : NameSupply} {names : List SyntheticName}
    {name : String} (finished : run calls supply = .ok names final) :
    final.isReserved name = true ↔ supply.isReserved name = true ∨ .reserve name ∈ calls := by
  induction calls generalizing supply names with
  | nil =>
    cases finished
    simp
  | cons call rest ih =>
    cases call with
    | reserve other =>
      rw [run_reserve] at finished
      rw [ih finished, isReserved_reserve, List.mem_cons, or_assoc, Call.reserve.injEq]
    | synthesize text kind =>
      obtain ⟨made, next, others, step, finished, -⟩ := run_synthesize.mp finished
      obtain ⟨-, -, -, -, -, -, reserved⟩ := synthesize_count step
      rw [ih finished, isReserved, reserved, List.mem_cons]
      simp [isReserved]

/-- The names of a run carry numbers beyond those that were used before it, and differ from one
another. -/
theorem run_numbers {calls : List Call} {supply final : NameSupply} {names : List SyntheticName}
    (finished : run calls supply = .ok names final) :
    (∀ name ∈ names, ∃ hint number, name.name = supply.spelling hint name.kind number ∧
      (supply.count name.kind).toNat < number) ∧ (names.map (·.name)).Nodup := by
  induction calls generalizing supply names with
  | nil =>
    cases finished
    exact ⟨nofun, List.nodup_nil⟩
  | cons call rest ih =>
    cases call with
    | reserve name =>
      rw [run_reserve] at finished
      have reserved := ih finished
      exact reserved
    | synthesize text kind =>
      obtain ⟨first, next, others, made, ended, rfl⟩ := run_synthesize.mp finished
      obtain ⟨numbered, distinct⟩ := ih ended
      obtain ⟨hint, spelled, rfl, grown, unchanged, lead, -⟩ := synthesize_count made
      constructor
      · intro name member
        rcases List.mem_cons.mp member with rfl | member
        · exact ⟨hint, _, spelled, grown⟩
        · obtain ⟨otherHint, number, otherSpelled, above⟩ := numbered name member
          refine ⟨otherHint, number, ?_, ?_⟩
          · rw [otherSpelled, spelling, spelling, lead]
          · by_cases same : first.kind = name.kind
            · rw [← same] at above ⊢
              omega
            · rwa [unchanged name.kind same] at above
      · rw [List.map_cons, List.nodup_cons]
        refine ⟨?_, distinct⟩
        intro repeated
        obtain ⟨name, member, same⟩ := List.mem_map.mp repeated
        obtain ⟨otherHint, number, otherSpelled, above⟩ := numbered name member
        rw [otherSpelled, spelled] at same
        -- The later name would have to carry the number that is used up here.
        obtain ⟨kinds, numbers⟩ := spelling_determines lead same
        rw [kinds] at above
        omega

/-- Whatever is synthesized and reserved in whatever order, the names of a run are pairwise distinct,
and none was reserved when it was made, neither by the settings nor by an earlier call. Even the names
of different supplies, if they share a lead, are equal only for equal kinds and counters. -/
theorem run_names_distinct_and_free {settings : NamingSettings} {calls : List Call}
    {names : List SyntheticName} {final : NameSupply}
    (finished : run calls (.ofSettings settings) = .ok names final) :
    (names.map (·.name)).Nodup ∧
    (∀ before text kind after, calls = before ++ .synthesize text kind :: after →
      ∃ earlier name later supply next, names = earlier ++ name :: later ∧
        run before (.ofSettings settings) = .ok earlier supply ∧
        synthesize text kind supply = .ok name next ∧
        name.name ∉ settings.reserved ∧ .reserve name.name ∉ before) ∧
    (∀ left right leftText rightText leftKind rightKind leftName rightName leftAfter rightAfter,
      left.lead = right.lead → synthesize leftText leftKind left = .ok leftName leftAfter →
      synthesize rightText rightKind right = .ok rightName rightAfter →
      leftName.name = rightName.name → leftName.kind = rightName.kind ∧
        leftAfter.count leftName.kind = rightAfter.count rightName.kind) := by
  refine ⟨(run_numbers finished).2, ?_, ?_⟩
  · intro before text kind after split
    subst split
    obtain ⟨earlier, supply, _, reached, ended, rfl⟩ := run_append.mp finished
    obtain ⟨name, next, later, made, -, rfl⟩ := run_synthesize.mp ended
    obtain ⟨-, -, -, -, free, -⟩ := synthesize_ok made
    have notReserved : ¬ (name.name ∈ settings.reserved ∨ .reserve name.name ∈ before) := by
      have start : (ofSettings settings).isReserved name.name = true ↔ name.name ∈ settings.reserved := by
        simp [isReserved, ofSettings]
      rw [← start, ← run_isReserved reached, free]
      exact Bool.false_ne_true
    exact ⟨earlier, name, later, supply, next, rfl, reached, made, fun member => notReserved (Or.inl member),
      fun member => notReserved (Or.inr member)⟩
  · intro left right leftText rightText leftKind rightKind leftName rightName leftAfter rightAfter
      lead leftMade rightMade same
    obtain ⟨leftHint, leftSpelled, rfl, -⟩ := synthesize_count leftMade
    obtain ⟨rightHint, rightSpelled, rfl, -⟩ := synthesize_count rightMade
    rw [leftSpelled, rightSpelled] at same
    obtain ⟨kinds, numbers⟩ := spelling_determines lead same
    exact ⟨kinds, UInt32.toNat_inj.mp numbers⟩

def contestedSettings : NamingSettings where
  lead := "cc_"
  reserved := ["__cc_l_x_1"]

/-- One number is taken by the settings and one by a call, and a hint imitates the third. -/
def contestedCalls : List Call :=
  [.synthesize "x" .local, .reserve "__cc_l_x_3", .synthesize "x" .local, .synthesize "x_2" .local]

theorem run_contested_names :
    ∃ names final, run contestedCalls (.ofSettings contestedSettings) = .ok names final ∧
      names.map (·.name) = ["__cc_l_x_2", "__cc_l_x_4", "__cc_l_x_2_5"] ∧
      (names.map (·.name)).Nodup := by
  have reached : ∃ names final, run contestedCalls (.ofSettings contestedSettings) = .ok names final ∧
      names.map (·.name) = ["__cc_l_x_2", "__cc_l_x_4", "__cc_l_x_2_5"] :=
    ⟨_, _, rfl, by decide⟩
  obtain ⟨names, final, finished, spelled⟩ := reached
  exact ⟨names, final, finished, spelled, (run_names_distinct_and_free finished).1⟩

end NameSupply

end Scribe
