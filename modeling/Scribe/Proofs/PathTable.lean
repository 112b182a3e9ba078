import Mathlib.Data.List.Nodup
import Mathlib.Data.List.Perm.Basic
import Scribe.Proofs.BaseWalk

/-! The table of declared paths. Where no scope holds a name, lookup asks of the paths that agree with it
only whether there are none, one or several. So it makes no difference in which order a table holds its
rows. -/

namespace Scribe.DeclarationIndex

variable {index : DeclarationIndex} {rows : List (String × Entry)} {path : String} {entry : Entry}

/-- A table of the declared paths, each once and with its first entry. The order of the rows is left
open. -/
structure Tabulates (index : DeclarationIndex) (rows : List (String × Entry)) : Prop where
  distinct : (rows.map Prod.fst).Nodup
  mem_iff : ∀ path entry, (path, entry) ∈ rows ↔ index.atPath? path = some entry

/-- One candidate is taken, several are too many. -/
def choice : List Entry → Except LookupError Entry
  | [] => .error .missing
  | [entry] => .ok entry
  | _ :: _ :: _ => .error .ambiguous

/-- Lookup in a table, going through its rows in their order. -/
def resolveBy (rows : List (String × Entry)) (scope : List Char) (written : String) :
    Except LookupError Entry :=
  let name := Path.ofWritten written
  let held := (Path.scopes scope).findSome? fun scope =>
    (rows.find? fun row => row.1 = .ofList (Path.qualify scope name)).map Prod.snd
  match held with
  | some entry => .ok entry
  | none => choice ((rows.filter fun row => Path.agree row.1.toList name).map Prod.snd)

theorem choice_perm {left right : List Entry} (same : left.Perm right) : choice left = choice right := by
  match left, right, same.length_eq with
  | [], [], _ => rfl
  | [first], [second], _ =>
    rw [List.perm_singleton.mp same]
  | _ :: _ :: _, _ :: _ :: _, _ => rfl

theorem resolve_eq_choice (index : DeclarationIndex) (scope : List Char) (written : String) :
    index.resolve scope written =
      match index.inScope? scope (Path.ofWritten written) with
      | some entry => .ok entry
      | none => choice (index.agreeing (Path.ofWritten written)) := by
  simp only [resolve]
  cases index.inScope? scope (Path.ofWritten written) with
  | some entry => rfl
  | none =>
    match index.agreeing (Path.ofWritten written) with
    | [] => rfl
    | [_] => rfl
    | _ :: _ :: _ => rfl

theorem atPath?_path (found : index.atPath? path = some entry) : entry.path = path := by
  have holds := List.find?_some found
  exact of_decide_eq_true holds

private theorem nodup_eraseDups (items : List String) : items.eraseDups.Nodup := by
  match items with
  | [] => exact List.nodup_nil
  | first :: rest =>
    rw [List.eraseDups_cons, List.nodup_cons, List.mem_eraseDups]
    exact ⟨by simp, nodup_eraseDups _⟩
termination_by items.length
decreasing_by
  have shorter := List.length_filter_le (fun item => !item == first) rest
  simp only [List.length_cons]
  omega

theorem mem_agreeing {name : List Char} :
    entry ∈ index.agreeing name ↔
      Path.agree entry.path.toList name = true ∧ index.atPath? entry.path = some entry := by
  simp only [agreeing, List.mem_filterMap, List.mem_filter, List.mem_eraseDups, List.mem_map]
  constructor
  · rintro ⟨path, ⟨-, agrees⟩, found⟩
    rw [atPath?_path found]
    exact ⟨agrees, found⟩
  · rintro ⟨agrees, found⟩
    exact ⟨entry.path, ⟨⟨entry, atPath?_mem found, rfl⟩, agrees⟩, found⟩

theorem agreeing_nodup (index : DeclarationIndex) (name : List Char) : (index.agreeing name).Nodup := by
  have paths : (index.entries.map (·.path)).eraseDups.Nodup := nodup_eraseDups _
  apply (paths.filter _).filterMap
  intro first second entry firstFound secondFound
  exact (atPath?_path firstFound).symm.trans (atPath?_path secondFound)

/-- The declared paths in the order of their first entries. -/
def table (index : DeclarationIndex) : List (String × Entry) :=
  (index.entries.map (·.path)).eraseDups.filterMap fun path => (index.atPath? path).map (path, ·)

theorem tabulates_table (index : DeclarationIndex) : index.Tabulates index.table where
  distinct := by
    have paths : (index.entries.map (·.path)).eraseDups.Pairwise (· ≠ ·) := nodup_eraseDups _
    apply List.pairwise_map.mpr
    apply paths.filterMap
    intro first second differ row firstRow other secondRow
    obtain ⟨entry, -, rfl⟩ := Option.map_eq_some_iff.mp firstRow
    obtain ⟨entry, -, rfl⟩ := Option.map_eq_some_iff.mp secondRow
    exact differ
  mem_iff path entry := by
    simp only [table, List.mem_filterMap, List.mem_eraseDups, List.mem_map]
    constructor
    · intro ⟨listed, _, row⟩
      obtain ⟨found, atListed, same⟩ := Option.map_eq_some_iff.mp row
      cases same
      exact atListed
    · intro found
      refine ⟨path, ⟨entry, atPath?_mem found, atPath?_path found⟩, ?_⟩
      rw [found, Option.map_some]

theorem Tabulates.of_perm {other : List (String × Entry)} (tabulates : index.Tabulates rows)
    (same : other.Perm rows) : index.Tabulates other where
  distinct := (same.map Prod.fst).nodup_iff.mpr tabulates.distinct
  mem_iff path entry := same.mem_iff.trans (tabulates.mem_iff path entry)

theorem Tabulates.find? (tabulates : index.Tabulates rows) (path : String) :
    (rows.find? fun row => row.1 = path).map Prod.snd = index.atPath? path := by
  cases found : rows.find? fun row => row.1 = path with
  | some row =>
    have holds := List.find?_some found
    have same : row.1 = path := of_decide_eq_true holds
    have listed : (row.1, row.2) ∈ rows := List.mem_of_find?_eq_some found
    rw [Option.map_some, ← (tabulates.mem_iff row.1 row.2).mp listed, same]
  | none =>
    symm
    rw [Option.map_none, Option.eq_none_iff_forall_ne_some]
    intro entry held
    have listed := (tabulates.mem_iff path entry).mpr held
    exact List.find?_eq_none.mp found _ listed (decide_eq_true rfl)

theorem Tabulates.perm_agreeing (tabulates : index.Tabulates rows) (name : List Char) :
    ((rows.filter fun row => Path.agree row.1.toList name).map Prod.snd).Perm (index.agreeing name) := by
  have path {row : String × Entry} (listed : row ∈ rows) : row.2.path = row.1 :=
    atPath?_path ((tabulates.mem_iff row.1 row.2).mp listed)
  have nodup : ((rows.filter fun row => Path.agree row.1.toList name).map Prod.snd).Nodup := by
    apply List.Nodup.map_on
    · intro first firstKept second secondKept same
      have firstListed := (List.mem_filter.mp firstKept).1
      have secondListed := (List.mem_filter.mp secondKept).1
      exact Prod.ext ((path firstListed).symm.trans (same ▸ path secondListed)) same
    · exact tabulates.distinct.of_map.filter _
  apply (List.perm_ext_iff_of_nodup nodup (agreeing_nodup index name)).mpr
  intro entry
  rw [mem_agreeing, List.mem_map]
  constructor
  · rintro ⟨row, kept, rfl⟩
    obtain ⟨listed, agrees⟩ := List.mem_filter.mp kept
    rw [path listed]
    exact ⟨agrees, (tabulates.mem_iff row.1 row.2).mp listed⟩
  · rintro ⟨agrees, found⟩
    exact ⟨(entry.path, entry), List.mem_filter.mpr ⟨(tabulates.mem_iff _ _).mpr found, agrees⟩, rfl⟩

/-- Lookup is the same whatever the order of the rows. -/
theorem Tabulates.resolveBy_eq (tabulates : index.Tabulates rows) (scope : List Char) (written : String) :
    resolveBy rows scope written = index.resolve scope written := by
  simp only [resolveBy, tabulates.find?, choice_perm (tabulates.perm_agreeing _), resolve_eq_choice,
    inScope?]

end Scribe.DeclarationIndex
