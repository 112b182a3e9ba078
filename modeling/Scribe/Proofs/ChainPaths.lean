import Scribe.Proofs.PathTable

/-! The paths along a chain. The walk remembers the numbers of the declarations that it has met, while a
name leads to the first declaration of a path. So a path comes back in a chain only if the walk starts at
a later declaration of that path. -/

namespace Scribe.DeclarationIndex

variable {index : DeclarationIndex} {entry : Entry}

theorem choice_mem {candidates : List Entry} (chosen : choice candidates = .ok entry) :
    entry ∈ candidates := by
  match candidates with
  | [] => cases chosen
  | [_] =>
    cases chosen
    exact List.mem_cons_self
  | _ :: _ :: _ => cases chosen

/-- A name leads to the first declaration of a path. -/
theorem resolve_first {scope : List Char} {written : String}
    (resolved : index.resolve scope written = .ok entry) : index.atPath? entry.path = some entry := by
  rw [resolve_eq_choice] at resolved
  split at resolved
  next found inScope =>
    cases resolved
    obtain ⟨outer, -, found⟩ := List.exists_of_findSome?_eq_some inScope
    rw [atPath?_path found]
    exact found
  next => exact (mem_agreeing.mp (choice_mem resolved)).2

/-- A walk meets first declarations only, each at most once, and none that had been met before. -/
theorem follow_chain {chain : List Entry} (name : String) (unvisited : List Nat) (path : String)
    (written : Option String) (distinct : unvisited.Nodup)
    (found : index.follow name unvisited path written = .ok chain) :
    (∀ entry ∈ chain, entry.number ∈ unvisited ∧ index.atPath? entry.path = some entry) ∧
      (chain.map (·.number)).Nodup := by
  -- Recursion on the list of unvisited declarations, like the walk itself.
  cases written with
  | none =>
    rw [follow] at found
    cases found
    exact ⟨List.forall_mem_nil _, List.nodup_nil⟩
  | some base =>
    rcases ends_or_leads index path base with ⟨outcome, ends⟩ | ⟨entry, leads⟩
    · rw [ends.follow] at found
      subst found
      cases ends
      exact ⟨List.forall_mem_nil _, List.nodup_nil⟩
    · rw [leads.follow] at found
      split at found
      next unseen =>
        cases continues : index.follow name (unvisited.erase entry.number) entry.path
            entry.declaration.base with
        | error cause =>
          rw [continues] at found
          cases found
        | ok rest =>
          rw [continues] at found
          cases found
          obtain ⟨met, once⟩ := follow_chain name (unvisited.erase entry.number) entry.path
            entry.declaration.base (distinct.erase _) continues
          have first := resolve_first (resolve_of_resolveBase leads.1)
          constructor
          · intro other member
            rcases List.mem_cons.mp member with rfl | member
            · exact ⟨unseen, first⟩
            · exact ⟨List.mem_of_mem_erase (met other member).1, (met other member).2⟩
          · apply List.nodup_cons.mpr
            refine ⟨?_, once⟩
            intro again
            obtain ⟨other, member, same⟩ := List.mem_map.mp again
            have stillUnseen := (met other member).1
            rw [same] at stillUnseen
            exact distinct.not_mem_erase stillUnseen
      next => cases found
termination_by unvisited.length
decreasing_by
  apply length_erase_lt
  assumption

theorem path_ne_of_number_ne {other : Entry} (first : index.atPath? entry.path = some entry)
    (otherFirst : index.atPath? other.path = some other) (differ : entry.number ≠ other.number) :
    entry.path ≠ other.path := by
  intro same
  rw [same, otherFirst] at first
  cases first
  exact differ rfl

theorem numbers_nodup (tree : SourceTree) : ((ofTree tree).entries.map (·.number)).Nodup := by
  have numbers : (ofTree tree).entries.map (·.number) = List.range' 0 tree.listing.length := by
    rw [ofTree, List.map_map]
    exact List.zipIdx_map_snd 0 tree.listing
  rw [numbers]
  exact List.nodup_range'

/-- The declarations of a chain are the first ones of their paths, and these paths differ. The path of the
declaration that the chain belongs to is not among them, unless the chain comes to another declaration of
that path; and it never does so from the first one. -/
theorem chain_paths_distinct (tree : SourceTree) (entry : Entry) (chain : List Entry)
    (found : (ofTree tree).ancestors (.listed entry) = .ok chain) :
    (∀ other ∈ chain, (ofTree tree).atPath? other.path = some other) ∧
    (chain.map (·.path)).Nodup ∧
    (((entry :: chain).map (·.path)).Nodup ↔
      ∀ first, (ofTree tree).atPath? entry.path = some first → first ∉ chain) ∧
    ((ofTree tree).atPath? entry.path = some entry → ((entry :: chain).map (·.path)).Nodup) := by
  have numbers := numbers_nodup tree
  rw [ancestors_eq_follow] at found
  obtain ⟨met, once⟩ := follow_chain _ _ _ _ (numbers.erase entry.number) found
  have firsts : ∀ other ∈ chain, (ofTree tree).atPath? other.path = some other :=
    fun other member => (met other member).2
  have paths : (chain.map (·.path)).Nodup := by
    apply List.pairwise_map.mpr
    apply (List.pairwise_map.mp once).imp_of_mem
    intro left right leftMember rightMember differ
    exact path_ne_of_number_ne (firsts left leftMember) (firsts right rightMember) differ
  have distinct : ((entry :: chain).map (·.path)).Nodup ↔
      ∀ first, (ofTree tree).atPath? entry.path = some first → first ∉ chain := by
    rw [List.map_cons, List.nodup_cons]
    constructor
    · intro ⟨fresh, _⟩ first atEntry member
      exact fresh (List.mem_map.mpr ⟨first, member, atPath?_path atEntry⟩)
    · intro avoided
      refine ⟨?_, paths⟩
      intro again
      obtain ⟨other, member, same⟩ := List.mem_map.mp again
      exact avoided other (same ▸ firsts other member) member
  refine ⟨firsts, paths, distinct, ?_⟩
  intro isFirst
  apply distinct.mpr
  intro first atEntry member
  -- The entry itself is crossed off before the walk starts.
  rw [isFirst] at atEntry
  cases atEntry
  exact numbers.not_mem_erase (met entry member).1

def partRecord (name : String) (base : Option String) : Declaration where
  name := name
  kind := .recordClass
  primary := some []
  base := base
  members := []
  span := ⟨⟨1, 1⟩, ⟨1, 1⟩⟩

/-- A record in two parts. The second part has a base whose own base is the record again. -/
def partTree : SourceTree where
  declarations := [partRecord "Part" none, partRecord "Middle" (some "Part"),
    partRecord "Part" (some "Middle")]

def firstPart : Entry :=
  ⟨0, "Part", partRecord "Part" none⟩

def middlePart : Entry :=
  ⟨1, "Middle", partRecord "Middle" (some "Part")⟩

def laterPart : Entry :=
  ⟨2, "Part", partRecord "Part" (some "Middle")⟩

theorem chain_paths_distinct_middle :
    (ofTree partTree).ancestors (.listed middlePart) = .ok [firstPart] ∧
      (ofTree partTree).atPath? "Middle" = some middlePart ∧
      (["Middle", "Part"] : List String).Nodup := by
  have found : (ofTree partTree).ancestors (.listed middlePart) = .ok [firstPart] := by
    cbv
  have isFirst : (ofTree partTree).atPath? "Middle" = some middlePart := by
    cbv
  exact ⟨found, isFirst, (chain_paths_distinct partTree middlePart [firstPart] found).2.2.2 isFirst⟩

/-- From the second part the chain comes back to the path of the record, and no cycle is reported. -/
theorem chain_paths_repeated_later :
    laterPart ∈ (ofTree partTree).entries ∧
      (ofTree partTree).ancestors (.listed laterPart) = .ok [middlePart, firstPart] ∧
      ¬ ([laterPart, middlePart, firstPart].map (·.path)).Nodup := by
  refine ⟨List.mem_of_getElem? (i := 2) (by cbv), by cbv, by decide⟩

end Scribe.DeclarationIndex
