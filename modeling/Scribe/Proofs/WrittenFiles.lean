import Scribe.Files.Disk
import Scribe.Proofs.KeyedLists

/-! Files read back after they were written. Writing puts a file where no directory was, so every directory
stays one and a path leads where it led before. -/

namespace Scribe

namespace FileTree

variable {tree later : FileTree} {place other parent target steps : List String} {name : String}
  {item : FileTree}

theorem isDirectory_cons :
    tree.isDirectory (name :: place) = true ↔
      ∃ entries child, tree = .directory entries ∧ entries.lookup name = some child ∧
        child.isDirectory place = true := by
  cases tree with
  | file content => simp [isDirectory, get?, entry?]
  | directory entries =>
    cases found : entries.lookup name with
    | none => simp [isDirectory, get?, entry?, found]
    | some child => simp [isDirectory, get?, entry?, found]

theorem isDirectory_dropLast (opened : tree.isDirectory place = true) :
    tree.isDirectory place.dropLast = true := by
  induction place generalizing tree with
  | nil => exact opened
  | cons name place ih =>
    obtain ⟨entries, child, rfl, found, inside⟩ := isDirectory_cons.mp opened
    cases place with
    | nil => rfl
    | cons next place =>
      rw [List.dropLast_cons_cons]
      exact isDirectory_cons.mpr ⟨entries, child, rfl, found, ih inside⟩

theorem get?_set (opened : tree.isDirectory parent = true) :
    (tree.set (parent ++ [name]) item).get? (parent ++ [name]) = some item := by
  induction parent generalizing tree with
  | nil =>
    cases tree with
    | file content => cases opened
    | directory entries => simp [set, get?, entry?]
  | cons first parent ih =>
    obtain ⟨entries, child, rfl, found, inside⟩ := isDirectory_cons.mp opened
    simp [set, get?, entry?, found, ih inside]

theorem isDirectory_set (free : tree.isDirectory place = false) (opened : tree.isDirectory other = true) :
    (tree.set place item).isDirectory other = true := by
  induction place generalizing tree other with
  | nil =>
    cases tree with
    | file content =>
      cases other with
      | nil => cases opened
      | cons name other =>
        obtain ⟨entries, child, same, _⟩ := isDirectory_cons.mp opened
        cases same
    | directory entries => cases free
  | cons name place ih =>
    cases tree with
    | file content => exact opened
    | directory entries =>
      cases other with
      | nil => rfl
      | cons step other =>
        obtain ⟨_, child, same, found, inside⟩ := isDirectory_cons.mp opened
        cases same
        apply isDirectory_cons.mpr
        by_cases sameName : step = name
        · subst sameName
          have innerFree : child.isDirectory place = false := by
            apply Bool.eq_false_iff.mpr
            intro inner
            rw [isDirectory_cons.mpr ⟨entries, child, rfl, found, inner⟩] at free
            cases free
          refine ⟨_, child.set place item, rfl, ?_, ih innerFree inside⟩
          simp [found]
        · refine ⟨_, child, rfl, ?_, inside⟩
          have passed : (step == name) = false := beq_eq_false_iff_ne.mpr sameName
          rw [List.lookup_cons, passed]
          exact (lookup_filter_ne sameName).trans found

theorem walk?_of_keeps (keeps : ∀ place, tree.isDirectory place = true → later.isDirectory place = true)
    (walked : tree.walk? place steps = some target) : later.walk? place steps = some target := by
  induction steps generalizing place with
  | nil => exact walked
  | cons step steps ih =>
    rw [walk?] at walked ⊢
    split at walked
    next going =>
      rw [Bool.and_eq_true] at going
      rw [if_pos (by simp [going.1, keeps place going.2])]
      exact ih walked
    next => cases walked

/-- A way ends in a directory, or at a name inside one. -/
theorem walk?_end (walked : tree.walk? place steps = some target) (moving : steps ≠ []) :
    tree.isDirectory target = true ∨
      ∃ parent name, target = parent ++ [name] ∧ tree.isDirectory parent = true := by
  induction steps generalizing place with
  | nil => exact absurd rfl moving
  | cons step steps ih =>
    rw [walk?] at walked
    split at walked
    next going =>
      rw [Bool.and_eq_true] at going
      by_cases last : steps = []
      · subst last
        cases walked
        rw [next]
        split
        next => exact .inl (isDirectory_dropLast going.2)
        next => exact .inr ⟨place, step, rfl, going.2⟩
      · exact ih walked last
    next => cases walked

end FileTree

namespace FilePath

theorem splitAt_ne_nil (separator : Char) (text : List Char) : splitAt separator text ≠ [] := by
  cases text with
  | nil => exact List.cons_ne_nil _ _
  | cons c rest =>
    rw [splitAt]
    split
    next => exact List.cons_ne_nil _ _
    next => split <;> exact List.cons_ne_nil _ _

/-- A path that can stand for a file leads somewhere. -/
theorem steps_ne_nil {path : String} (file : namesDirectory path = false) : steps path ≠ [] := by
  have some_parts : parts path ≠ [] := by
    simp [parts, splitAt_ne_nil]
  have last := List.getLast?_eq_some_getLast some_parts
  simp only [namesDirectory, last, Bool.or_eq_false_iff, decide_eq_false_iff_not] at file
  apply List.ne_nil_of_mem
  exact List.mem_filter.mpr ⟨List.getLast_mem some_parts, by simp [file]⟩

end FilePath

namespace Disk

variable {disk after : Disk} {path : String} {content : ByteArray}

theorem place?_eq_some_iff {place : List String} :
    disk.place? path = some place ↔
      (path ≠ "" ∧ FilePath.namesDirectory path = false ∧ FilePath.isUsable path = true) ∧
        disk.root.walk? (disk.start path) (FilePath.steps path) = some place := by
  unfold place?
  split
  next unusable =>
    simp only [Bool.or_eq_true, decide_eq_true_eq, Bool.not_eq_true'] at unusable
    grind
  next usable =>
    simp only [Bool.or_eq_true, not_or, decide_eq_true_eq, Bool.not_eq_true', Bool.not_eq_true,
      Bool.not_eq_false] at usable
    simp [usable]

theorem read?_write? (written : disk.write? path content = some after) : after.read? path = some content := by
  simp only [write?, Option.bind_eq_bind, Option.bind_eq_some_iff] at written
  obtain ⟨place, led, written⟩ := written
  split at written
  next => cases written
  next free =>
    cases written
    obtain ⟨usable, walked⟩ := place?_eq_some_iff.mp led
    obtain opened | ⟨parent, name, rfl, opened⟩ := FileTree.walk?_end walked (FilePath.steps_ne_nil usable.2.1)
    · exact absurd opened free
    -- The directories on the way are still there, so the path leads to the same place.
    · have keeps : ∀ place, disk.root.isDirectory place = true →
          (disk.root.set (parent ++ [name]) (.file content)).isDirectory place = true :=
        fun _ => FileTree.isDirectory_set (Bool.eq_false_iff.mpr free)
      have ledAgain : Disk.place? ⟨disk.root.set (parent ++ [name]) (.file content), disk.home⟩ path =
          some (parent ++ [name]) :=
        place?_eq_some_iff.mpr ⟨usable, FileTree.walk?_of_keeps keeps walked⟩
      rw [read?, ledAgain]
      simp only [Option.bind_eq_bind, Option.bind_some, FileTree.get?_set opened]

end Disk

end Scribe
