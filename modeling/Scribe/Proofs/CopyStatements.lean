import Scribe.Proofs.RenderedLines
import Scribe.Proofs.TextCuts
import Scribe.Reference.Clone

/-! The statements that make a copy of a method reference: first the declaration of a variable, then loops
that fill its lists from the source. From the texts alone one can tell which variable a statement declares
and how many lines it fills. -/

namespace Scribe

/-- A statement that does not end with a line break is kept as it is. -/
theorem Writer.trimmed_of_visible {statement : String} {front : List Char} {last : Char}
    (ends : statement.toList = front ++ [last]) (visible : last ≠ '\n') :
    Writer.trimmed statement = statement := by
  apply String.toList_inj.mp
  simp [Writer.trimmed, Text.dropTrailing, ends, visible]

theorem ClonedReference.emit_eq_ok {clone : ClonedReference} {handle : Handle} {writer later : Writer} :
    clone.emit writer = .ok handle later ↔
      Writer.writeAll clone.statements writer = .ok () later ∧ handle = clone.handle := by
  rw [emit, bind_eq_ok]
  constructor
  · rintro ⟨_, _, written, ⟨⟩⟩
    exact ⟨written, rfl⟩
  · rintro ⟨written, rfl⟩
    exact ⟨(), later, written, rfl⟩

/-- No replacing text has a line break. -/
def Overrides.Flat (overrides : Overrides) : Prop :=
  ∀ property text, overrides.get? property = some text → '\n' ∉ text.toList

namespace Handle

variable {handle source copy : Handle} {overrides : Overrides} {method : MethodSymbol}
  {item list added : String}

/-- The statement begins with the declaration of the variable. -/
def Declares (handle : Handle) (statement : String) : Prop :=
  ("var " ++ handle.text ++ " = ").toList <+: statement.toList

instance (handle : Handle) (statement : String) : Decidable (handle.Declares statement) :=
  inferInstanceAs (Decidable (_ <+: _))

theorem copyLoops_eq (source copy : Handle) (method : MethodSymbol) :
    source.copyLoops copy method =
      (if method.parameters = [] then [] else [source.parameterLoop copy]) ++
        (if method.typeParameters = [] then [] else [source.typeParameterLoop copy]) := by
  rw [copyLoops, MethodSymbol.isGeneric]
  congr 1
  · cases method.parameters <;> rfl
  · cases method.typeParameters <;> rfl

theorem mem_copyLoops {statement : String} (member : statement ∈ source.copyLoops copy method) :
    ∃ item list added, statement = source.copyLoop copy item list added := by
  rw [copyLoops_eq] at member
  rcases List.mem_append.mp member with parameter | typeParameter
  · split at parameter
    · cases parameter
    · exact ⟨_, _, _, List.mem_singleton.mp parameter⟩
  · split at typeParameter
    · cases typeParameter
    · exact ⟨_, _, _, List.mem_singleton.mp typeParameter⟩

theorem parameterLoop_eq (source copy : Handle) :
    source.parameterLoop copy = "foreach (var p in " ++ source.text ++ ".Parameters)\n\x7b\n    " ++
      copy.text ++
      ".Parameters.Add(new ParameterDefinition(p.Name, p.Attributes, p.ParameterType));\n\x7d" := by
  have read : ".Parameters)\n\x7b\n    " = "." ++ ("Parameters" ++ ")\n\x7b\n    ") := rfl
  have filled : ".Parameters.Add(new ParameterDefinition(p.Name, p.Attributes, p.ParameterType));\n\x7d" =
      "." ++ ("Parameters" ++ (".Add(" ++
        ("new ParameterDefinition(p.Name, p.Attributes, p.ParameterType)" ++ ");\n\x7d"))) := rfl
  have declared : "foreach (var p in " = "foreach (var " ++ ("p" ++ " in ") := rfl
  unfold parameterLoop copyLoop member
  rw [read, filled, declared]
  simp only [String.append_assoc]

theorem typeParameterLoop_eq (source copy : Handle) :
    source.typeParameterLoop copy =
      "foreach (var gp in " ++ source.text ++ ".GenericParameters)\n\x7b\n    " ++ copy.text ++
        ".GenericParameters.Add(new GenericParameter(gp.Name, " ++ copy.text ++ "));\n\x7d" := by
  have read : ".GenericParameters)\n\x7b\n    " = "." ++ ("GenericParameters" ++ ")\n\x7b\n    ") := rfl
  have filled : ".GenericParameters.Add(new GenericParameter(gp.Name, " =
      "." ++ ("GenericParameters" ++ (".Add(" ++ "new GenericParameter(gp.Name, ")) := rfl
  have declared : "foreach (var gp in " = "foreach (var " ++ ("gp" ++ " in ") := rfl
  have ended : "));\n\x7d" = ")" ++ ");\n\x7d" := rfl
  unfold typeParameterLoop copyLoop member
  rw [read, filled, declared, ended]
  simp only [String.append_assoc]

theorem declares_declaration (source copy : Handle) (overrides : Overrides) :
    copy.Declares (source.declaration copy overrides) := by
  refine ⟨(source.construction overrides).toList ++ ";".toList, ?_⟩
  simp only [declaration, String.toList_append, List.append_assoc]

theorem eq_of_declares (handleSolid : ' ' ∉ handle.text.toList) (copySolid : ' ' ∉ copy.text.toList)
    (declares : handle.Declares (source.declaration copy overrides)) : handle = copy := by
  obtain ⟨rest, same⟩ := declares
  have equals : " = ".toList = [' ', '=', ' '] := rfl
  simp only [declaration, String.toList_append, List.append_assoc, equals, List.cons_append] at same
  -- Neither name holds a blank, so each of them ends at the first blank behind it.
  have texts := (Text.cut_at_first handleSolid copySolid (List.append_cancel_left same)).1
  exact congrArg Handle.mk (String.toList_inj.mp texts)

theorem not_declares_copyLoop : ¬ handle.Declares (source.copyLoop copy item list added) := by
  rintro ⟨rest, same⟩
  unfold copyLoop at same
  simp only [String.toList_append, List.append_assoc] at same
  have first : some 'v' = some 'f' := congrArg List.head? same
  cases first

/-- Among the statements of a copy, the first one and no other declares the copy's variable, and none
declares another variable. -/
theorem filter_cloneStatements (handleSolid : ' ' ∉ handle.text.toList) (copySolid : ' ' ∉ copy.text.toList) :
    (source.cloneStatements copy overrides method).filter (handle.Declares ·) =
      if handle = copy then [source.declaration copy overrides] else [] := by
  have loops : (source.copyLoops copy method).filter (handle.Declares ·) = [] := by
    apply List.filter_eq_nil_iff.mpr
    intro statement member
    obtain ⟨item, list, added, rfl⟩ := mem_copyLoops member
    simpa using not_declares_copyLoop
  rw [cloneStatements, List.filter_cons, loops]
  by_cases same : handle = copy
  · subst same
    simp [declares_declaration]
  · have other : ¬ handle.Declares (source.declaration copy overrides) :=
      fun declares => same (eq_of_declares handleSolid copySolid declares)
    simp [same, other]

theorem break_not_mem_member (flat : '\n' ∉ source.text.toList) (named : '\n' ∉ list.toList) :
    '\n' ∉ (source.member list).toList := by
  simp only [member, String.toList_append, List.mem_append, not_or]
  exact ⟨⟨flat, by decide⟩, named⟩

theorem break_not_mem_construction (flat : '\n' ∉ source.text.toList) (overridden : overrides.Flat) :
    '\n' ∉ (source.construction overrides).toList := by
  have initializers : ∀ text ∈ ClonedProperty.all.map (source.initializer overrides), '\n' ∉ text.toList := by
    intro text member
    obtain ⟨property, -, rfl⟩ := List.mem_map.mp member
    have named : '\n' ∉ property.name.toList := by cases property <;> decide
    simp only [initializer, String.toList_append, List.mem_append, not_or]
    refine ⟨⟨named, by decide⟩, ?_⟩
    cases held : overrides.get? property with
    | none => exact break_not_mem_member flat named
    | some text => exact overridden property text held
  have name : '\n' ∉ (source.member "Name").toList := break_not_mem_member flat (by decide)
  have result : '\n' ∉ (source.member "ReturnType").toList := break_not_mem_member flat (by decide)
  have joined : '\n' ∉ (Text.join ", " (ClonedProperty.all.map (source.initializer overrides))).toList := by
    intro member
    rcases Text.mem_join member with between | ⟨text, held, inside⟩
    · exact absurd between (by decide)
    · exact initializers text held inside
  unfold construction
  simp only [String.toList_append, List.mem_append, not_or]
  exact ⟨⟨⟨⟨⟨⟨by decide, name⟩, by decide⟩, result⟩, by decide⟩, joined⟩, by decide⟩

theorem lineCount_declaration (copyFlat : '\n' ∉ copy.text.toList) (flat : '\n' ∉ source.text.toList)
    (overridden : overrides.Flat) :
    Writer.lineCount (Writer.trimmed (source.declaration copy overrides)) = 1 := by
  have ends : (source.declaration copy overrides).toList =
      ("var " ++ copy.text ++ " = " ++ source.construction overrides).toList ++ [';'] := by
    rw [declaration, String.toList_append]
    rfl
  rw [Writer.trimmed_of_visible ends (by decide), Writer.lineCount, List.count_eq_zero_of_not_mem]
  simp only [declaration, String.toList_append, List.mem_append, not_or]
  exact ⟨⟨⟨⟨by decide, copyFlat⟩, by decide⟩, break_not_mem_construction flat overridden⟩, by decide⟩

theorem lineCount_copyLoop (copyFlat : '\n' ∉ copy.text.toList) (flat : '\n' ∉ source.text.toList)
    (itemFlat : '\n' ∉ item.toList) (listFlat : '\n' ∉ list.toList) (addedFlat : '\n' ∉ added.toList) :
    Writer.lineCount (Writer.trimmed (source.copyLoop copy item list added)) = 4 := by
  have ends : (source.copyLoop copy item list added).toList =
      ("foreach (var " ++ item ++ " in " ++ source.member list ++ ")\n\x7b\n    " ++ copy.member list ++
        ".Add(" ++ added).toList ++ [')', ';', '\n'] ++ ['\x7d'] := by
    unfold copyLoop
    rw [String.toList_append, List.append_assoc]
    rfl
  have read := break_not_mem_member flat listFlat
  have written := break_not_mem_member copyFlat listFlat
  rw [Writer.trimmed_of_visible ends (by decide), Writer.lineCount]
  unfold copyLoop
  -- Three line breaks are the loop's own, and none comes in with the texts that are filled in.
  simp only [String.toList_append, List.count_append, List.count_eq_zero_of_not_mem itemFlat,
    List.count_eq_zero_of_not_mem read, List.count_eq_zero_of_not_mem written,
    List.count_eq_zero_of_not_mem addedFlat]
  decide

/-- A copy fills one line for its declaration and four for each of its loops. -/
theorem height_cloneStatements (copyFlat : '\n' ∉ copy.text.toList) (flat : '\n' ∉ source.text.toList)
    (overridden : overrides.Flat) :
    Writer.height (source.cloneStatements copy overrides method) =
      1 + (if method.parameters = [] then 0 else 4) + (if method.typeParameters = [] then 0 else 4) := by
  have parameters : Writer.lineCount (Writer.trimmed (source.parameterLoop copy)) = 4 :=
    lineCount_copyLoop copyFlat flat (by decide) (by decide) (by decide +kernel)
  have typeParameters : Writer.lineCount (Writer.trimmed (source.typeParameterLoop copy)) = 4 := by
    refine lineCount_copyLoop copyFlat flat (by decide) (by decide) ?_
    simp only [String.toList_append, List.mem_append, not_or]
    exact ⟨⟨by decide, copyFlat⟩, by decide⟩
  rw [cloneStatements, Writer.height, lineCount_declaration copyFlat flat overridden, copyLoops_eq,
    Writer.height_append, ← Nat.add_assoc]
  congr 2
  · split
    · rfl
    · rw [Writer.height, parameters, Writer.height]
  · split
    · rfl
    · rw [Writer.height, typeParameters, Writer.height]

section Clone

variable {reference : ClonedReference} {supply later : NameSupply}

theorem clone_of_bare (bare : method.parameters = [] ∧ method.typeParameters = []) :
    source.clone overrides method supply = .ok ⟨[], ⟨source.construction overrides⟩⟩ supply := by
  have condition : (method.parameters.isEmpty && !method.isGeneric) = true := by
    simp [MethodSymbol.isGeneric, bare]
  rw [clone, if_pos condition]
  rfl

theorem clone_of_needed (needed : ¬ (method.parameters = [] ∧ method.typeParameters = [])) :
    source.clone overrides method supply = .ok reference later ↔
      ∃ name, NameSupply.synthesize method.identifier .memberReference supply = .ok name later ∧
        reference = ⟨source.cloneStatements (.ofName name) overrides method, .ofName name⟩ := by
  have condition : ¬ (method.parameters.isEmpty && !method.isGeneric) = true := by
    simpa [MethodSymbol.isGeneric] using needed
  rw [clone, if_neg condition, bind_eq_ok]
  constructor
  · rintro ⟨name, _, made, ⟨⟩⟩
    exact ⟨name, made, rfl⟩
  · rintro ⟨name, made, rfl⟩
    exact ⟨name, later, made, rfl⟩

end Clone

end Handle

end Scribe
