import Scribe.Proofs.FaithfulReaders
import Scribe.Symbol.Encoding

/-! Source data and symbols as text. Every value is read back from its text if the text is not nested too
deeply, and what was read from any text, however it was written, is not. -/

namespace Scribe

open Data

theorem Position.faithful : Faithful toData read where
  plain position := .record (by simp [IsPlain.natural])
  read_encode := by
    intro room position fits
    obtain ⟨inner, rfl, -⟩ := levels_record_le.mp fits
    simp [Position.read, toData, readFields_record, Fields.required, Fields.get?, List.lookup_cons,
      readUInt32_toNat]
  levels_le := by
    intro room data position found
    simp only [Position.read, Option.bind_eq_bind, Option.bind_eq_some_iff] at found
    obtain ⟨fields, opened, line, _, column, _, ended⟩ := found
    cases ended
    apply levels_record_le_of_readFields opened
    simp [levels]

theorem Span.faithful : Faithful toData read where
  plain span := .record (by simp [Position.faithful.plain])
  read_encode := by
    intro room span fits
    obtain ⟨inner, rfl, each⟩ := levels_record_le.mp fits
    simp only [List.forall_mem_cons] at each
    simp [Span.read, toData, readFields_record, Fields.required, Fields.get?, List.lookup_cons,
      Position.faithful.read_encode, each]
  levels_le := by
    intro room data span found
    simp only [Span.read, Option.bind_eq_bind, Option.bind_eq_some_iff] at found
    obtain ⟨fields, opened, start, startFound, finish, finishFound, ended⟩ := found
    cases ended
    apply levels_record_le_of_readFields opened
    simp [Position.faithful.required_levels_le startFound, Position.faithful.required_levels_le finishFound]

theorem Parameter.faithful : Faithful toData read where
  plain parameter := .record (by simp [IsPlain.string, Span.faithful.plain])
  read_encode := by
    intro room parameter fits
    obtain ⟨inner, rfl, each⟩ := levels_record_le.mp fits
    simp only [List.forall_mem_cons] at each
    simp [Parameter.read, toData, readFields_record, Fields.required, Fields.get?, List.lookup_cons,
      readString, Span.faithful.read_encode, each]
  levels_le := by
    intro room data parameter found
    simp only [Parameter.read, Option.bind_eq_bind, Option.bind_eq_some_iff] at found
    obtain ⟨fields, opened, name, _, typeName, _, span, spanFound, ended⟩ := found
    cases ended
    apply levels_record_le_of_readFields opened
    simp [levels, Span.faithful.required_levels_le spanFound]

theorem Statement.faithful : Faithful toData read where
  plain statement := .record (by simp [IsPlain.string, Span.faithful.plain])
  read_encode := by
    intro room statement fits
    obtain ⟨inner, rfl, each⟩ := levels_record_le.mp fits
    simp only [List.forall_mem_cons] at each
    simp [Statement.read, toData, readFields_record, Fields.required, Fields.get?, List.lookup_cons,
      readString, Span.faithful.read_encode, each]
  levels_le := by
    intro room data statement found
    simp only [Statement.read, Option.bind_eq_bind, Option.bind_eq_some_iff] at found
    obtain ⟨fields, opened, text, _, span, spanFound, ended⟩ := found
    cases ended
    apply levels_record_le_of_readFields opened
    simp [levels, Span.faithful.required_levels_le spanFound]

theorem DeclarationKind.levels_toData (kind : DeclarationKind) : kind.toData.levels = 0 := by
  cases kind <;> rfl

theorem DeclarationKind.faithful : Faithful toData read where
  plain kind := by
    cases kind <;> exact .string _
  read_encode := by
    intro room kind _
    cases kind <;> rfl
  levels_le := by
    intro room data kind _
    rw [levels_toData]
    exact Nat.zero_le room

theorem levels_name (name : Option String) : (ofOption .string name).levels = 0 := by
  cases name <;> rfl

namespace TypeSymbol

theorem argumentsToData_eq_map (arguments : List TypeSymbol) :
    argumentsToData arguments = arguments.map toData := by
  induction arguments with
  | nil => rw [argumentsToData, List.map_nil]
  | cons type rest ih => rw [argumentsToData, List.map_cons, ih]

mutual

theorem isPlain_toData : (type : TypeSymbol) → type.toData.IsPlain
  | ⟨name, container, arguments⟩ => by
    rw [toData]
    apply IsPlain.record
    simp [IsPlain.string, faithful_string.plain_ofOption, IsPlain.list (isPlain_arguments arguments)]

theorem isPlain_arguments : (arguments : List TypeSymbol) → ∀ item ∈ argumentsToData arguments, item.IsPlain
  | [] => by simp [argumentsToData]
  | type :: rest => by
    rw [argumentsToData]
    exact List.forall_mem_cons.mpr ⟨isPlain_toData type, isPlain_arguments rest⟩

end

/-- A type and the list of its arguments take a level each. -/
theorem levels_toData_le {type : TypeSymbol} {room : Nat} :
    type.toData.levels ≤ room ↔
      ∃ inner, room = inner + 2 ∧ ∀ argument ∈ type.arguments, argument.toData.levels ≤ inner := by
  obtain ⟨name, container, arguments⟩ := type
  rw [toData, levels_record_le]
  constructor
  · rintro ⟨_, rfl, each⟩
    simp only [List.forall_mem_cons, argumentsToData_eq_map] at each
    obtain ⟨inner, rfl, fits⟩ := levels_list_le.mp each.2.2.1
    exact ⟨inner, rfl, fun argument member => fits _ (List.mem_map_of_mem member)⟩
  · rintro ⟨inner, rfl, fits⟩
    refine ⟨inner + 1, rfl, ?_⟩
    have items : itemLevels (argumentsToData arguments) ≤ inner := by
      rw [argumentsToData_eq_map]
      exact itemLevels_le.mpr (List.forall_mem_map.mpr fits)
    simp [levels, levels_name, items]

theorem read_toData {room : Nat} {type : TypeSymbol} (fits : type.toData.levels ≤ room) :
    read room type.toData = some type := by
  induction room using Nat.strongRecOn generalizing type with
  | ind room ih =>
    obtain ⟨inner, rfl, each⟩ := levels_toData_le.mp fits
    obtain ⟨name, container, arguments⟩ := type
    have read : (argumentsToData arguments).mapM (TypeSymbol.read inner) = some arguments := by
      rw [argumentsToData_eq_map]
      exact mapM_encode fun argument member => ih inner (by omega) (each argument member)
    cases container <;>
      simp [TypeSymbol.read, toData, readFields_record, Fields.required, Fields.optional, Fields.get?,
        List.lookup_cons, readString, ofOption, items?, read]

theorem levels_le_of_read {room : Nat} {data : Data} {type : TypeSymbol}
    (found : read room data = some type) : type.toData.levels ≤ room := by
  induction room using Nat.strongRecOn generalizing data type with
  | ind room ih =>
    unfold TypeSymbol.read at found
    split at found
    next inner =>
      simp only [Option.bind_eq_bind, Option.bind_eq_some_iff] at found
      obtain ⟨fields, _, name, _, container, _, list, _, ⟨items, _⟩, _, arguments, read, ended⟩ := found
      cases ended
      refine levels_toData_le.mpr ⟨inner, rfl, ?_⟩
      intro argument member
      obtain ⟨item, itemRead⟩ := exists_of_mapM read argument member
      exact ih inner (by omega) itemRead
    next => cases found

theorem faithful : Faithful toData read where
  plain := isPlain_toData
  read_encode := read_toData
  levels_le := levels_le_of_read

end TypeSymbol

theorem ParameterSymbol.faithful : Faithful toData read where
  plain parameter := .record (by simp [IsPlain.string, TypeSymbol.faithful.plain])
  read_encode := by
    intro room parameter fits
    obtain ⟨inner, rfl, each⟩ := levels_record_le.mp fits
    simp only [List.forall_mem_cons] at each
    simp [ParameterSymbol.read, toData, readFields_record, Fields.required, Fields.get?, List.lookup_cons,
      readString, TypeSymbol.faithful.read_encode, each]
  levels_le := by
    intro room data parameter found
    simp only [ParameterSymbol.read, Option.bind_eq_bind, Option.bind_eq_some_iff] at found
    obtain ⟨fields, opened, name, _, type, typeFound, ended⟩ := found
    cases ended
    apply levels_record_le_of_readFields opened
    simp [levels, TypeSymbol.faithful.required_levels_le typeFound]

theorem MethodSymbol.faithful : Faithful toData read where
  plain method := .record (by
    simp [IsPlain.string, TypeSymbol.faithful.plain, ParameterSymbol.faithful.list.plain,
      faithful_string.list.plain])
  read_encode := by
    intro room method fits
    obtain ⟨inner, rfl, each⟩ := levels_record_le.mp fits
    simp only [List.forall_mem_cons] at each
    simp [MethodSymbol.read, toData, readFields_record, Fields.required, Fields.get?, List.lookup_cons,
      readString, TypeSymbol.faithful.read_encode, ParameterSymbol.faithful.list.read_encode,
      faithful_string.list.read_encode, each]
  levels_le := by
    intro room data method found
    simp only [MethodSymbol.read, Option.bind_eq_bind, Option.bind_eq_some_iff] at found
    obtain ⟨fields, opened, name, _, declaring, declaringFound, returns, returnsFound, parameters,
      parametersFound, typeParameters, typeParametersFound, ended⟩ := found
    cases ended
    apply levels_record_le_of_readFields opened
    simp [levels, TypeSymbol.faithful.required_levels_le declaringFound,
      TypeSymbol.faithful.required_levels_le returnsFound,
      ParameterSymbol.faithful.list.required_levels_le parametersFound,
      faithful_string.list.required_levels_le typeParametersFound]

namespace Declaration

theorem membersToData_eq_map (members : List Declaration) : membersToData members = members.map toData := by
  induction members with
  | nil => rw [membersToData, List.map_nil]
  | cons member rest ih => rw [membersToData, List.map_cons, ih]

mutual

theorem isPlain_toData : (declaration : Declaration) → declaration.toData.IsPlain
  | ⟨name, kind, primary, base, members, span⟩ => by
    rw [toData]
    apply IsPlain.record
    simp [IsPlain.string, DeclarationKind.faithful.plain, Parameter.faithful.list.plain_ofOption,
      faithful_string.plain_ofOption, IsPlain.list (isPlain_members members), Span.faithful.plain]

theorem isPlain_members : (members : List Declaration) → ∀ item ∈ membersToData members, item.IsPlain
  | [] => by simp [membersToData]
  | member :: rest => by
    rw [membersToData]
    exact List.forall_mem_cons.mpr ⟨isPlain_toData member, isPlain_members rest⟩

end

/-- A declaration and the list of its members take a level each. -/
theorem levels_toData_le {declaration : Declaration} {room : Nat} :
    declaration.toData.levels ≤ room ↔
      ∃ inner, room = inner + 2 ∧
        (ofOption (.ofList Parameter.toData) declaration.primary).levels ≤ inner + 1 ∧
        declaration.span.toData.levels ≤ inner + 1 ∧
        ∀ member ∈ declaration.members, member.toData.levels ≤ inner := by
  obtain ⟨name, kind, primary, base, members, span⟩ := declaration
  rw [toData, levels_record_le]
  constructor
  · rintro ⟨_, rfl, each⟩
    simp only [List.forall_mem_cons, membersToData_eq_map] at each
    obtain ⟨_, _, primaryFits, _, membersFit, spanFits, _⟩ := each
    obtain ⟨inner, rfl, fits⟩ := levels_list_le.mp membersFit
    exact ⟨inner, rfl, primaryFits, spanFits, fun member held => fits _ (List.mem_map_of_mem held)⟩
  · rintro ⟨inner, rfl, primaryFits, spanFits, fits⟩
    refine ⟨inner + 1, rfl, ?_⟩
    have items : itemLevels (membersToData members) ≤ inner := by
      rw [membersToData_eq_map]
      exact itemLevels_le.mpr (List.forall_mem_map.mpr fits)
    simp [levels, levels_name, DeclarationKind.levels_toData, items, primaryFits, spanFits]

theorem read_toData {room : Nat} {declaration : Declaration} (fits : declaration.toData.levels ≤ room) :
    read room declaration.toData = some declaration := by
  induction room using Nat.strongRecOn generalizing declaration with
  | ind room ih =>
    obtain ⟨inner, rfl, primaryFits, spanFits, each⟩ := levels_toData_le.mp fits
    obtain ⟨name, kind, primary, base, members, span⟩ := declaration
    have membersRead : (membersToData members).mapM (Declaration.read inner) = some members := by
      rw [membersToData_eq_map]
      exact mapM_encode fun member held => ih inner (by omega) (each member held)
    have kindRead : DeclarationKind.read (inner + 1) kind.toData = some kind :=
      DeclarationKind.faithful.read_encode (by simp [DeclarationKind.levels_toData])
    have spanRead : Span.read (inner + 1) span.toData = some span := Span.faithful.read_encode spanFits
    have primaryRead : ∀ parameters, primary = some parameters →
        readList Parameter.read (inner + 1) (.list (parameters.map Parameter.toData)) = some parameters := by
      rintro parameters rfl
      exact Parameter.faithful.list.read_encode primaryFits
    cases primary <;> cases base <;>
      simp [Declaration.read, toData, readFields_record, Fields.required, Fields.optional, Fields.get?,
        List.lookup_cons, readString, ofOption, ofList, items?, primaryRead, membersRead, kindRead, spanRead]

theorem levels_le_of_read {room : Nat} {data : Data} {declaration : Declaration}
    (found : read room data = some declaration) : declaration.toData.levels ≤ room := by
  induction room using Nat.strongRecOn generalizing data declaration with
  | ind room ih =>
    unfold Declaration.read at found
    split at found
    next inner =>
      simp only [Option.bind_eq_bind, Option.bind_eq_some_iff] at found
      obtain ⟨fields, opened, name, _, kind, _, primary, primaryFound, base, _, list, _, ⟨items, _⟩, _,
        members, membersRead, span, spanFound, ended⟩ := found
      cases ended
      have inside : inner + 1 = fields.room := Nat.succ.inj (room_of_readFields opened)
      refine levels_toData_le.mpr ⟨inner, rfl, ?_, ?_, ?_⟩
      · rw [inside]
        exact Parameter.faithful.list.optional_levels_le primaryFound
      · rw [inside]
        exact Span.faithful.required_levels_le spanFound
      · intro member held
        obtain ⟨item, itemRead⟩ := exists_of_mapM membersRead member held
        exact ih inner (by omega) itemRead
    next => cases found

theorem faithful : Faithful toData read where
  plain := isPlain_toData
  read_encode := read_toData
  levels_le := levels_le_of_read

end Declaration

theorem SourceTree.faithful : Faithful toData read where
  plain tree := .record (by simp [IsPlain.list (Declaration.isPlain_members tree.declarations)])
  read_encode := by
    intro room tree fits
    obtain ⟨inner, rfl, each⟩ := levels_record_le.mp fits
    simp only [List.forall_mem_cons, Declaration.membersToData_eq_map] at each
    have declarationsRead := Declaration.faithful.list.read_encode each.1
    rw [ofList] at declarationsRead
    simp [SourceTree.read, toData, readFields_record, Fields.required, Fields.get?,
      Declaration.membersToData_eq_map, declarationsRead]
  levels_le := by
    intro room data tree found
    simp only [SourceTree.read, Option.bind_eq_bind, Option.bind_eq_some_iff] at found
    obtain ⟨fields, opened, declarations, declarationsFound, ended⟩ := found
    cases ended
    apply levels_record_le_of_readFields opened
    rw [Declaration.membersToData_eq_map]
    simpa [ofList] using Declaration.faithful.list.required_levels_le declarationsFound

namespace Json

variable {α : Type} {encode : α → Data} {read : Reader α}

theorem decode?_compact (faithful : Faithful encode read) (room : Nat) (value : α) :
    decode? read room (compact (encode value)) = read room (encode value) := by
  have plain := faithful.plain value
  rw [decode?, parse?_of_spells plain (compact_spells plain), Option.bind_some]

/-- Values are read back from their own text if it is not nested too deeply, and a value that was read from
any text is read again from its own. -/
def Survives (encode : α → Data) (read : Reader α) : Prop :=
  ∀ room value,
    (decode? read room (compact (encode value)) = some value ↔ (encode value).levels ≤ room) ∧
    ∀ text, decode? read room text = some value → decode? read room (compact (encode value)) = some value

theorem survives_of_faithful (faithful : Faithful encode read) : Survives encode read := by
  intro room value
  rw [decode?_compact faithful]
  refine ⟨⟨faithful.levels_le, faithful.read_encode⟩, ?_⟩
  intro text found
  obtain ⟨data, _, valueRead⟩ := Option.bind_eq_some_iff.mp found
  exact faithful.read_encode (faithful.levels_le valueRead)

/-- Declarations, trees of them, type and method symbols, statements and parameters come back from their
texts, whatever strings and positions they hold, up to the nesting that the reader has room for. -/
theorem source_data_survives_text :
    Survives Declaration.toData Declaration.read ∧ Survives SourceTree.toData SourceTree.read ∧
      Survives TypeSymbol.toData TypeSymbol.read ∧ Survives MethodSymbol.toData MethodSymbol.read ∧
      Survives Statement.toData Statement.read ∧ Survives Parameter.toData Parameter.read :=
  ⟨survives_of_faithful Declaration.faithful, survives_of_faithful SourceTree.faithful,
    survives_of_faithful TypeSymbol.faithful, survives_of_faithful MethodSymbol.faithful,
    survives_of_faithful Statement.faithful, survives_of_faithful Parameter.faithful⟩

/-- A declaration with an empty parameter list, a base name that needs escapes, and a member without
parameters. -/
def shopDeclaration : Declaration :=
  ⟨"Shop", .recordClass, some [], some "Base\\\"\n", [⟨"Item", .classType, none, none, [], ⟨⟨2, 0⟩, ⟨3, 1⟩⟩⟩],
    ⟨⟨1, 0⟩, ⟨4, 4294967295⟩⟩⟩

/-- The same declaration in another order of fields, with some records as lists, a field that nobody knows,
missing optional fields and an escape where none is needed. -/
def oddShopText : String :=
  "\n\x7b \"span\":[[1,0],[4,4294967295]], \"note\":[\x7b\x7d], \"kind\":\x7b\"Record\":null\x7d,
    \"members\":[\x7b\"name\":\"\\u0049tem\", \"kind\":\"Class\", \"members\":[], \"span\":[[2,0],[3,1]]\x7d],
    \"base_type\":\"Base\\\\\\\"\\n\", \"primary_parameters\":[], \"name\":\"Shop\" \x7d"

set_option maxRecDepth 4000 in
theorem decode?_oddShopText : decode? Declaration.read 127 oddShopText = some shopDeclaration := by
  -- The characters of a literal are at hand, while decoding its bytes would take long.
  have chars : oddShopText.toList = _ := String.toList_ofList
  unfold decode? parse? tokens?
  rw [chars]
  decide +kernel

theorem odd_shop_survives :
    decode? Declaration.read 127 oddShopText = some shopDeclaration ∧
      decode? Declaration.read 127 (compact shopDeclaration.toData) = some shopDeclaration :=
  ⟨decode?_oddShopText, (source_data_survives_text.1 127 shopDeclaration).2 oddShopText decode?_oddShopText⟩

end Json

end Scribe
