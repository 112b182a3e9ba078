import Scribe.Data.Read
import Scribe.Source.Declaration

/-!
Source positions and declarations as data trees. Every `read` takes back what `toData` gives, as
long as the tree is not nested beyond the room that the reader has.
-/

namespace Scribe

open Data

namespace Position

def toData (position : Position) : Data :=
  .record [("line", .natural position.line.toNat), ("column", .natural position.column.toNat)]

def read : Reader Position
  | room, data => do
    let fields ← readFields ["line", "column"] room data
    return ⟨← fields.required "line" readUInt32, ← fields.required "column" readUInt32⟩

end Position

namespace Span

def toData (span : Span) : Data :=
  .record [("start", span.start.toData), ("end", span.finish.toData)]

def read : Reader Span
  | room, data => do
    let fields ← readFields ["start", "end"] room data
    return ⟨← fields.required "start" Position.read, ← fields.required "end" Position.read⟩

end Span

namespace Parameter

def toData (parameter : Parameter) : Data :=
  .record [("name", .string parameter.name), ("type_name", .string parameter.typeName),
    ("span", parameter.span.toData)]

def read : Reader Parameter
  | room, data => do
    let fields ← readFields ["name", "type_name", "span"] room data
    return ⟨← fields.required "name" readString, ← fields.required "type_name" readString,
      ← fields.required "span" Span.read⟩

end Parameter

namespace DeclarationKind

def choices : List (String × DeclarationKind) :=
  [("Class", .classType), ("Struct", .structType), ("Interface", .interfaceType),
   ("Record", .recordClass),
   ("RecordStruct", .recordStruct)]

def toData : DeclarationKind → Data
  | .classType => .string "Class"
  | .structType => .string "Struct"
  | .interfaceType => .string "Interface"
  | .recordClass => .string "Record"
  | .recordStruct => .string "RecordStruct"

def read : Reader DeclarationKind :=
  readChoice choices

end DeclarationKind

namespace Declaration

mutual

def toData : Declaration → Data
  | ⟨name, kind, primary, base, members, span⟩ =>
    .record [("name", .string name), ("kind", kind.toData),
      ("primary_parameters", .ofOption (.ofList Parameter.toData) primary),
      ("base_type", .ofOption .string base), ("members", .list (membersToData members)),
      ("span", span.toData)]

def membersToData : List Declaration → List Data
  | [] => []
  | member :: rest => toData member :: membersToData rest

end

/-- A declaration and its list of members take two levels of the room. -/
def read : Reader Declaration
  | room + 2, data => do
    let fields ← readFields
      ["name", "kind", "primary_parameters", "base_type", "members", "span"] (room + 2) data
    let name ← fields.required "name" readString
    let kind ← fields.required "kind" DeclarationKind.read
    let primary ← fields.optional "primary_parameters" (readList Parameter.read)
    let base ← fields.optional "base_type" readString
    let (members, _) ← (← fields.get? "members").items? (room + 1)
    let members ← members.mapM (read room)
    return ⟨name, kind, primary, base, members, ← fields.required "span" Span.read⟩
  | _, _ => none

end Declaration

namespace Statement

def toData (statement : Statement) : Data :=
  .record [("text", .string statement.text), ("span", statement.span.toData)]

def read : Reader Statement
  | room, data => do
    let fields ← readFields ["text", "span"] room data
    return ⟨← fields.required "text" readString, ← fields.required "span" Span.read⟩

end Statement

namespace SourceTree

def toData (tree : SourceTree) : Data :=
  .record [("declarations", .list (Declaration.membersToData tree.declarations))]

def read : Reader SourceTree
  | room, data => do
    let fields ← readFields ["declarations"] room data
    return ⟨← fields.required "declarations" (readList Declaration.read)⟩

end SourceTree

end Scribe
