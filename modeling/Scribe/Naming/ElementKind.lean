import Scribe.Data.Read

/-!
The kinds of program elements that names are made for, in their order. Each kind has a short tag
that shows in the names and counts on its own.
-/

namespace Scribe

inductive ElementKind where
  | type
  | field
  | local
  | parameter
  | method
  | constructor
  | property
  | event
  | memberReference
  | genericParameter
  | genericInstance
  | attribute
  | label
  | ilProcessor
  | delegate
  | lambda
deriving DecidableEq, Ord, Repr

namespace ElementKind

def all : List ElementKind :=
  [.type, .field, .local, .parameter, .method, .constructor, .property, .event, .memberReference,
   .genericParameter, .genericInstance, .attribute, .label, .ilProcessor, .delegate, .lambda]

def tag : ElementKind → String
  | .type => "t"
  | .field => "fld"
  | .local => "l"
  | .parameter => "p"
  | .method => "m"
  | .constructor => "ctor"
  | .property => "prop"
  | .event => "evt"
  | .memberReference => "mr"
  | .genericParameter => "gp"
  | .genericInstance => "gi"
  | .attribute => "attr"
  | .label => "lbl"
  | .ilProcessor => "il"
  | .delegate => "del"
  | .lambda => "lambda"

def name : ElementKind → String
  | .type => "Type"
  | .field => "Field"
  | .local => "Local"
  | .parameter => "Parameter"
  | .method => "Method"
  | .constructor => "Constructor"
  | .property => "Property"
  | .event => "Event"
  | .memberReference => "MemberReference"
  | .genericParameter => "GenericParameter"
  | .genericInstance => "GenericInstance"
  | .attribute => "Attribute"
  | .label => "Label"
  | .ilProcessor => "IlProcessor"
  | .delegate => "Delegate"
  | .lambda => "Lambda"

def toData (kind : ElementKind) : Data :=
  .string kind.name

def read : Data.Reader ElementKind :=
  Data.readChoice (all.map fun kind => (kind.name, kind))

/-- The place of a kind among the counters. -/
def index (kind : ElementKind) : Fin 16 :=
  ⟨kind.ctorIdx, by cases kind <;> decide⟩

end ElementKind

end Scribe
