import InterfaceSchema.FieldType
import InterfaceSchema.Text.Position

/-!
# The parts of a schema

The syntax tree of a schema text. Every node knows its location, from the start of its first token
to the end of its last; the nodes that can be documented carry `Notes`.
-/

namespace InterfaceSchema

/-- An annotation such as `@name` or `@name(first, second)`. -/
structure AnnotationMark where
  location : Location
  name : String
  values : List String
  deriving DecidableEq

namespace AnnotationMark

/-- The annotation that marks a field which may be left out. -/
def optionalName : String :=
  "optional"

/-- The annotation that marks a field which may occur more than once. -/
def repeatedName : String :=
  "repeated"

/-- The annotation that marks what should no longer be used. -/
def deprecatedName : String :=
  "deprecated"

/-- The first annotation with a name; later ones of the same name are ignored. -/
def find? (annotations : List AnnotationMark) (name : String) : Option AnnotationMark :=
  List.find? (fun mark => mark.name = name) annotations

/-- Whether there is an annotation with a name. -/
def contains (annotations : List AnnotationMark) (name : String) : Bool :=
  (find? annotations name).isSome

end AnnotationMark

/-- The comments and annotations that belong to a node, each in source order. -/
structure Notes where
  comments : List String
  annotations : List AnnotationMark
  deriving DecidableEq

/-- No comments and no annotations. -/
def Notes.none : Notes :=
  ⟨[], []⟩

/-- The clause that names the package of a file. -/
structure Package where
  location : Location
  name : String
  deriving DecidableEq

/-- An import with its path as written. -/
structure Import where
  location : Location
  path : String
  deriving DecidableEq

/-- A field of a message. -/
structure Field where
  location : Location
  name : String
  type : FieldType
  index : UInt64
  notes : Notes
  deriving DecidableEq

/-- A group of fields of which at most one is set. -/
structure Oneof where
  location : Location
  index : UInt64
  fields : List Field
  notes : Notes
  deriving DecidableEq

/-- An entry in the body of a message. -/
inductive Member
  | field (field : Field)
  | oneof (oneof : Oneof)
  deriving DecidableEq

/-- A message declaration. -/
structure Message where
  location : Location
  name : String
  notes : Notes
  members : List Member
  deriving DecidableEq

namespace Message

/-- All fields of a message in source order, those of its oneof groups included. -/
def fields (message : Message) : List Field :=
  message.members.flatMap fun
    | .field field => [field]
    | .oneof oneof => oneof.fields

/-- The oneof groups of a message. -/
def oneofs (message : Message) : List Oneof :=
  message.members.filterMap fun
    | .field _ => none
    | .oneof oneof => some oneof

end Message

/-- A method of a service. -/
structure Method where
  location : Location
  name : String
  notes : Notes
  argumentType : String
  returnType : String
  returnsStream : Bool
  deriving DecidableEq

/-- A service declaration. -/
structure Service where
  location : Location
  name : String
  notes : Notes
  methods : List Method
  deriving DecidableEq

/-- An item at the top level of a schema. -/
inductive Declaration
  | package (package : Package)
  | importing (statement : Import)
  | message (message : Message)
  | service (service : Service)
  deriving DecidableEq

namespace Declaration

/-- The message that a declaration declares. -/
def message? : Declaration → Option Message
  | message declared => some declared
  | _ => none

/-- The service that a declaration declares. -/
def service? : Declaration → Option Service
  | service declared => some declared
  | _ => none

/-- The name that a message or service declaration introduces. -/
def name? : Declaration → Option String
  | message declared => some declared.name
  | service declared => some declared.name
  | _ => none

/-- The place of a declaration. -/
def location : Declaration → Location
  | package clause => clause.location
  | importing statement => statement.location
  | message declared => declared.location
  | service declared => declared.location

end Declaration

end InterfaceSchema
