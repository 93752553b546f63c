import InterfaceSchema.Path.Clean
import InterfaceSchema.Schema.Node

/-!
# Schemas

A schema is what one file declares: a package clause, imports, and then messages and services. It
grows by `Schema.push`, one declaration at a time, and keeps beside the declarations the lists that
questions are asked of: the names of messages and services, the imports by their clean paths, and a
table from names to places in the list of declarations.

The caller of `Schema.push` sees to it that no name and no import is added twice.
-/

namespace InterfaceSchema

/-- The declarations of one file. -/
structure Schema where
  declarations : List Declaration
  package : String
  messageNames : List String
  serviceNames : List String
  imports : List String
  names : List (String × Nat)
  deriving DecidableEq

namespace Schema

/-- The schema without declarations. -/
def empty : Schema :=
  ⟨[], "", [], [], [], []⟩

/-- Adds a declaration at the end. -/
def push (schema : Schema) (declaration : Declaration) : Schema :=
  let extended := { schema with declarations := schema.declarations ++ [declaration] }
  let place := schema.declarations.length
  match declaration with
  | .package clause => { extended with package := clause.name }
  | .importing statement =>
    { extended with imports := schema.imports ++ [Path.clean statement.path] }
  | .message message =>
    { extended with
      messageNames := schema.messageNames ++ [message.name]
      names := (message.name, place) :: schema.names }
  | .service service =>
    { extended with
      serviceNames := schema.serviceNames ++ [service.name]
      names := (service.name, place) :: schema.names }

@[simp]
theorem declarations_push (schema : Schema) (declaration : Declaration) :
    (schema.push declaration).declarations = schema.declarations ++ [declaration] := by
  cases declaration <;> rfl

/-- The declaration of a name. -/
def declaration? (schema : Schema) (name : String) : Option Declaration :=
  (schema.names.lookup name).bind fun place => schema.declarations[place]?

/-- Whether a name is declared. -/
def isDefined (schema : Schema) (name : String) : Bool :=
  (schema.names.lookup name).isSome

/-- The message of a name. -/
def message? (schema : Schema) (name : String) : Option Message :=
  (schema.declaration? name).bind Declaration.message?

/-- The service of a name. -/
def service? (schema : Schema) (name : String) : Option Service :=
  (schema.declaration? name).bind Declaration.service?

/-- All messages in source order. -/
def messages (schema : Schema) : List Message :=
  schema.declarations.filterMap Declaration.message?

/-- All services in source order. -/
def services (schema : Schema) : List Service :=
  schema.declarations.filterMap Declaration.service?

/-- The place at which a message or service is declared. -/
def declarationLocation? (schema : Schema) (name : String) : Option Location :=
  match schema.declaration? name with
  | some (.message message) => some message.location
  | some (.service service) => some service.location
  | _ => none

/-- The place of the import with the given clean path. -/
def importLocation? (schema : Schema) (path : String) : Option Location :=
  schema.declarations.findSome? fun
    | .importing statement =>
      if Path.clean statement.path = path then some statement.location else none
    | _ => none

/-- The place of the package clause. -/
def packageLocation? (schema : Schema) : Option Location :=
  schema.declarations.findSome? fun
    | .package clause => some clause.location
    | _ => none

end Schema

end InterfaceSchema
