import InterfaceSchema.Proofs.Reading.Schema

/-!
# Schemas without places

Two texts may spell the same schema at different places. To compare what they spell, the locations
are left out.

* `Declaration.unplaced`, and the same for the other nodes: a node without its location and without
  those of its annotations and parts.
* `Declaration.withNotes`: a declaration with other comments and annotations before it.
* `Schema.Distinct.of_unplaced`: whether names and imports are distinct does not depend on places.
-/

namespace InterfaceSchema

/-- What stands for a location that is left out. -/
def Location.nowhere : Location :=
  ⟨Position.start, Position.start, ⟨0, 0⟩⟩

@[simp]
theorem Location.nowhere_through : Location.nowhere.through .nowhere = .nowhere :=
  rfl

def AnnotationMark.unplaced (mark : AnnotationMark) : AnnotationMark :=
  { mark with location := .nowhere }

def Notes.unplaced (notes : Notes) : Notes :=
  { notes with annotations := notes.annotations.map AnnotationMark.unplaced }

def Package.unplaced (clause : Package) : Package :=
  { clause with location := .nowhere }

def Import.unplaced (statement : Import) : Import :=
  { statement with location := .nowhere }

def Field.unplaced (field : Field) : Field :=
  { field with location := .nowhere, notes := field.notes.unplaced }

def Oneof.unplaced (group : Oneof) : Oneof :=
  { group with
    location := .nowhere
    fields := group.fields.map Field.unplaced
    notes := group.notes.unplaced }

def Member.unplaced : Member → Member
  | field single => .field single.unplaced
  | oneof group => .oneof group.unplaced

def Message.unplaced (message : Message) : Message :=
  { message with
    location := .nowhere
    notes := message.notes.unplaced
    members := message.members.map Member.unplaced }

def Method.unplaced (method : Method) : Method :=
  { method with location := .nowhere, notes := method.notes.unplaced }

def Service.unplaced (service : Service) : Service :=
  { service with
    location := .nowhere
    notes := service.notes.unplaced
    methods := service.methods.map Method.unplaced }

/-- A declaration with all locations left out. -/
def Declaration.unplaced : Declaration → Declaration
  | package clause => .package clause.unplaced
  | importing statement => .importing statement.unplaced
  | message declared => .message declared.unplaced
  | service declared => .service declared.unplaced

/-- A declaration with other notes. Package clauses and imports have none. -/
def Declaration.withNotes (notes : Notes) : Declaration → Declaration
  | package clause => .package clause
  | importing statement => .importing statement
  | message declared => .message { declared with notes := notes }
  | service declared => .service { declared with notes := notes }

@[simp]
theorem Notes.unplaced_none : Notes.none.unplaced = Notes.none :=
  rfl

@[simp]
theorem Declaration.name?_unplaced (declaration : Declaration) :
    declaration.unplaced.name? = declaration.name? := by
  cases declaration <;> rfl

@[simp]
theorem Declaration.importPath?_unplaced (declaration : Declaration) :
    declaration.unplaced.importPath? = declaration.importPath? := by
  cases declaration <;> rfl

theorem Message.fields_unplaced (message : Message) :
    message.unplaced.fields = message.fields.map Field.unplaced := by
  unfold fields
  rw [List.map_flatMap]
  simp only [Message.unplaced, List.flatMap_map]
  congr 1
  funext member
  cases member with
  | field single =>
      rfl
  | oneof group =>
      rfl

section Lists

variable {declarations others : List Declaration}

theorem declaredNames_unplaced (declarations : List Declaration) :
    declaredNames (declarations.map Declaration.unplaced) = declaredNames declarations := by
  unfold declaredNames
  rw [List.filterMap_map]
  exact congrArg (declarations.filterMap ·) (funext Declaration.name?_unplaced)

theorem importPaths_unplaced (declarations : List Declaration) :
    importPaths (declarations.map Declaration.unplaced) = importPaths declarations := by
  unfold importPaths
  rw [List.filterMap_map]
  exact congrArg (declarations.filterMap ·) (funext Declaration.importPath?_unplaced)

/-- Declarations that differ only in places have the same names. -/
theorem declaredNames_eq_of_unplaced
    (same : others.map Declaration.unplaced = declarations.map Declaration.unplaced) :
    declaredNames others = declaredNames declarations := by
  rw [← declaredNames_unplaced others, same, declaredNames_unplaced]

theorem importPaths_eq_of_unplaced
    (same : others.map Declaration.unplaced = declarations.map Declaration.unplaced) :
    importPaths others = importPaths declarations := by
  rw [← importPaths_unplaced others, same, importPaths_unplaced]

/-- Declarations that differ only in places are distinct together. -/
theorem Schema.Distinct.of_unplaced
    (distinct : Distinct declarations)
    (same : others.map Declaration.unplaced = declarations.map Declaration.unplaced) :
    Distinct others := by
  constructor
  · rw [declaredNames_eq_of_unplaced same]
    exact distinct.names
  · rw [importPaths_eq_of_unplaced same]
    exact distinct.imports

end Lists

end InterfaceSchema
