import InterfaceSchema.Disk.Basic
import InterfaceSchema.Grammar.Schema
import InterfaceSchema.Path.Directory

/-!
# Source files

A source file is a schema together with the text it was read from, the name that messages use for
it, and the path it has if it comes from a disk.
-/

namespace InterfaceSchema

/-- A text and the schema in it. -/
structure SourceFile where
  name : String
  path : Option String
  source : String
  schema : Schema
  deriving DecidableEq

namespace SourceFile

/-- The package that a file declares. -/
def package (file : SourceFile) : String :=
  file.schema.package

/-- The file of a given name with a given text. -/
def ofSource (name source : String) : Except ParseError SourceFile :=
  (Schema.parse name source).map fun schema => ⟨name, none, source, schema⟩

/-- The directory from which the imports of a file are read. -/
def directory (file : SourceFile) : String :=
  file.path.elim "" Path.directory

end SourceFile

end InterfaceSchema
