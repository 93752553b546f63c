import InterfaceSchema.QualifiedName
import InterfaceSchema.SourceFile
import InterfaceSchema.Text.BytePosition

/-!
# Errors while loading files

* `LoadError`: why a file could not be added to a set of files.
* `LoadError.message`, `LoadError.labels`, `LoadError.help?` and `LoadError.describe` hold the
  wording; `LoadError.file` is the file to look at.
* `LoadError.kind` sorts the errors.
-/

namespace InterfaceSchema

/-- Why a file could not be loaded. Files that could be read are kept whole, so that a report can
show the place in them. -/
inductive LoadError
  | parse (error : ParseError)
  | disk (path : String) (fault : DiskFault)
  | invalidUtf8 (path : String)
  | notFound (path : String)
  | isDirectory (path : String)
  | importNotFound (path : String) (importer : SourceFile)
  | mixedPackages (expected : String) (file : SourceFile)
  | duplicateMessage (name first : String) (file : SourceFile)
  | duplicateService (name first : String) (file : SourceFile)
  deriving DecidableEq

/-- The kinds of errors that a caller may want to tell apart. -/
inductive LoadErrorKind
  | parse
  | notFound
  | disk
  | mixedPackages
  | duplicateDefinition
  | other
  deriving DecidableEq

namespace LoadError

/-- The kind of an error. -/
def kind : LoadError → LoadErrorKind
  | parse _ => .parse
  | invalidUtf8 _ => .parse
  | disk _ _ => .disk
  | notFound _ => .notFound
  | importNotFound _ _ => .notFound
  | mixedPackages _ _ => .mixedPackages
  | duplicateMessage _ _ _ => .duplicateDefinition
  | duplicateService _ _ _ => .duplicateDefinition
  | isDirectory _ => .other

/-- The file in which the error is. For an import that was not found this is the importing file. -/
def file : LoadError → String
  | parse error => error.file
  | disk path _ => path
  | invalidUtf8 path => path
  | notFound path => path
  | isDirectory path => path
  | importNotFound _ importer => importer.name
  | mixedPackages _ file => file.name
  | duplicateMessage _ _ file => file.name
  | duplicateService _ _ file => file.name

/-- The one-line wording. -/
def message : LoadError → String
  | parse error => error.message
  | disk path _ => "error opening file '" ++ path ++ "'"
  | invalidUtf8 path => "file '" ++ path ++ "' is not valid utf-8"
  | notFound path => "file '" ++ path ++ "' not found"
  | isDirectory path => "'" ++ path ++ "' is a directory"
  | importNotFound path importer =>
    "import '" ++ path ++ "' not found (imported by '" ++ importer.name ++ "')"
  | mixedPackages expected file =>
    "mixed packages in source (reading '" ++ file.name ++ "'): found both '" ++ expected ++
      "' and '" ++ file.package ++ "'"
  | duplicateMessage name _ _ => "duplicated definition of " ++ name
  | duplicateService name _ file =>
    "multiple declarations of service " ++ name ++ " (duplicate found in '" ++ file.name ++ "')"

/-- Advice, or the place of an earlier definition. -/
def help? : LoadError → Option String
  | parse error => error.help?
  | mixedPackages _ _ =>
    some "all files passed to a single file set must declare the same package"
  | duplicateMessage name first _ =>
    some ("'" ++ name ++ "' is already defined in '" ++ first ++ "'")
  | duplicateService name first _ =>
    some ("service '" ++ name ++ "' is already defined in '" ++ first ++ "'")
  | _ => none

/-- The fault of the disk behind an error. -/
def fault? : LoadError → Option DiskFault
  | disk _ fault => some fault
  | _ => none

/-- The file whose text an error points into, with the remark and the place, if it is known. -/
def site? : LoadError → Option (SourceFile × String × Option Location)
  | importNotFound path importer =>
    some (importer, "imported here", importer.schema.importLocation? path)
  | mixedPackages _ file => some (file, "package declared here", file.schema.packageLocation?)
  | duplicateMessage name _ file =>
    some (file, "defined again here",
      file.schema.declarationLocation? (QualifiedName.split name).2)
  | duplicateService name _ file =>
    some (file, "defined again here", file.schema.declarationLocation? name)
  | _ => none

/-- The remarks on the text of the file. -/
def labels (error : LoadError) : List Label :=
  match error with
  | parse error => error.labels
  | _ =>
    match error.site? with
    | some (_, text, some location) => [⟨text, location.span⟩]
    | _ => []

/-- The wording with all that is known about the place or the reason. -/
def describe (error : LoadError) : String :=
  match error with
  | parse error => error.describe
  | disk _ fault => error.message ++ ": " ++ fault.message
  | _ =>
    match error.site? with
    | none => error.message
    | some (file, _, none) => file.name ++ ":" ++ error.message
    | some (file, _, some location) =>
      let position := bytePosition file.source.toList location.span.start
      file.name ++ ":" ++ position.display ++ ": " ++ error.message

/-- An error met while the import `path` of a file was followed: that the imported file was not
found becomes an error of the importing file. -/
def atImport (importer : SourceFile) (path : String) : LoadError → LoadError
  | notFound _ => importNotFound path importer
  | error => error

end LoadError

namespace SourceFile

/-- Reads the file that a path denotes. -/
def openAt (disk : Disk) (path : String) : Except LoadError SourceFile :=
  match disk.read path with
  | .error .notFound => .error (.notFound path)
  | .error fault => .error (.disk path fault)
  | .ok bytes =>
    match String.fromUTF8? bytes with
    | none => .error (.invalidUtf8 path)
    | some source =>
      match ofSource path source with
      | .error error => .error (.parse error)
      | .ok file => .ok { file with path := some path }

end SourceFile

end InterfaceSchema
