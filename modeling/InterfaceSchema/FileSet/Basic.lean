import InterfaceSchema.LoadError

/-!
# Sets of files

A file set holds schema files that belong together, and those they import. Its package is the
package of the first file that was asked for.

* `FileSet.register` adds the declarations of a file, or refuses all of them.
* `FileSet.findMessage?` finds a message by name; `FileSet.messages` and `FileSet.services` list
  what the files of the set's own package declare.

Beside the files the set keeps tables that point into them: from qualified names to messages, from
names to services, and the lists of its own messages and services.
-/

namespace InterfaceSchema

/-- A declaration by the number of its file and its own number in that file. -/
structure DeclarationRef where
  file : Nat
  declaration : Nat
  deriving DecidableEq

/-- Files with the tables that point into them. `loaded` holds the places of all files that were
ever opened for the set. -/
structure FileSet where
  package : Option String
  extension : String
  loaded : List Place
  files : List SourceFile
  index : List (String × DeclarationRef)
  knownServices : List (String × DeclarationRef)
  ownMessages : List DeclarationRef
  ownServices : List DeclarationRef

namespace FileSet

/-- The extension of schema files. -/
def defaultExtension : String :=
  "yarp"

/-- The set without files. -/
def empty : FileSet :=
  ⟨none, defaultExtension, [], [], [], [], [], []⟩

/-- The same set, with another extension to try for paths that name no file. -/
def withExtension (set : FileSet) (extension : String) : FileSet :=
  { set with extension := extension }

section Lookup

variable (set : FileSet)

/-- The declaration that a reference points at. -/
def declaration? (ref : DeclarationRef) : Option Declaration :=
  set.files[ref.file]?.bind fun file => file.schema.declarations[ref.declaration]?

/-- The messages of the set's own package, in the order of loading. -/
def messages : List Message :=
  set.ownMessages.filterMap fun ref => (set.declaration? ref).bind Declaration.message?

/-- The services of the set's own package, in the order of loading. -/
def services : List Service :=
  set.ownServices.filterMap fun ref => (set.declaration? ref).bind Declaration.service?

/-- The full form of a name: a name without dots belongs to the set's own package. -/
def qualify (name : String) : String :=
  match set.package with
  | some package =>
    if QualifiedName.isQualified name then name else QualifiedName.join package name
  | none => name

/-- The message of a name. -/
def findMessage? (name : String) : Option Message :=
  (set.index.lookup (set.qualify name)).bind fun ref =>
    (set.declaration? ref).bind Declaration.message?

/-- Whether a file declares the set's own package. -/
def owns (file : SourceFile) : Bool :=
  set.package = some file.package

/-- Whether a name belongs to a message of the set's own package. -/
def isOwnMessage (name : String) : Bool :=
  match set.index.lookup (set.qualify name) with
  | some ref => set.files[ref.file]?.any set.owns
  | none => false

/-- The name of the file that a reference points into. -/
def fileName (ref : DeclarationRef) : String :=
  set.files[ref.file]?.elim "" SourceFile.name

end Lookup

section Registration

variable (set : FileSet) (file : SourceFile)

/-- The earlier declaration that a declaration of a new file would repeat. Messages are compared
by qualified name, services by name and only within the set's own package. -/
def clash? : Declaration → Option LoadError
  | .message message =>
    let name := QualifiedName.join file.package message.name
    (set.index.lookup name).map fun first =>
      .duplicateMessage name (set.fileName first) file
  | .service service =>
    if set.owns file then
      (set.knownServices.lookup service.name).map fun first =>
        .duplicateService service.name (set.fileName first) file
    else none
  | _ => none

/-- References to the declarations of a file that would be the next of the set, each with a name
that `select` gives. -/
def references (select : Declaration → Option String) : List (String × DeclarationRef) :=
  file.schema.declarations.zipIdx.filterMap fun (declaration, number) =>
    (select declaration).map fun name => (name, ⟨set.files.length, number⟩)

/-- References to the messages of a new file, by qualified name. -/
def messageReferences : List (String × DeclarationRef) :=
  references set file fun declaration =>
    declaration.message?.map fun message => QualifiedName.join file.package message.name

/-- References to the services of a new file, by name. -/
def serviceReferences : List (String × DeclarationRef) :=
  references set file fun declaration => declaration.service?.map Service.name

/-- The set with one more file. -/
def append : FileSet :=
  let messages := set.messageReferences file
  let services := if set.owns file then set.serviceReferences file else []
  let own := if set.owns file then messages else []
  { set with
    files := set.files ++ [file]
    index := set.index ++ messages
    knownServices := set.knownServices ++ services
    ownMessages := set.ownMessages ++ own.map Prod.snd
    ownServices := set.ownServices ++ services.map Prod.snd }

/-- Adds a file with all it declares, unless one of its declarations repeats an earlier one. -/
def register : Except LoadError FileSet :=
  match file.schema.declarations.findSome? (set.clash? file) with
  | some error => .error error
  | none => .ok (set.append file)

theorem register_eq_ok_iff
    {set after : FileSet}
    {file : SourceFile} :
    set.register file = .ok after ↔
      file.schema.declarations.findSome? (set.clash? file) = none ∧ after = set.append file := by
  unfold register
  split <;> simp [*, eq_comm]

end Registration

/-- A text that shows the package, the extension and the places of the loaded files. -/
def describe (set : FileSet) : String :=
  let package := set.package.elim "None" fun package => "Some(" ++ quote package ++ ")"
  let places := set.loaded.map fun place => quote ("/" ++ Path.ofComponents place)
  "FileSet \x7b package: " ++ package ++ ", extension: " ++ quote set.extension ++
    ", loaded: \x7b" ++ String.intercalate ", " places ++ "\x7d, .. \x7d"

end FileSet

end InterfaceSchema
