import Mathlib.Logic.Relation
import InterfaceSchema.Proofs.Disk.Denoted
import InterfaceSchema.Proofs.FileSet.Opened
import InterfaceSchema.Proofs.Path.Clean

/-!
# Source files and their places

* `Disk.schemaAt?`: the schema in the file at a place.
* `Disk.Imports`: the file at one place imports the file at another, and `Disk.Reaches`, its
  reflexive and transitive closure.
* `SourceFile.StandsAt`: a source file was read from a place.
* `FileSet.openFile_of_located`: opening a file that is named by its own path.
* `FileSet.openFile_eq_ok`, `FileSet.openFile_known`, `FileSet.openFile_new`: what opening a file
  says about the place that its path denotes.
* `FileSet.exists_openFile_of_denotes`: a file with a schema is opened, unless a limit on paths is
  exceeded.
-/

namespace InterfaceSchema

namespace Disk

/-- The schema in the file at a place, if it can be read. -/
def schemaAt? (disk : Disk) (place : Place) : Option Schema :=
  (disk.content? place).bind fun content =>
    (String.fromUTF8? content).bind fun source => (Schema.ofText source.toList).toOption

/-- The file at a place imports the file at another, where `denotes` says for which file a path in a
directory stands. -/
def ImportsBy
    (disk : Disk)
    (denotes : Place → String → Place → Prop)
    (place goal : Place) : Prop :=
  ∃ schema path,
    disk.schemaAt? place = some schema ∧
      path ∈ schema.imports ∧ denotes place.dropLast path goal

/-- The file at a place imports the file at another. -/
abbrev Imports (disk : Disk) (extension : String) : Place → Place → Prop :=
  disk.ImportsBy (disk.Denotes extension)

/-- Imports lead from one place to another. -/
abbrev Reaches (disk : Disk) (extension : String) : Place → Place → Prop :=
  Relation.ReflTransGen (disk.Imports extension)

theorem schemaAt?_eq_some_iff {disk : Disk} {place : Place} {schema : Schema} :
    disk.schemaAt? place = some schema ↔
      ∃ content source,
        disk.content? place = some content ∧
          String.fromUTF8? content = some source ∧
          Schema.ofText source.toList = .ok schema := by
  unfold schemaAt?
  rw [Option.bind_eq_some_iff]
  constructor
  · rintro ⟨content, hcontent, hsource⟩
    rcases Option.bind_eq_some_iff.1 hsource with ⟨source, hdecoded, hschema⟩
    refine ⟨content, source, hcontent, hdecoded, ?_⟩
    cases hparsed : Schema.ofText source.toList with
    | error failure =>
        rw [hparsed] at hschema
        cases hschema
    | ok parsed =>
        rw [hparsed] at hschema
        cases hschema
        rfl
  · rintro ⟨content, source, hcontent, hdecoded, hparsed⟩
    refine ⟨content, hcontent, ?_⟩
    rw [hdecoded, Option.bind_some, hparsed]
    rfl

theorem schemaAt?_of_text
    {disk : Disk}
    {place : Place}
    {text : String}
    {schema : Schema}
    (content : disk.content? place = some text.toUTF8)
    (reads : Schema.ofText text.toList = .ok schema) :
    disk.schemaAt? place = some schema :=
  schemaAt?_eq_some_iff.2 ⟨text.toUTF8, text, content, dif_pos text.isValidUTF8, reads⟩

theorem content_of_schemaAt
    {disk : Disk}
    {place : Place}
    {schema : Schema}
    (holds : disk.schemaAt? place = some schema) :
    (disk.content? place).isSome = true := by
  rcases schemaAt?_eq_some_iff.1 holds with ⟨content, source, hcontent, _, _⟩
  rw [hcontent]
  rfl

/-- The file at a place declares its package and its imports, and nothing else. -/
def HoldsBare (disk : Disk) (place : Place) (package : String) (imports : List String) : Prop :=
  ∃ schema,
    disk.schemaAt? place = some schema ∧
      schema.package = package ∧
      schema.imports = imports ∧
      ∀ declaration ∈ schema.declarations, declaration.name? = none

theorem holdsBare_of_text
    {disk : Disk}
    {place : Place}
    (text : String)
    {package : String}
    {imports : List String}
    (content : disk.content? place = some text.toUTF8)
    (reads :
      ((Schema.ofText text.toList).toOption.map fun schema =>
        (schema.package, schema.imports, schema.declarations.filterMap Declaration.name?)) =
        some (package, imports, [])) :
    disk.HoldsBare place package imports := by
  cases hparsed : Schema.ofText text.toList with
  | error failure =>
      rw [hparsed] at reads
      cases reads
  | ok schema =>
      rw [hparsed] at reads
      rcases Prod.mk.inj (Option.some.inj reads) with ⟨hpackage, hrest⟩
      rcases Prod.mk.inj hrest with ⟨himports, hnames⟩
      exact
        ⟨schema, schemaAt?_of_text content hparsed, hpackage, himports,
          List.filterMap_eq_nil_iff.1 hnames⟩

/-- No file imports the empty path. -/
theorem import_ne_empty
    {disk : Disk}
    {place : Place}
    {schema : Schema}
    {path : String}
    (holds : disk.schemaAt? place = some schema)
    (imported : path ∈ schema.imports) :
    path ≠ "" := by
  rcases schemaAt?_eq_some_iff.1 holds with ⟨content, source, _, _, hparsed⟩
  rcases Schema.exists_clean_of_mem_imports hparsed imported with ⟨written, rfl⟩
  exact Path.clean_ne_empty written

end Disk

namespace SourceFile

/-- A source file was read from a place. -/
structure StandsAt (file : SourceFile) (disk : Disk) (place : Place) : Prop where
  located : ∃ path, file.path = some path ∧ disk.locate path = .ok place
  holds : disk.schemaAt? place = some file.schema

section Places

variable {disk : Disk} {place : Place} {path : String}

/-- A file that was read from a path stands at the place of the path. -/
theorem standsAt_of_openAt
    {file : SourceFile}
    (located : disk.locate path = .ok place)
    (opened : openAt disk path = .ok file) :
    file.StandsAt disk place := by
  rcases openAt_eq_ok opened with ⟨bytes, hread, hdecoded, hparsed, _, hpath⟩
  refine ⟨⟨path, hpath, located⟩, ?_⟩
  refine Disk.schemaAt?_eq_some_iff.2
    ⟨bytes, file.source, ?_, hdecoded, mapError_eq_ok_iff.1 hparsed⟩
  unfold Disk.read at hread
  rw [located] at hread
  unfold Disk.content?
  cases hfound : disk.get? place with
  | none =>
      simp only [hfound] at hread
      cases hread
  | some entry =>
      cases entry with
      | file content =>
          simp only [hfound] at hread
          cases hread
          rfl
      | directory =>
          simp only [hfound] at hread
          cases hread
      | link target =>
          simp only [hfound] at hread
          cases hread

/-- A file with a schema can be read from each path to it. -/
theorem exists_openAt_of_schemaAt
    {schema : Schema}
    (located : disk.locate path = .ok place)
    (holds : disk.schemaAt? place = some schema) :
    ∃ file,
      openAt disk path = .ok file ∧ file.path = some path ∧ file.schema = schema := by
  rcases Disk.schemaAt?_eq_some_iff.1 holds with ⟨content, source, hcontent, hdecoded, hparsed⟩
  rcases Disk.get?_eq_of_content (Disk.content_of_schemaAt holds) with ⟨bytes, hfound⟩
  have hsame : bytes = content := by
    unfold Disk.content? at hcontent
    rw [hfound] at hcontent
    cases hcontent
    rfl
  have hread : disk.read path = .ok content := by
    unfold Disk.read
    rw [located]
    dsimp only
    rw [hfound, hsame]
  have hschema : Schema.parse path source = .ok schema := mapError_eq_ok_iff.2 hparsed
  refine ⟨⟨path, some path, source, schema⟩, ?_, rfl, rfl⟩
  unfold openAt ofSource
  rw [hread]
  dsimp only
  rw [hdecoded]
  dsimp only
  rw [hschema]
  rfl

/-- A source file declares its package and its imports, and nothing else. -/
structure IsBare (file : SourceFile) (package : String) (imports : List String) : Prop where
  package_eq : file.package = package
  imports_eq : file.schema.imports = imports
  unnamed : ∀ declaration ∈ file.schema.declarations, declaration.name? = none

theorem exists_openAt_of_holdsBare
    {package : String}
    {imports : List String}
    (located : disk.locate path = .ok place)
    (holds : disk.HoldsBare place package imports) :
    ∃ file,
      openAt disk path = .ok file ∧ file.path = some path ∧ file.IsBare package imports := by
  rcases holds with ⟨schema, hschema, hpackage, himports, hunnamed⟩
  rcases exists_openAt_of_schemaAt located hschema with ⟨file, hopened, hpath, rfl⟩
  exact ⟨file, hopened, hpath, hpackage, himports, hunnamed⟩

variable {file : SourceFile}

/-- An import denotes the same beside the path of a file as in the directory of its place. -/
theorem StandsAt.denotes_iff
    (tree : disk.IsTree)
    (noFileLinks : disk.NoFileLinks)
    (stands : file.StandsAt disk place)
    (imported : path ∈ file.schema.imports)
    (extension : String)
    (goal : Place) :
    disk.Denotes extension disk.home (Path.beside file.directory path) goal ↔
      disk.Denotes extension place.dropLast path goal := by
  rcases stands.located with ⟨own, hown, hlocated⟩
  have hdirectory : file.directory = Path.directory own := by
    unfold directory
    rw [hown]
    rfl
  have hcontent := Disk.content_of_schemaAt stands.holds
  have hnonempty := Disk.import_ne_empty stands.holds imported
  have hlonger : path ++ "." ++ extension ≠ "" := by
    simp
  have hwritten := Disk.leads_beside_iff tree noFileLinks hlocated hcontent hnonempty
  have hextended := Disk.leads_beside_iff tree noFileLinks hlocated hcontent hlonger
  have hsame :
      Path.beside file.directory path ++ "." ++ extension =
        Path.beside file.directory (path ++ "." ++ extension) := by
    rw [Path.beside_append _ hnonempty, Path.beside_append _ (by simp)]
  rw [hdirectory] at hsame ⊢
  constructor
  · intro hdenotes
    refine hdenotes.congr (fun outcome => (hwritten outcome).1) ?_
    rw [hsame]
    exact fun outcome => (hextended outcome).1
  · intro hdenotes
    refine hdenotes.congr (fun outcome => (hwritten outcome).2) ?_
    rw [hsame]
    exact fun outcome => (hextended outcome).2

end Places

end SourceFile

namespace FileSet

section Opening

variable {disk : Disk} {set after : FileSet} {path : String}

/-- A file that is named by its own path and has not been opened before is read. -/
theorem openFile_of_located
    {place : Place}
    {file : SourceFile}
    (located : disk.locate path = .ok place)
    (isFile : disk.isDirectoryAt place = false)
    (new : place ∉ set.loaded)
    (read : SourceFile.openAt disk path = .ok file) :
    set.openFile disk path =
      ({ set with loaded := place :: set.loaded }, .ok (some file)) := by
  rw [openFile_of_not_mem (resolve_of_file _ located isFile) located new, read]
  rfl

/-- A file is found at the path that its path is resolved to. It is passed over if its place was
marked, and it is read there otherwise. -/
theorem openFile_eq_ok
    {file? : Option SourceFile}
    (opened : set.openFile disk path = (after, .ok file?)) :
    ∃ found place,
      resolve disk set.extension path = .ok found ∧
        disk.locate found = .ok place ∧
        disk.Finds set.extension path found place ∧
        ((file? = none ∧ after = set ∧ place ∈ set.loaded) ∨
          ∃ file,
            file? = some file ∧
              after = { set with loaded := place :: set.loaded } ∧
              place ∉ set.loaded ∧
              SourceFile.openAt disk found = .ok file) := by
  cases hresolved : resolve disk set.extension path with
  | error error =>
      rw [openFile_of_error hresolved] at opened
      cases opened
  | ok found =>
      obtain ⟨place, hlocated, hfinds⟩ := finds_of_resolve hresolved
      refine ⟨found, place, rfl, hlocated, hfinds, ?_⟩
      by_cases hknown : place ∈ set.loaded
      · rw [openFile_of_mem hresolved hlocated hknown] at opened
        cases opened
        exact Or.inl ⟨rfl, rfl, hknown⟩
      · rw [openFile_of_not_mem hresolved hlocated hknown] at opened
        cases hread : SourceFile.openAt disk found with
        | error error =>
            rw [hread] at opened
            cases opened
        | ok file =>
            rw [hread] at opened
            cases opened
            exact Or.inr ⟨file, rfl, rfl, hknown, rfl⟩

/-- A file that is passed over has been opened before. -/
theorem openFile_known
    (passed : set.openFile disk path = (after, .ok none)) :
    after = set ∧
      ∃ place ∈ set.loaded, disk.Denotes set.extension disk.home path place := by
  obtain ⟨found, place, _, _, hfinds, ⟨_, hsame, hknown⟩ | ⟨file, hfile, _⟩⟩ :=
    openFile_eq_ok passed
  · exact ⟨hsame, place, hknown, hfinds.denotes⟩
  · cases hfile

/-- A file that is opened stands at a place that was not marked before. -/
theorem openFile_new
    {file : SourceFile}
    (opened : set.openFile disk path = (after, .ok (some file))) :
    ∃ place,
      disk.Denotes set.extension disk.home path place ∧
        place ∉ set.loaded ∧
        after = { set with loaded := place :: set.loaded } ∧
        file.StandsAt disk place := by
  obtain ⟨found, place, _, hlocated, hfinds, ⟨hnone, _⟩ | ⟨other, hsame, hafter, hnew, hread⟩⟩ :=
    openFile_eq_ok opened
  · cases hnone
  · cases hsame
    exact
      ⟨place, hfinds.denotes, hnew, hafter, SourceFile.standsAt_of_openAt hlocated hread⟩

/-- A path that denotes a file with a schema can be opened if no path that is looked up for it
exceeds a limit. -/
theorem exists_openFile_of_denotes
    {place : Place}
    {schema : Schema}
    (denotes : disk.Denotes set.extension disk.home path place)
    (holds : disk.schemaAt? place = some schema)
    (fits : ∀ tried, disk.Tries set.extension path tried → ¬ disk.Exceeds tried) :
    ∃ after file?, set.openFile disk path = (after, .ok file?) := by
  obtain ⟨found, hresolved, hlocated⟩ := exists_resolve_of_denotes denotes fits
  by_cases hknown : place ∈ set.loaded
  · exact ⟨set, none, openFile_of_mem hresolved hlocated hknown⟩
  · obtain ⟨file, hread, _, _⟩ := SourceFile.exists_openAt_of_schemaAt hlocated holds
    refine ⟨{ set with loaded := place :: set.loaded }, some file, ?_⟩
    rw [openFile_of_not_mem hresolved hlocated hknown, hread]
    rfl

end Opening

end FileSet
end InterfaceSchema
