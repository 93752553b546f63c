import InterfaceSchema.Proofs.FileSet.Openings

/-!
# Imports that lead to no file

An import is read beside the file that has it. Where its path leads to no file, the call fails.

* `FileSet.Unresolved`, `FileSet.resolve_eq_error_iff`: the three ways in which a path leads to no
  file.
* `FileSet.Misses`, `FileSet.LoadMisses`, `FileSet.CallMisses`: runs that come to such an import,
  with the calls they make before.
* `FileSet.CallMisses.reads`: what a call returns that comes to such an import.
* `FileSet.CallReads.misses`: conversely, a call that finds nothing has come to such an import, or
  was asked for what is missing.
-/

namespace InterfaceSchema

/-- An import of a file by its clean path, and the reason why this path leads to no file. -/
structure Miss where
  importer : SourceFile
  path : String
  cause : LoadError

namespace Miss

/-- The path at which the file was looked for. -/
def sought (miss : Miss) : String :=
  Path.beside miss.importer.directory miss.path

/-- The error that is returned for the import. -/
def error (miss : Miss) : LoadError :=
  miss.cause.atImport miss.importer miss.path

/-- An import that leads to nothing. -/
def ofMissing (importer : SourceFile) (path : String) : Miss :=
  ⟨importer, path, .notFound (Path.beside importer.directory path)⟩

end Miss

namespace LoadError

variable {error : LoadError} (importer : SourceFile) (path : String)

@[simp]
theorem kind_atImport : (error.atImport importer path).kind = error.kind := by
  cases error with
  | notFound other =>
      rfl
  | _ =>
      rfl

/-- Only that nothing is found becomes another error at an import. -/
theorem atImport_eq_self (found : error.kind ≠ .notFound) :
    error.atImport importer path = error := by
  cases error with
  | notFound other =>
      exact absurd rfl found
  | _ =>
      rfl

end LoadError

namespace FileSet

/-! ## Paths that lead to no file -/

/-- Why a path leads to no file: nothing is there, or a directory, and the extension does not help,
or the disk cannot be asked. -/
inductive Unresolved (disk : Disk) (extension path : String) : LoadError → Prop
  | missing
      (located : disk.locate path = .error .notFound)
      (noFile : disk.isFile (path ++ "." ++ extension) = false) :
      Unresolved disk extension path (.notFound path)
  | directory
      {place : Place}
      (located : disk.locate path = .ok place)
      (isDirectory : disk.isDirectoryAt place = true)
      (noFile : disk.isFile (path ++ "." ++ extension) = false) :
      Unresolved disk extension path (.isDirectory path)
  | fault
      {fault : DiskFault}
      (located : disk.locate path = .error fault)
      (other : fault ≠ .notFound) :
      Unresolved disk extension path (.disk path fault)

section Resolving

variable {disk : Disk} {extension path : String} {error : LoadError}

theorem resolve_eq_error_iff :
    resolve disk extension path = .error error ↔ Unresolved disk extension path error := by
  constructor
  · intro hfails
    unfold resolve at hfails
    dsimp only at hfails
    split at hfails
    · next place hlocated =>
      split at hfails
      · cases hfails
      · next hdirectory =>
        split at hfails
        · cases hfails
        · next hextended =>
          cases hfails
          exact .directory hlocated (by simpa using hdirectory) (by simpa using hextended)
    · next hlocated =>
      split at hfails
      · cases hfails
      · next hextended =>
        cases hfails
        exact .missing hlocated (by simpa using hextended)
    · next fault hother hlocated =>
      cases hfails
      exact .fault hlocated hother
  · intro hunresolved
    unfold resolve
    cases hunresolved with
    | missing located noFile =>
        rw [located]
        exact if_neg (by simp [noFile])
    | directory located isDirectory noFile =>
        rw [located]
        simp only [isDirectory, noFile, Bool.true_eq_false, Bool.false_eq_true, if_false]
    | @fault fault located other =>
        rw [located]
        cases fault with
        | notFound =>
            exact absurd rfl other
        | nulInPath | notDirectory | isDirectory | nameTooLong | tooManyLinks =>
            rfl

/-- The error names the path. -/
theorem Unresolved.file_eq (unresolved : Unresolved disk extension path error) :
    error.file = path := by
  cases unresolved with
  | missing located noFile =>
      rfl
  | directory located isDirectory noFile =>
      rfl
  | fault located other =>
      rfl

/-- No file is there where nothing is, and none with the extension. -/
theorem Unresolved.noFile
    {other : String}
    (unresolved : Unresolved disk extension path (.notFound other)) :
    disk.isFile path = false ∧ disk.isFile (path ++ "." ++ extension) = false := by
  cases unresolved with
  | missing located noFile =>
      refine ⟨?_, noFile⟩
      unfold Disk.isFile
      rw [located]

end Resolving

/-! ## Runs that come to such an import -/

/-- The run of a task that comes to an import whose path leads to no file. -/
inductive Misses (disk : Disk) (miss : Miss) : Task → FileSet → FileSet → List Opening → Prop
  | here
      {set : FileSet}
      (later : List String)
      (unresolved : Unresolved disk set.extension miss.sought miss.cause) :
      Misses disk miss (.imports miss.importer (miss.path :: later)) set set []
  | known
      {importer : SourceFile}
      {set after final : FileSet}
      {path : String}
      {later : List String}
      {calls : List Opening}
      (passed : set.openFile disk (Path.beside importer.directory path) = (after, .ok none))
      (rest : Misses disk miss (.imports importer later) after final calls) :
      Misses disk miss (.imports importer (path :: later)) set final
        (set.openings disk (Path.beside importer.directory path) ++ calls)
  | inside
      {importer file : SourceFile}
      {set after final : FileSet}
      {path : String}
      {calls : List Opening}
      (later : List String)
      (opened :
        set.openFile disk (Path.beside importer.directory path) = (after, .ok (some file)))
      (inner : Misses disk miss (.file file) after final calls) :
      Misses disk miss (.imports importer (path :: later)) set final
        (set.openings disk (Path.beside importer.directory path) ++ calls)
  | behind
      {importer file : SourceFile}
      {set after middle final : FileSet}
      {path : String}
      {later : List String}
      {calls others : List Opening}
      (opened :
        set.openFile disk (Path.beside importer.directory path) = (after, .ok (some file)))
      (inner : Reads disk (.file file) after middle (.ok ()) calls)
      (rest : Misses disk miss (.imports importer later) middle final others) :
      Misses disk miss (.imports importer (path :: later)) set final
        (set.openings disk (Path.beside importer.directory path) ++ calls ++ others)
  | file
      {file : SourceFile}
      {set final : FileSet}
      {calls : List Opening}
      (inner : Misses disk miss (.imports file file.schema.imports) set final calls) :
      Misses disk miss (.file file) set final calls

/-- The run of a load that comes to an import whose path leads to no file. -/
inductive LoadMisses (disk : Disk) (miss : Miss) (set : FileSet) (path : String) :
    FileSet → List Opening → Prop
  | added
      {after accepted final : FileSet}
      {file : SourceFile}
      {calls : List Opening}
      (opened : set.openFile disk path = (after, .ok (some file)))
      (accepts : after.accept file = .ok accepted)
      (inner : Misses disk miss (.file file) accepted final calls) :
      LoadMisses disk miss set path final (set.openings disk path ++ calls)

/-- The run of a call that comes to an import whose path leads to no file. -/
inductive CallMisses (disk : Disk) (miss : Miss) :
    Call → FileSet → FileSet → List Opening → Prop
  | load
      {set final : FileSet}
      {path : String}
      {calls : List Opening}
      (misses : LoadMisses disk miss set path final calls) :
      CallMisses disk miss (.load path) set final calls
  | stopped
      {set final : FileSet}
      {path : String}
      {calls : List Opening}
      (later : List String)
      (misses : LoadMisses disk miss set path final calls) :
      CallMisses disk miss (.loadAll (path :: later)) set final calls
  | more
      {set after final : FileSet}
      {path : String}
      {later : List String}
      {calls others : List Opening}
      (reads : LoadReads disk set path after (.ok ()) calls)
      (rest : CallMisses disk miss (.loadAll later) after final others) :
      CallMisses disk miss (.loadAll (path :: later)) set final (calls ++ others)

/-! ## What is returned -/

section Returning

variable {disk : Disk} {miss : Miss} {set final : FileSet} {calls : List Opening}

theorem openings_of_unresolved
    {path : String}
    {error : LoadError}
    (unresolved : Unresolved disk set.extension path error) :
    set.openings disk path = [] := by
  unfold openings opening? sought?
  rw [resolve_eq_error_iff.2 unresolved]
  rfl

theorem Misses.reads
    {task : Task}
    (misses : Misses disk miss task set final calls) :
    Reads disk task set final (.error miss.error) calls := by
  induction misses with
  | here later unresolved =>
      rw [← openings_of_unresolved unresolved]
      exact .unopened later (openFile_of_error (resolve_eq_error_iff.2 unresolved))
  | known passed rest ih =>
      exact .known passed ih
  | inside later opened inner ih =>
      exact .failed later opened ih
  | behind opened inner rest ih =>
      exact .added opened inner ih
  | file inner ih =>
      exact .stopped ih

theorem LoadMisses.reads
    {path : String}
    (misses : LoadMisses disk miss set path final calls) :
    LoadReads disk set path final (.error miss.error) calls := by
  cases misses with
  | added opened accepts inner =>
      exact .added opened accepts inner.reads

/-- A call that comes to an import whose path leads to no file returns the error of this import. -/
theorem CallMisses.reads
    {call : Call}
    (misses : CallMisses disk miss call set final calls) :
    CallReads disk call set final (.error miss.error) calls := by
  induction misses with
  | load misses =>
      exact .load misses.reads
  | stopped later misses =>
      exact .stopped later misses.reads
  | more reads rest ih =>
      exact .more reads ih

end Returning

/-! ## The extension in use -/

section Extension

variable {disk : Disk} {miss : Miss} {set final : FileSet} {calls : List Opening}

/-- The extension that is tried is that of the set at the start, since no run changes it. -/
theorem Misses.unresolved
    {task : Task}
    (misses : Misses disk miss task set final calls) :
    Unresolved disk set.extension miss.sought miss.cause := by
  induction misses with
  | here later unresolved =>
      exact unresolved
  | known passed rest ih =>
      rw [← (fields_of_openFile passed).1]
      exact ih
  | inside later opened inner ih =>
      rw [← (fields_of_openFile opened).1]
      exact ih
  | behind opened inner rest ih =>
      rw [← (fields_of_openFile opened).1,
        ← (inner.runs.fields_eq (openedFrom_of_openFile opened)).2]
      exact ih
  | file inner ih =>
      exact ih

theorem LoadReads.extension_eq
    {path : String}
    {result : Except LoadError Unit}
    (reads : LoadReads disk set path final result calls) :
    final.extension = set.extension := by
  have hloading := load_loading disk set path
  rw [reads.load_eq] at hloading
  exact hloading.extension_eq

theorem LoadMisses.unresolved
    {path : String}
    (misses : LoadMisses disk miss set path final calls) :
    Unresolved disk set.extension miss.sought miss.cause := by
  cases misses with
  | added opened accepts inner =>
      rw [← (fields_of_openFile opened).1, ← (fields_of_accept accepts).1]
      exact inner.unresolved

theorem CallMisses.unresolved
    {call : Call}
    (misses : CallMisses disk miss call set final calls) :
    Unresolved disk set.extension miss.sought miss.cause := by
  induction misses with
  | load misses =>
      exact misses.unresolved
  | stopped later misses =>
      exact misses.unresolved
  | more reads rest ih =>
      rw [← reads.extension_eq]
      exact ih

end Extension

/-! ## What was missed -/

/-- The paths that a call is asked for. -/
def Call.paths : Call → List String
  | .load path => [path]
  | .loadAll paths => paths

section Finding

variable {disk : Disk} {set final : FileSet} {error : LoadError} {calls : List Opening}

/-- A file that is there is found. -/
theorem kind_of_openAt
    {path : String}
    {place : Place}
    (located : disk.locate path = .ok place)
    (fails : SourceFile.openAt disk path = .error error) :
    error.kind ≠ .notFound := by
  unfold SourceFile.openAt at fails
  split at fails
  · next hread =>
    unfold Disk.read at hread
    rw [located] at hread
    dsimp only at hread
    split at hread <;> cases hread
  · cases fails
    simp [LoadError.kind]
  · split at fails
    · cases fails
      simp [LoadError.kind]
    · split at fails
      · cases fails
        simp [LoadError.kind]
      · cases fails

theorem kind_of_register
    {file : SourceFile}
    (refuses : set.register file = .error error) :
    error.kind = .duplicateDefinition := by
  rcases exists_repeated_of_register refuses with ⟨_, _, _, rfl⟩ | ⟨_, _, _, rfl⟩
  · rfl
  · rfl

theorem kind_of_accept
    {file : SourceFile}
    (refuses : set.accept file = .error error) :
    error.kind = .mixedPackages := by
  rcases exists_mixed_of_accept refuses with ⟨_, rfl⟩
  rfl

/-- Where opening a file finds nothing, its path leads to nothing. -/
theorem unresolved_of_openFile
    {after : FileSet}
    {path : String}
    (fails : set.openFile disk path = (after, .error error))
    (missing : error.kind = .notFound) :
    after = set ∧ error = .notFound path ∧ Unresolved disk set.extension path (.notFound path) := by
  rcases openFile_error_cases fails with hresolved | ⟨found, hresolved, hfault | hread⟩
  · rw [openFile_of_error hresolved] at fails
    cases fails
    have hunresolved := resolve_eq_error_iff.1 hresolved
    cases hunresolved with
    | missing located noFile =>
        exact ⟨rfl, rfl, .missing located noFile⟩
    | directory located isDirectory noFile =>
        cases missing
    | fault located other =>
        cases missing
  · rcases hfault with ⟨fault, _, rfl⟩
    cases missing
  · rcases hread with ⟨place, hplace, _, hread⟩
    exact absurd missing (kind_of_openAt hplace hread)

/-- A run that finds nothing has come to an import that leads to nothing. -/
theorem Reads.misses
    {task : Task}
    {result : Except LoadError Unit}
    (reads : Reads disk task set final result calls)
    (fails : result = .error error)
    (missing : error.kind = .notFound) :
    ∃ importer path,
      error = .importNotFound path importer ∧
        Misses disk (.ofMissing importer path) task set final calls := by
  induction reads with
  | done importer set =>
      cases fails
  | @unopened importer set after path cause later hfails =>
      cases fails
      -- The kind is that of the error before it was moved to the import.
      rw [LoadError.kind_atImport] at missing
      rcases unresolved_of_openFile hfails missing with ⟨rfl, rfl, hunresolved⟩
      have hhere :
          Misses disk (.ofMissing importer path) (.imports importer (path :: later)) after after
            [] :=
        .here later hunresolved
      refine ⟨importer, path, rfl, ?_⟩
      rw [openings_of_unresolved hunresolved]
      exact hhere
  | known passed rest ih =>
      rcases ih fails with ⟨importer, path, herror, hmisses⟩
      exact ⟨importer, path, herror, .known passed hmisses⟩
  | failed later opened inner ih =>
      rcases ih fails with ⟨importer, path, herror, hmisses⟩
      exact ⟨importer, path, herror, .inside later opened hmisses⟩
  | added opened inner rest ihFile ihLater =>
      rcases ihLater fails with ⟨importer, path, herror, hmisses⟩
      exact ⟨importer, path, herror, .behind opened inner hmisses⟩
  | stopped inner ih =>
      rcases ih fails with ⟨importer, path, herror, hmisses⟩
      exact ⟨importer, path, herror, .file hmisses⟩
  | refused inner refuses ih =>
      cases fails
      rw [kind_of_register refuses] at missing
      cases missing
  | registered inner accepts ih =>
      cases fails

/-- A load that finds nothing was asked for what is missing, or has come to an import that leads to
nothing. -/
theorem LoadReads.misses
    {path : String}
    (reads : LoadReads disk set path final (.error error) calls)
    (missing : error.kind = .notFound) :
    (error = .notFound path ∧ Unresolved disk set.extension path (.notFound path)) ∨
      ∃ importer imported,
        error = .importNotFound imported importer ∧
          LoadMisses disk (.ofMissing importer imported) set path final calls := by
  cases reads with
  | unopened fails =>
      exact Or.inl (unresolved_of_openFile fails missing).2
  | mixed opened refuses =>
      rw [kind_of_accept refuses] at missing
      cases missing
  | added opened accepts inner =>
      rcases inner.misses rfl missing with ⟨importer, imported, herror, hmisses⟩
      exact Or.inr ⟨importer, imported, herror, .added opened accepts hmisses⟩

theorem CallReads.misses
    {call : Call}
    {result : Except LoadError Unit}
    (reads : CallReads disk call set final result calls)
    (fails : result = .error error)
    (missing : error.kind = .notFound) :
    (∃ path ∈ call.paths,
        error = .notFound path ∧ Unresolved disk set.extension path (.notFound path)) ∨
      ∃ importer imported,
        error = .importNotFound imported importer ∧
          CallMisses disk (.ofMissing importer imported) call set final calls := by
  induction reads with
  | @load set final path result calls reads =>
      cases fails
      rcases reads.misses missing with hroot | ⟨importer, imported, herror, hmisses⟩
      · exact Or.inl ⟨path, List.mem_singleton_self path, hroot⟩
      · exact Or.inr ⟨importer, imported, herror, .load hmisses⟩
  | none set =>
      cases fails
  | @stopped set final path found calls later reads =>
      cases fails
      rcases reads.misses missing with hroot | ⟨importer, imported, herror, hmisses⟩
      · exact Or.inl ⟨path, List.mem_cons_self, hroot⟩
      · exact Or.inr ⟨importer, imported, herror, .stopped later hmisses⟩
  | @more set after final path later result calls others reads rest ih =>
      rcases ih fails with ⟨root, hroot, hlater⟩ | ⟨importer, imported, herror, hmisses⟩
      · rw [reads.extension_eq] at hlater
        exact Or.inl ⟨root, List.mem_cons_of_mem path hroot, hlater⟩
      · exact Or.inr ⟨importer, imported, herror, .more reads hmisses⟩

end Finding

end FileSet
end InterfaceSchema
