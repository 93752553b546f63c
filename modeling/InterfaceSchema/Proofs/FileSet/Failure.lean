import InterfaceSchema.Proofs.FileSet.Growth

/-!
# Failing runs

A run stops at the first error. The file with the error is not added, and neither are the files that
lead to it.

* `LoadError.culprit?`: the file that an error is about, where there is one.
* `FileSet.Unwinds`: a run that fails, with the paths of the files on the way to the error.
* `FileSet.Unwinds.getLast?_eq`: the last of these is the file that the error is about.
* `FileSet.Unwinds.leavesOut`: none of these is among the files that the run adds.
-/

namespace InterfaceSchema

/-- The name of the file that does not parse, has the import that is missing, declares another
package, or repeats a definition. -/
def LoadError.culprit? : LoadError → Option String
  | .parse error => some error.file
  | .invalidUtf8 path => some path
  | .importNotFound _ importer => some importer.name
  | .mixedPackages _ file => some file.name
  | .duplicateMessage _ _ file => some file.name
  | .duplicateService _ _ file => some file.name
  | .disk _ _ => none
  | .notFound _ => none
  | .isDirectory _ => none

namespace FileSet

/-- The path of the file that would be opened for a path. -/
def sought? (set : FileSet) (disk : Disk) (path : String) : Option String :=
  (resolve disk set.extension path).toOption

/-- A run that fails, and the paths of the files between its task and the error, from the outermost
to the one that the error was met in. -/
inductive Unwinds (disk : Disk) : Task → FileSet → FileSet → LoadError → List String → Prop
  | unopened
      {importer : SourceFile}
      {set after : FileSet}
      {path : String}
      {error : LoadError}
      (later : List String)
      (fails : set.openFile disk (Path.beside importer.directory path) = (after, .error error)) :
      Unwinds disk (.imports importer (path :: later)) set after (error.atImport importer path)
        (set.sought? disk (Path.beside importer.directory path)).toList
  | known
      {importer : SourceFile}
      {set after final : FileSet}
      {path : String}
      {later chain : List String}
      {error : LoadError}
      (passed : set.openFile disk (Path.beside importer.directory path) = (after, .ok none))
      (rest : Unwinds disk (.imports importer later) after final error chain) :
      Unwinds disk (.imports importer (path :: later)) set final error chain
  | failed
      {importer file : SourceFile}
      {set after final : FileSet}
      {path : String}
      {error : LoadError}
      {chain : List String}
      (later : List String)
      (opened :
        set.openFile disk (Path.beside importer.directory path) = (after, .ok (some file)))
      (inner : Unwinds disk (.file file) after final error chain) :
      Unwinds disk (.imports importer (path :: later)) set final error chain
  | added
      {importer file : SourceFile}
      {set after middle final : FileSet}
      {path : String}
      {later chain : List String}
      {error : LoadError}
      (opened :
        set.openFile disk (Path.beside importer.directory path) = (after, .ok (some file)))
      (inner : Runs disk (.file file) after middle (.ok ()))
      (rest : Unwinds disk (.imports importer later) middle final error chain) :
      Unwinds disk (.imports importer (path :: later)) set final error chain
  | stopped
      {file : SourceFile}
      {set final : FileSet}
      {error : LoadError}
      {chain : List String}
      (inner : Unwinds disk (.imports file file.schema.imports) set final error chain) :
      Unwinds disk (.file file) set final error (file.name :: chain)
  | refused
      {file : SourceFile}
      {set middle : FileSet}
      {error : LoadError}
      (inner : Runs disk (.imports file file.schema.imports) set middle (.ok ()))
      (refuses : middle.register file = .error error) :
      Unwinds disk (.file file) set middle error [file.name]

section Unwinding

variable {disk : Disk} {set final : FileSet} {error : LoadError} {chain : List String}

/-- Every run that fails unwinds in some way. -/
theorem Runs.exists_unwinds
    {task : Task}
    {result : Except LoadError Unit}
    (run : Runs disk task set final result)
    (fails : result = .error error) :
    ∃ chain, Unwinds disk task set final error chain := by
  induction run with
  | done importer set =>
      cases fails
  | unopened later hfails =>
      cases fails
      exact ⟨_, .unopened later hfails⟩
  | known passed rest ih =>
      rcases ih fails with ⟨chain, hrest⟩
      exact ⟨chain, .known passed hrest⟩
  | failed later opened inner ih =>
      rcases ih fails with ⟨chain, hinner⟩
      exact ⟨chain, .failed later opened hinner⟩
  | added opened inner rest ihFile ihLater =>
      rcases ihLater fails with ⟨chain, hrest⟩
      exact ⟨chain, .added opened inner hrest⟩
  | stopped inner ih =>
      rcases ih fails with ⟨chain, hinner⟩
      exact ⟨_, .stopped hinner⟩
  | refused inner refuses ih =>
      cases fails
      exact ⟨_, .refused inner refuses⟩
  | registered inner accepts ih =>
      cases fails

end Unwinding

/-! ## The file with the error -/

section Culprits

variable {disk : Disk} {set final : FileSet} {error : LoadError} {chain : List String}

/-- The ways in which opening a file fails: no file is found, or it cannot be read. -/
theorem openFile_error_cases
    {after : FileSet}
    {path : String}
    (fails : set.openFile disk path = (after, .error error)) :
    resolve disk set.extension path = .error error ∨
      ∃ found,
        resolve disk set.extension path = .ok found ∧
          ((∃ fault, disk.locate found = .error fault ∧ error = .disk found fault) ∨
            ∃ place,
              disk.locate found = .ok place ∧
                place ∉ set.loaded ∧ SourceFile.openAt disk found = .error error) := by
  cases hresolved : resolve disk set.extension path with
  | error unresolved =>
      rw [openFile_of_error hresolved] at fails
      cases fails
      exact Or.inl rfl
  | ok found =>
      refine Or.inr ⟨found, rfl, ?_⟩
      cases hlocated : disk.locate found with
      | error fault =>
          unfold openFile at fails
          rw [hresolved] at fails
          dsimp only at fails
          rw [hlocated] at fails
          cases fails
          exact Or.inl ⟨fault, rfl, rfl⟩
      | ok place =>
          by_cases hknown : place ∈ set.loaded
          · rw [openFile_of_mem hresolved hlocated hknown] at fails
            cases fails
          · rw [openFile_of_not_mem hresolved hlocated hknown] at fails
            refine Or.inr ⟨place, rfl, hknown, ?_⟩
            cases hread : SourceFile.openAt disk found with
            | error unreadable =>
                rw [hread] at fails
                cases fails
                rfl
            | ok file =>
                rw [hread] at fails
                cases fails

/-- A path under which no file is found is no error in a file. -/
theorem culprit?_of_resolve
    {path : String}
    (fails : resolve disk set.extension path = .error error) :
    error.culprit? = none := by
  unfold resolve at fails
  dsimp only at fails
  split at fails
  · split at fails
    · cases fails
    · split at fails
      · cases fails
      · cases fails
        rfl
  · split at fails
    · cases fails
    · cases fails
      rfl
  · cases fails
    rfl

/-- A file that is there and cannot be read is the one that the error is about, if there is one. -/
theorem culprit?_of_openAt
    {path : String}
    {place : Place}
    (located : disk.locate path = .ok place)
    (fails : SourceFile.openAt disk path = .error error) :
    (∀ other, error ≠ .notFound other) ∧
      (error.culprit? = none ∨ error.culprit? = some path) := by
  unfold SourceFile.openAt at fails
  split at fails
  · next hread =>
    unfold Disk.read at hread
    rw [located] at hread
    dsimp only at hread
    split at hread <;> cases hread
  · cases fails
    exact ⟨by simp, Or.inl rfl⟩
  · next bytes hread =>
    split at fails
    · cases fails
      exact ⟨by simp, Or.inr rfl⟩
    · next source hsource =>
      split at fails
      · next parseError hparse =>
        cases fails
        refine ⟨by simp, Or.inr ?_⟩
        unfold SourceFile.ofSource Schema.parse at hparse
        cases hread : Schema.ofText source.toList with
        | error failure =>
            rw [hread] at hparse
            cases hparse
            rfl
        | ok schema =>
            rw [hread] at hparse
            cases hparse
      · cases fails

/-- A file that cannot be opened is the one that was sought, if an error is about a file. -/
theorem sought?_of_openFile
    {after : FileSet}
    {path name : String}
    (fails : set.openFile disk path = (after, .error error))
    (culprit : error.culprit? = some name) :
    set.sought? disk path = some name := by
  rcases openFile_error_cases fails with hresolved | ⟨found, hresolved, hfault | hread⟩
  · rw [culprit?_of_resolve hresolved] at culprit
    cases culprit
  · rcases hfault with ⟨fault, _, rfl⟩
    cases culprit
  · rcases hread with ⟨place, hplace, _, hread⟩
    rcases (culprit?_of_openAt hplace hread).2 with hnone | hsome
    · rw [hnone] at culprit
      cases culprit
    · rw [hsome] at culprit
      cases culprit
      unfold sought?
      rw [hresolved]
      rfl

/-- Where nothing is found, no file is opened. -/
theorem sought?_of_notFound
    {after : FileSet}
    {path other : String}
    (fails : set.openFile disk path = (after, .error (.notFound other))) :
    set.sought? disk path = none := by
  rcases openFile_error_cases fails with hresolved | ⟨found, hresolved, hfault | hread⟩
  · unfold sought?
    rw [hresolved]
    rfl
  · rcases hfault with ⟨fault, _, hsame⟩
    cases hsame
  · rcases hread with ⟨place, hplace, _, hread⟩
    exact absurd rfl ((culprit?_of_openAt hplace hread).1 other)

/-- An import that is not found is an error of the file that has it. -/
theorem culprit?_atImport
    {importer : SourceFile}
    {path name : String}
    (culprit : (error.atImport importer path).culprit? = some name) :
    (∃ other, error = .notFound other) ∧ name = importer.name ∨ error.culprit? = some name := by
  cases error with
  | notFound other =>
      exact Or.inl ⟨⟨other, rfl⟩, (Option.some.inj culprit).symm⟩
  | _ =>
      exact Or.inr culprit

theorem culprit?_of_register
    {file : SourceFile}
    (refuses : set.register file = .error error) :
    error.culprit? = some file.name := by
  rcases exists_repeated_of_register refuses with ⟨_, _, _, rfl⟩ | ⟨_, _, _, rfl⟩
  · rfl
  · rfl

/-- The file that a task is part of, which is the importer when imports are left to add. -/
def Task.within : Task → List String
  | .imports importer _ => [importer.name]
  | .file _ => []

/-- The last file on the way to an error is the one that it is about. -/
theorem Unwinds.getLast?_eq
    {task : Task}
    {name : String}
    (unwinds : Unwinds disk task set final error chain)
    (culprit : error.culprit? = some name) :
    (task.within ++ chain).getLast? = some name := by
  induction unwinds with
  | @unopened importer set after path error later fails =>
      rcases culprit?_atImport culprit with ⟨⟨other, rfl⟩, rfl⟩ | hculprit
      · rw [sought?_of_notFound fails]
        rfl
      · rw [sought?_of_openFile fails hculprit]
        rfl
  | known passed rest ih =>
      exact ih culprit
  | failed later opened inner ih =>
      rw [List.getLast?_append]
      have hlast := ih culprit
      rw [Task.within, List.nil_append] at hlast
      rw [hlast]
      rfl
  | added opened inner rest ih =>
      exact ih culprit
  | stopped inner ih =>
      exact ih culprit
  | refused inner refuses =>
      rw [culprit?_of_register refuses] at culprit
      exact culprit

end Culprits

/-! ## What a failure leaves out -/

section Leaving

variable {disk : Disk} {set final : FileSet} {error : LoadError} {chain : List String}
variable {file : SourceFile} {added : List SourceFile}

/-- The files that lead from a task to an error stand at places that were not marked before, apart
from the file of the task. -/
def LeadsAnew (disk : Disk) (set : FileSet) (task : Task) (chain : List String) : Prop :=
  ∀ path ∈ chain, ∀ place,
    disk.locate path = .ok place → place ∉ set.loaded ∨ task.Fills disk (.ok ()) place

/-- The files that a run adds stand at places that it marked, and none of the paths of a chain leads
to one of them. -/
structure LeavesOut
    (disk : Disk)
    (chain : List String)
    (before after : FileSet)
    (added : List SourceFile) : Prop where
  files : after.files = before.files ++ added
  loaded : before.loaded ⊆ after.loaded
  places :
    ∀ file ∈ added,
      ∃ place,
        file.StandsAt disk place ∧
          place ∉ before.loaded ∧ ∀ path ∈ chain, disk.locate path ≠ .ok place

theorem LeavesOut.of_grown (grown : Grown disk noPlace set final added) :
    LeavesOut disk [] set final added := by
  refine ⟨grown.files, grown.loaded, ?_⟩
  intro file hmember
  rcases grown.places file hmember with ⟨place, _, hstands, hnew | hnone⟩
  · exact ⟨place, hstands, hnew, by simp⟩
  · exact hnone.elim

/-- The file of a task that fails is left out: its place was marked before. -/
theorem LeavesOut.cons
    (isOpen : (Task.file file).IsOpen disk set)
    (leavesOut : LeavesOut disk chain set final added) :
    LeavesOut disk (file.name :: chain) set final added := by
  rcases isOpen with ⟨own, hmarked, hholds⟩
  refine ⟨leavesOut.files, leavesOut.loaded, ?_⟩
  intro found hmember
  rcases leavesOut.places found hmember with ⟨place, hstands, hnew, hapart⟩
  refine ⟨place, hstands, hnew, ?_⟩
  intro path hpath hlocated
  rcases List.mem_cons.1 hpath with rfl | hlater
  · rw [hholds.located] at hlocated
    cases hlocated
    exact hnew hmarked
  · exact hapart path hlater hlocated

theorem LeadsAnew.cons
    (isOpen : (Task.file file).IsOpen disk set)
    (anew : ∀ path ∈ chain, ∀ place, disk.locate path = .ok place → place ∉ set.loaded) :
    LeadsAnew disk set (.file file) (file.name :: chain) := by
  rcases isOpen with ⟨own, hmarked, hholds⟩
  intro path hpath place hlocated
  rcases List.mem_cons.1 hpath with rfl | hlater
  · have hsame := hholds.located.symm.trans hlocated
    cases hsame
    exact Or.inr hholds
  · exact Or.inl (anew path hlater place hlocated)

theorem LeadsAnew.not_mem_loaded
    {importer : SourceFile}
    {paths : List String}
    (anew : LeadsAnew disk set (.imports importer paths) chain) :
    ∀ path ∈ chain, ∀ place, disk.locate path = .ok place → place ∉ set.loaded :=
  fun path hpath place hlocated => (anew path hpath place hlocated).resolve_right id

/-- Seen from before a file was opened, the place of the file is new as well. -/
theorem LeadsAnew.of_openFile
    {after : FileSet}
    {path : String}
    (opened : set.openFile disk path = (after, .ok (some file)))
    (anew : LeadsAnew disk after (.file file) chain) :
    ∀ found ∈ chain, ∀ place, disk.locate found = .ok place → place ∉ set.loaded := by
  rcases holds_of_openFile opened with ⟨own, _, hholds, hnew⟩
  intro found hfound place hlocated
  rcases anew found hfound place hlocated with hother | hown
  · exact fun hold => hother (loaded_subset_of_openFile opened hold)
  · have hsame : place = own := Holds.unique hown hholds
    rw [hsame]
    exact hnew

/-- The file that was sought is new as well, if it is there. -/
theorem not_mem_loaded_of_sought
    {after : FileSet}
    {path found : String}
    {place : Place}
    (fails : set.openFile disk path = (after, .error error))
    (sought : found ∈ (set.sought? disk path).toList)
    (located : disk.locate found = .ok place) :
    place ∉ set.loaded := by
  rw [Option.mem_toList] at sought
  unfold sought? at sought
  rcases openFile_error_cases fails with hresolved | ⟨other, hresolved, hcause⟩
  · rw [hresolved] at sought
    cases sought
  · rw [hresolved] at sought
    cases sought
    rcases hcause with ⟨fault, hfault, _⟩ | ⟨own, hown, hnew, _⟩
    · rw [located] at hfault
      cases hfault
    · rw [located] at hown
      cases hown
      exact hnew

/-- What is left out from a later set on is left out from an earlier one on that has its files. -/
theorem LeavesOut.since
    {before : FileSet}
    (files : set.files = before.files)
    (loaded : before.loaded ⊆ set.loaded)
    (leavesOut : LeavesOut disk chain set final added) :
    LeavesOut disk chain before final added := by
  refine ⟨?_, List.Subset.trans loaded leavesOut.loaded, ?_⟩
  · rw [leavesOut.files, files]
  · intro found hmember
    rcases leavesOut.places found hmember with ⟨place, hstands, hnew, hapart⟩
    exact ⟨place, hstands, fun hold => hnew (loaded hold), hapart⟩

/-- What leads to an error is left out of all that was added before it, too. -/
theorem LeavesOut.after
    {before : FileSet}
    {first : List SourceFile}
    (grown : Grown disk noPlace before set first)
    (anew : ∀ path ∈ chain, ∀ place, disk.locate path = .ok place → place ∉ set.loaded)
    (leavesOut : LeavesOut disk chain set final added) :
    LeavesOut disk chain before final (first ++ added) := by
  refine ⟨?_, List.Subset.trans grown.loaded leavesOut.loaded, ?_⟩
  · rw [leavesOut.files, grown.files, List.append_assoc]
  · intro found hmember
    rcases List.mem_append.1 hmember with hfirst | hlater
    · rcases grown.places found hfirst with ⟨place, hplace, hstands, hnew | hnone⟩
      · exact
          ⟨place, hstands, hnew, fun path hpath hlocated => anew path hpath place hlocated hplace⟩
      · exact hnone.elim
    · rcases leavesOut.places found hlater with ⟨place, hstands, hnew, hapart⟩
      exact ⟨place, hstands, fun hold => hnew (grown.loaded hold), hapart⟩

/-- What leads to an error is left out by the run. The induction follows the files on the way: each
was marked when it was opened, and what is added while it is on the way is marked later. -/
theorem Unwinds.leavesOut
    {task : Task}
    (unwinds : Unwinds disk task set final error chain)
    (isOpen : task.IsOpen disk set) :
    LeadsAnew disk set task chain ∧ ∃ added, LeavesOut disk chain set final added := by
  induction unwinds with
  | unopened later fails =>
      constructor
      · intro found hfound place hlocated
        exact Or.inl (not_mem_loaded_of_sought fails hfound hlocated)
      · refine ⟨[], ?_, loaded_subset_of_openFile fails, by simp⟩
        rw [(fields_of_openFile fails).2.1, List.append_nil]
  | known passed rest ih =>
      rcases openFile_known passed with ⟨rfl, _⟩
      exact ih trivial
  | failed later opened inner ih =>
      rcases holds_of_openFile opened with ⟨own, hmarked, hholds, _⟩
      rcases ih ⟨own, hmarked, hholds⟩ with ⟨hanew, added, hleaves⟩
      refine ⟨?_, added, ?_⟩
      · intro path hpath place hlocated
        exact Or.inl (hanew.of_openFile opened path hpath place hlocated)
      · exact hleaves.since (fields_of_openFile opened).2.1 (loaded_subset_of_openFile opened)
  | added opened inner rest ih =>
      rcases holds_of_openFile opened with ⟨own, hmarked, hholds, _⟩
      rcases inner.grows ⟨own, hmarked, hholds⟩ with ⟨first, hfirst⟩
      have hgrown := Grown.of_openFile opened hfirst
      rcases ih trivial with ⟨hanew, second, hsecond⟩
      constructor
      · intro path hpath place hlocated
        exact Or.inl fun hold =>
          hanew.not_mem_loaded path hpath place hlocated (hgrown.loaded hold)
      · exact ⟨first ++ second, hsecond.after hgrown hanew.not_mem_loaded⟩
  | stopped inner ih =>
      rcases ih trivial with ⟨hanew, added, hleaves⟩
      exact ⟨.cons isOpen hanew.not_mem_loaded, added, hleaves.cons isOpen⟩
  | refused inner refuses =>
      rcases inner.grows trivial with ⟨added, hgrown⟩
      exact ⟨.cons isOpen (by simp), added, (LeavesOut.of_grown hgrown).cons isOpen⟩

end Leaving

end FileSet
end InterfaceSchema
