import InterfaceSchema.Proofs.FileSet.Opened

/-!
# Runs of the loader

A load follows imports depth first. This module states its steps as a relation, so that what a load
does is proved by induction on the run.

* `FileSet.Runs`: the run of one task, which is either to add the imports of a file or to add a file
  that has been opened.
* `FileSet.Loading`: the run of a load.
* `FileSet.addImports_runs`, `FileSet.addFile_runs`, `FileSet.load_loading`: the loader makes such
  runs.
* `FileSet.Runs.unique`, `FileSet.Loading.load_eq`: they are the only ones.
* `FileSet.loading_of_loadAll`: the runs of several loads, one after another.
* `FileSet.Runs.preserves`: what each step keeps is kept by a run, such as the package and the
  extension (`FileSet.Runs.fields_eq`).
-/

namespace InterfaceSchema

namespace FileSet

/-- What there is to do for a file: to add some of its imports, or to add all of them and then the
file itself. -/
inductive Task
  | imports (importer : SourceFile) (paths : List String)
  | file (opened : SourceFile)

/-- The run of a task, from a set to the set it leaves and its result. -/
inductive Runs (disk : Disk) : Task → FileSet → FileSet → Except LoadError Unit → Prop
  | done (importer : SourceFile) (set : FileSet) :
      Runs disk (.imports importer []) set set (.ok ())
  | unopened
      {importer : SourceFile}
      {set after : FileSet}
      {path : String}
      {error : LoadError}
      (later : List String)
      (fails : set.openFile disk (Path.beside importer.directory path) = (after, .error error)) :
      Runs disk (.imports importer (path :: later)) set after
        (.error (error.atImport importer path))
  | known
      {importer : SourceFile}
      {set after final : FileSet}
      {path : String}
      {later : List String}
      {result : Except LoadError Unit}
      (passed : set.openFile disk (Path.beside importer.directory path) = (after, .ok none))
      (rest : Runs disk (.imports importer later) after final result) :
      Runs disk (.imports importer (path :: later)) set final result
  | failed
      {importer file : SourceFile}
      {set after final : FileSet}
      {path : String}
      {error : LoadError}
      (later : List String)
      (opened :
        set.openFile disk (Path.beside importer.directory path) = (after, .ok (some file)))
      (inner : Runs disk (.file file) after final (.error error)) :
      Runs disk (.imports importer (path :: later)) set final (.error error)
  | added
      {importer file : SourceFile}
      {set after middle final : FileSet}
      {path : String}
      {later : List String}
      {result : Except LoadError Unit}
      (opened :
        set.openFile disk (Path.beside importer.directory path) = (after, .ok (some file)))
      (inner : Runs disk (.file file) after middle (.ok ()))
      (rest : Runs disk (.imports importer later) middle final result) :
      Runs disk (.imports importer (path :: later)) set final result
  | stopped
      {file : SourceFile}
      {set final : FileSet}
      {error : LoadError}
      (inner : Runs disk (.imports file file.schema.imports) set final (.error error)) :
      Runs disk (.file file) set final (.error error)
  | refused
      {file : SourceFile}
      {set middle : FileSet}
      {error : LoadError}
      (inner : Runs disk (.imports file file.schema.imports) set middle (.ok ()))
      (refuses : middle.register file = .error error) :
      Runs disk (.file file) set middle (.error error)
  | registered
      {file : SourceFile}
      {set middle final : FileSet}
      (inner : Runs disk (.imports file file.schema.imports) set middle (.ok ()))
      (accepts : middle.register file = .ok final) :
      Runs disk (.file file) set final (.ok ())

/-- The run of a load. -/
inductive Loading (disk : Disk) (set : FileSet) (path : String) :
    FileSet → Except LoadError Unit → Prop
  | unopened
      {after : FileSet}
      {error : LoadError}
      (fails : set.openFile disk path = (after, .error error)) :
      Loading disk set path after (.error error)
  | known
      {after : FileSet}
      (passed : set.openFile disk path = (after, .ok none)) :
      Loading disk set path after (.ok ())
  | mixed
      {after : FileSet}
      {file : SourceFile}
      {error : LoadError}
      (opened : set.openFile disk path = (after, .ok (some file)))
      (refuses : after.accept file = .error error) :
      Loading disk set path after (.error error)
  | added
      {after accepted final : FileSet}
      {file : SourceFile}
      {result : Except LoadError Unit}
      (opened : set.openFile disk path = (after, .ok (some file)))
      (accepts : after.accept file = .ok accepted)
      (inner : Runs disk (.file file) accepted final result) :
      Loading disk set path final result

section Soundness

variable {disk : Disk} {set : FileSet}

/-- Registering a file ends the run of adding it. -/
theorem Runs.of_register
    {file : SourceFile}
    {outcome : Outcome set}
    (inner :
      Runs disk (.imports file file.schema.imports) set outcome.set outcome.result) :
    Runs disk (.file file) set (outcome.register file).set (outcome.register file).result := by
  unfold Outcome.register
  split
  · next error hresult =>
    rw [hresult] at inner
    rw [hresult]
    exact .stopped inner
  · next hresult =>
    rw [hresult] at inner
    split
    · next error hrefused =>
      exact .refused inner hrefused
    · next after haccepted =>
      exact .registered inner haccepted

@[simp]
theorem Outcome.set_since
    {before middle : FileSet}
    (outcome : Outcome middle)
    (subset : before.loaded ⊆ middle.loaded) :
    (outcome.since subset).set = outcome.set :=
  rfl

@[simp]
theorem Outcome.result_since
    {before middle : FileSet}
    (outcome : Outcome middle)
    (subset : before.loaded ⊆ middle.loaded) :
    (outcome.since subset).result = outcome.result :=
  rfl

/-- The loader makes runs. -/
theorem addImports_runs
    (disk : Disk)
    (importer : SourceFile)
    (set : FileSet)
    (paths : List String) :
    Runs disk (.imports importer paths) set
      (addImports disk importer set paths).set (addImports disk importer set paths).result := by
  induction importer, set, paths using addImports.induct disk with
  | case1 importer set =>
      rw [addImports.eq_def]
      exact .done importer set
  | case2 importer set path later after error hopened =>
      rw [addImports.eq_def]
      dsimp only
      split
      all_goals
        rename_i hsame
        rw [hopened] at hsame
        cases hsame
      exact .unopened later hopened
  | case3 importer set path later after hopened ih =>
      rw [addImports.eq_def]
      dsimp only
      split
      all_goals
        rename_i hsame
        rw [hopened] at hsame
        cases hsame
      exact .known hopened ih
  | case4 importer set path later after file hopened inner error hinner =>
      rename_i ih
      have hfile := ih.of_register
      rw [addImports.eq_def]
      dsimp only
      split
      all_goals
        rename_i hsame
        rw [hopened] at hsame
        cases hsame
      split
      · next failure hfailure =>
        rw [hfailure] at hfile
        rw [Outcome.set_since, Outcome.result_since, hfailure]
        exact .failed later hopened hfile
      · next hresult =>
        rw [show inner.result = .ok () from hresult] at hinner
        cases hinner
  | case5 importer set path later after file hopened inner hinner =>
      rename_i ihFile ihLater
      have hfile := ihFile.of_register
      rw [addImports.eq_def]
      dsimp only
      split
      all_goals
        rename_i hsame
        rw [hopened] at hsame
        cases hsame
      split
      · next failure hfailure =>
        rw [show inner.result = .error failure from hfailure] at hinner
        cases hinner
      · next hresult =>
        rw [hresult] at hfile
        exact .added hopened hfile ihLater

theorem addFile_runs (disk : Disk) (set : FileSet) (file : SourceFile) :
    Runs disk (.file file) set (set.addFile disk file).set (set.addFile disk file).result :=
  (addImports_runs disk file set file.schema.imports).of_register

theorem load_loading (disk : Disk) (set : FileSet) (path : String) :
    Loading disk set path (set.load disk path).1 (set.load disk path).2 := by
  unfold load
  split
  · next after error hopened =>
    exact .unopened hopened
  · next after hopened =>
    exact .known hopened
  · next after file hopened =>
    split
    · next error hrefused =>
      exact .mixed hopened hrefused
    · next accepted haccepted =>
      exact .added hopened haccepted (addFile_runs disk accepted file)

end Soundness

/-! ## Runs are unique -/

section Uniqueness

variable {disk : Disk} {set final other : FileSet} {result second : Except LoadError Unit}

/-- From one set a task has one run. -/
theorem Runs.unique
    {task : Task}
    (run : Runs disk task set final result)
    (also : Runs disk task set other second) :
    final = other ∧ result = second := by
  induction run generalizing other second with
  | done importer set =>
      cases also with
      | done _ _ =>
          exact ⟨rfl, rfl⟩
  | unopened later fails =>
      cases also with
      | unopened _ hfails =>
          cases fails.symm.trans hfails
          exact ⟨rfl, rfl⟩
      | known hpassed _ =>
          cases fails.symm.trans hpassed
      | failed _ hopened _ =>
          cases fails.symm.trans hopened
      | added hopened _ _ =>
          cases fails.symm.trans hopened
  | known passed rest ih =>
      cases also with
      | unopened _ hfails =>
          cases passed.symm.trans hfails
      | known hpassed hrest =>
          cases passed.symm.trans hpassed
          exact ih hrest
      | failed _ hopened _ =>
          cases passed.symm.trans hopened
      | added hopened _ _ =>
          cases passed.symm.trans hopened
  | failed later opened inner ih =>
      cases also with
      | unopened _ hfails =>
          cases opened.symm.trans hfails
      | known hpassed _ =>
          cases opened.symm.trans hpassed
      | failed _ hopened hinner =>
          cases opened.symm.trans hopened
          exact ih hinner
      | added hopened hinner _ =>
          cases opened.symm.trans hopened
          cases (ih hinner).2
  | added opened inner rest ihFile ihLater =>
      cases also with
      | unopened _ hfails =>
          cases opened.symm.trans hfails
      | known hpassed _ =>
          cases opened.symm.trans hpassed
      | failed _ hopened hinner =>
          cases opened.symm.trans hopened
          cases (ihFile hinner).2
      | added hopened hinner hrest =>
          cases opened.symm.trans hopened
          rcases ihFile hinner with ⟨rfl, _⟩
          exact ihLater hrest
  | stopped inner ih =>
      cases also with
      | stopped hinner =>
          exact ih hinner
      | refused hinner _ =>
          cases (ih hinner).2
      | registered hinner _ =>
          cases (ih hinner).2
  | refused inner refuses ih =>
      cases also with
      | stopped hinner =>
          cases (ih hinner).2
      | refused hinner hrefuses =>
          rcases ih hinner with ⟨rfl, _⟩
          cases refuses.symm.trans hrefuses
          exact ⟨rfl, rfl⟩
      | registered hinner haccepts =>
          rcases ih hinner with ⟨rfl, _⟩
          cases refuses.symm.trans haccepts
  | registered inner accepts ih =>
      cases also with
      | stopped hinner =>
          cases (ih hinner).2
      | refused hinner hrefuses =>
          rcases ih hinner with ⟨rfl, _⟩
          cases accepts.symm.trans hrefuses
      | registered hinner haccepts =>
          rcases ih hinner with ⟨rfl, _⟩
          cases accepts.symm.trans haccepts
          exact ⟨rfl, rfl⟩

/-- A load ends as its run does. -/
theorem Loading.load_eq
    {path : String}
    (loading : Loading disk set path final result) :
    set.load disk path = (final, result) := by
  unfold load
  cases loading with
  | unopened fails =>
      rw [fails]
  | known passed =>
      rw [passed]
  | mixed opened refuses =>
      rw [opened]
      dsimp only
      rw [refuses]
  | added opened accepts inner =>
      rcases inner.unique (addFile_runs disk _ _) with ⟨rfl, rfl⟩
      rw [opened]
      dsimp only
      rw [accepts]

end Uniqueness

/-! ## Loads of several files -/

section Several

variable {disk : Disk} {set final : FileSet}

/-- Where several loads succeed, the first does, and the others after it. -/
theorem loading_of_loadAll
    {path : String}
    {later : List String}
    (loads : set.loadAll disk (path :: later) = (final, .ok ())) :
    ∃ after,
      Loading disk set path after (.ok ()) ∧
        after.loadAll disk later = (final, .ok ()) := by
  have hloading := load_loading disk set path
  rw [loadAll] at loads
  cases hload : set.load disk path with
  | mk after result =>
      rw [hload] at loads hloading
      cases result with
      | error error =>
          cases loads
      | ok value =>
          exact ⟨after, hloading, loads⟩

theorem ofPaths_eq_ok_iff {paths : List String} :
    ofPaths disk paths = .ok set ↔ empty.loadAll disk paths = (set, .ok ()) := by
  unfold ofPaths
  cases hload : empty.loadAll disk paths with
  | mk after result =>
      cases result with
      | error error =>
          constructor
          · intro hsame
            cases hsame
          · intro hsame
            cases hsame
      | ok value =>
          constructor
          · intro hsame
            cases hsame
            rfl
          · intro hsame
            cases hsame
            rfl

end Several

/-! ## What runs keep -/

section Preservation

variable {disk : Disk} {set : FileSet}

/-- What is to be added has been read from the disk. -/
def Task.Sound (disk : Disk) : Task → Prop
  | .imports _ _ => True
  | .file opened => opened.OpenedFrom disk

/-- A run keeps what marking a place and registering a file keep. -/
theorem Runs.preserves
    (Kept : FileSet → Prop)
    (marks : ∀ set place, Kept set → Kept { set with loaded := place :: set.loaded })
    (registers :
      ∀ set final file,
        file.OpenedFrom disk → Kept set → set.register file = .ok final → Kept final)
    {task : Task}
    {final : FileSet}
    {result : Except LoadError Unit}
    (run : Runs disk task set final result)
    (sound : task.Sound disk)
    (kept : Kept set) :
    Kept final := by
  have hopens :
      ∀ {set after : FileSet} {path : String} {result : Except LoadError (Option SourceFile)},
        set.openFile disk path = (after, result) → Kept set → Kept after := by
    intro set after path result hopened hkept
    rcases openFile_cases hopened with ⟨rfl, _⟩ | ⟨found, place, _, _, _, rfl, _⟩
    · exact hkept
    · exact marks set place hkept
  induction run with
  | done importer set =>
      exact kept
  | unopened later fails =>
      exact hopens fails kept
  | known passed rest ih =>
      exact ih trivial (hopens passed kept)
  | failed later opened inner ih =>
      exact ih (openedFrom_of_openFile opened) (hopens opened kept)
  | added opened inner rest ihFile ihLater =>
      exact ihLater trivial (ihFile (openedFrom_of_openFile opened) (hopens opened kept))
  | stopped inner ih =>
      exact ih trivial kept
  | refused inner refuses ih =>
      exact ih trivial kept
  | registered inner accepts ih =>
      exact registers _ _ _ sound (ih trivial kept) accepts

/-- A run leaves the package and the extension of a set as they are. -/
theorem Runs.fields_eq
    {task : Task}
    {final : FileSet}
    {result : Except LoadError Unit}
    (run : Runs disk task set final result)
    (sound : task.Sound disk) :
    final.package = set.package ∧ final.extension = set.extension := by
  refine
    Runs.preserves
      (fun other => other.package = set.package ∧ other.extension = set.extension) ?_ ?_ run sound
      ⟨rfl, rfl⟩
  · exact fun _ _ hkept => hkept
  · intro before after file _ hkept hregistered
    rw [(register_eq_ok_iff.1 hregistered).2]
    exact hkept

/-- A file is not accepted if it declares another package. -/
theorem exists_mixed_of_accept
    {file : SourceFile}
    {error : LoadError}
    (refuses : set.accept file = .error error) :
    ∃ expected, error = .mixedPackages expected file := by
  unfold accept at refuses
  split at refuses
  · cases refuses
  · next expected _ =>
    split at refuses
    · cases refuses
    · cases refuses
      exact ⟨expected, rfl⟩

/-- Accepting a file at most gives a set its package. -/
theorem fields_of_accept
    {accepted : FileSet}
    {file : SourceFile}
    (accepts : set.accept file = .ok accepted) :
    accepted.extension = set.extension ∧
      accepted.files = set.files ∧ accepted.loaded = set.loaded := by
  unfold accept at accepts
  split at accepts
  · cases accepts
    exact ⟨rfl, rfl, rfl⟩
  · split at accepts
    · cases accepts
      exact ⟨rfl, rfl, rfl⟩
    · cases accepts

/-- No load changes the extension. -/
theorem Loading.extension_eq
    {final : FileSet}
    {path : String}
    {result : Except LoadError Unit}
    (loading : Loading disk set path final result) :
    final.extension = set.extension := by
  cases loading with
  | unopened fails =>
      exact (fields_of_openFile fails).1
  | known passed =>
      exact (fields_of_openFile passed).1
  | mixed opened refuses =>
      exact (fields_of_openFile opened).1
  | added opened accepts inner =>
      rw [(inner.fields_eq (openedFrom_of_openFile opened)).2, (fields_of_accept accepts).1]
      exact (fields_of_openFile opened).1

end Preservation

end FileSet
end InterfaceSchema
