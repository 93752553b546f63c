import InterfaceSchema.FileSet.Basic

/-!
# Loading files

A file is loaded by a path. Its imports are read from the directory that holds it, and are loaded
before it, so that whatever a file refers to is registered earlier. Every file is opened once only,
however many paths lead to it; an import that leads back to a file on the way is passed over.

* `FileSet.load` and `FileSet.loadAll` add files to a set. They also say how the set is left when
  they fail.
* `FileSet.ofPaths` loads files into a new set, all or none.

Loading ends because each file that is opened is one less that has not been.
-/

namespace InterfaceSchema

namespace Disk

/-- The number of places of a disk that are not among the given ones. -/
def unopened (disk : Disk) (loaded : List Place) : Nat :=
  disk.places.countP fun place => place ∉ loaded

theorem unopened_le
    (disk : Disk)
    {before after : List Place}
    (grown : before ⊆ after) :
    disk.unopened after ≤ disk.unopened before := by
  apply List.countP_mono_left
  intro place _ outside
  simp only [decide_eq_true_eq] at *
  exact fun inside => outside (grown inside)

theorem unopened_cons_lt
    (disk : Disk)
    {loaded : List Place}
    {place : Place}
    (known : place ∈ disk.places)
    (new : place ∉ loaded) :
    disk.unopened (place :: loaded) < disk.unopened loaded := by
  obtain ⟨before, after, same⟩ := List.append_of_mem known
  have fewer (places : List Place) :
      places.countP (fun found => found ∉ place :: loaded) ≤
        places.countP (fun found => found ∉ loaded) := by
    apply List.countP_mono_left
    simp +contextual
  have := fewer before
  have := fewer after
  simp only [unopened, same, List.countP_append, List.countP_cons, List.mem_cons, true_or,
    not_true_eq_false, decide_false, new, not_false_eq_true, decide_true] at *
  simp only [Bool.false_eq_true, ↓reduceIte]
  omega

end Disk

namespace FileSet

/-- The path of the file that a path names. A path that names nothing or a directory stands for the
same path with the extension after it. -/
def resolve (disk : Disk) (extension path : String) : Except LoadError String :=
  let extended := path ++ "." ++ extension
  match disk.locate path with
  | .ok place =>
    if disk.isDirectoryAt place = false then .ok path
    else if disk.isFile extended then .ok extended
    else .error (.isDirectory path)
  | .error .notFound =>
    if disk.isFile extended then .ok extended else .error (.notFound path)
  | .error fault => .error (.disk path fault)

/-- Opens the file that a path names, unless it has been opened before. The place of a file is
marked before the file is read, so that a file with errors is not opened again either. -/
def openFile (set : FileSet) (disk : Disk) (path : String) :
    FileSet × Except LoadError (Option SourceFile) :=
  match resolve disk set.extension path with
  | .error error => (set, .error error)
  | .ok found =>
    match disk.locate found with
    | .error fault => (set, .error (.disk found fault))
    | .ok place =>
      if place ∈ set.loaded then (set, .ok none)
      else
        ({ set with loaded := place :: set.loaded }, (SourceFile.openAt disk found).map some)

theorem loaded_subset_of_openFile
    {set after : FileSet}
    {disk : Disk}
    {path : String}
    {result : Except LoadError (Option SourceFile)}
    (opened : set.openFile disk path = (after, result)) :
    set.loaded ⊆ after.loaded := by
  have same : (set.openFile disk path).1 = after := congrArg Prod.fst opened
  rw [← same]
  unfold openFile
  split
  · simp
  · split
    · simp
    · split <;> simp

theorem unopened_lt_of_openFile
    {set after : FileSet}
    {disk : Disk}
    {path : String}
    {file : SourceFile}
    (opened : set.openFile disk path = (after, .ok (some file))) :
    disk.unopened after.loaded < disk.unopened set.loaded := by
  unfold openFile at opened
  split at opened
  · simp at opened
  · split at opened
    · simp at opened
    · split at opened
      · simp at opened
      · next place located new =>
        cases congrArg Prod.fst opened
        exact disk.unopened_cons_lt (Disk.mem_places_of_locate located) new

theorem loaded_of_register
    {set after : FileSet}
    {file : SourceFile}
    (registered : set.register file = .ok after) :
    after.loaded = set.loaded := by
  rw [(register_eq_ok_iff.1 registered).2]
  rfl

/-- How a set is left by adding files to it, and whether this succeeded. -/
structure Outcome (before : FileSet) where
  set : FileSet
  result : Except LoadError Unit
  loaded_subset : before.loaded ⊆ set.loaded

namespace Outcome

/-- The same outcome, seen from an earlier set. -/
def since
    {before middle : FileSet}
    (outcome : Outcome middle)
    (subset : before.loaded ⊆ middle.loaded) :
    Outcome before :=
  ⟨outcome.set, outcome.result, List.Subset.trans subset outcome.loaded_subset⟩

/-- Registers a file if all that went before it succeeded. -/
def register {before : FileSet} (outcome : Outcome before) (file : SourceFile) : Outcome before :=
  match outcome.result with
  | .error _ => outcome
  | .ok () =>
    match h : outcome.set.register file with
    | .error error => ⟨outcome.set, .error error, outcome.loaded_subset⟩
    | .ok after =>
      ⟨after, .ok (), by rw [FileSet.loaded_of_register h]; exact outcome.loaded_subset⟩

end Outcome

/-- Loads the imports `paths` of a file, each with all that it imports, and stops at the first that
fails. -/
def addImports
    (disk : Disk)
    (importer : SourceFile)
    (set : FileSet) :
    List String → Outcome set
  | [] => ⟨set, .ok (), List.Subset.refl _⟩
  | path :: later =>
    match h : set.openFile disk (Path.beside importer.directory path) with
    | (after, .error error) =>
      ⟨after, .error (error.atImport importer path), loaded_subset_of_openFile h⟩
    | (after, .ok none) =>
      (addImports disk importer after later).since (loaded_subset_of_openFile h)
    | (after, .ok (some file)) =>
      let inner := (addImports disk file after file.schema.imports).register file
      match inner.result with
      | .error _ => inner.since (loaded_subset_of_openFile h)
      | .ok () =>
        (addImports disk importer inner.set later).since
          (List.Subset.trans (loaded_subset_of_openFile h) inner.loaded_subset)
termination_by paths => (disk.unopened set.loaded, paths.length)
decreasing_by
  · have := disk.unopened_le (loaded_subset_of_openFile h)
    simp only [List.length_cons, Prod.lex_def]
    omega
  · have := unopened_lt_of_openFile h
    exact Prod.Lex.left _ _ this
  · have := unopened_lt_of_openFile h
    exact Prod.Lex.left _ _
      (Nat.lt_of_le_of_lt (disk.unopened_le (Outcome.loaded_subset _)) this)

/-- Adds an opened file and all that it imports. The file itself is registered last. -/
def addFile (set : FileSet) (disk : Disk) (file : SourceFile) : Outcome set :=
  (addImports disk file set file.schema.imports).register file

/-- Accepts a file that was asked for: the first gives the set its package, and each later one must
declare the same. -/
def accept (set : FileSet) (file : SourceFile) : Except LoadError FileSet :=
  match set.package with
  | none => .ok { set with package := some file.package }
  | some package =>
    if package = file.package then .ok set else .error (.mixedPackages package file)

/-- Loads the file that a path names, with all that it imports. A file that has been opened before
is passed over. After a failure the set holds what was registered until then. -/
def load (set : FileSet) (disk : Disk) (path : String) : FileSet × Except LoadError Unit :=
  match set.openFile disk path with
  | (after, .error error) => (after, .error error)
  | (after, .ok none) => (after, .ok ())
  | (after, .ok (some file)) =>
    match after.accept file with
    | .error error => (after, .error error)
    | .ok accepted =>
      let outcome := accepted.addFile disk file
      (outcome.set, outcome.result)

/-- Loads files in order, up to the first that fails. -/
def loadAll (set : FileSet) (disk : Disk) : List String → FileSet × Except LoadError Unit
  | [] => (set, .ok ())
  | path :: later =>
    match set.load disk path with
    | (after, .error error) => (after, .error error)
    | (after, .ok ()) => after.loadAll disk later

/-- The set of the given files and all that they import. -/
def ofPaths (disk : Disk) (paths : List String) : Except LoadError FileSet :=
  match empty.loadAll disk paths with
  | (_, .error error) => .error error
  | (set, .ok ()) => .ok set

end FileSet

end InterfaceSchema
