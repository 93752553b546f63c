import InterfaceSchema.Proofs.FileSet.Consistent

/-!
# What histories keep

A set comes about by steps that change little: a place is marked, a package is adopted, a file is
registered. What each of these keeps, every load keeps, and it holds of every set that comes about.

* `FileSet.Preserved`: a property that the set without files has, and that each change keeps.
* `FileSet.Preserved.of_files`: what holds of each file that is opened.
* `FileSet.Preserved.loadAll`, `FileSet.Preserved.of_reachable`: loads and whole histories.
-/

namespace InterfaceSchema
namespace FileSet

/-- What each step of a history keeps. The package is given to a set once, before any file is
registered in it. -/
structure Preserved (Kept : FileSet → Prop) : Prop where
  empty : Kept empty
  withExtension : ∀ set extension, Kept set → Kept (set.withExtension extension)
  mark : ∀ set place, Kept set → Kept { set with loaded := place :: set.loaded }
  adopt :
    ∀ (set : FileSet) (file : SourceFile),
      set.package = none → Kept set → Kept { set with package := some file.package }
  register :
    ∀ disk set final file,
      file.OpenedFrom disk →
        set.package ≠ none → Kept set → set.register file = .ok final → Kept final

namespace Preserved

/-- What holds of each file that is opened holds of each file of a set. -/
theorem of_files
    {P : SourceFile → Prop}
    (opened : ∀ disk file, file.OpenedFrom disk → P file) :
    Preserved fun set => ∀ file ∈ set.files, P file := by
  constructor
  · intro file hmember
    cases hmember
  · exact fun _ _ hkept => hkept
  · exact fun _ _ hkept => hkept
  · exact fun _ _ _ hkept => hkept
  · intro disk set final file hopened _ hkept hregistered other hmember
    rw [(register_eq_ok_iff.1 hregistered).2] at hmember
    rcases List.mem_append.1 hmember with hold | hnew
    · exact hkept other hold
    · rw [List.mem_singleton.1 hnew]
      exact opened disk file hopened

variable {Kept : FileSet → Prop} {disk : Disk} {set final : FileSet}
variable (preserved : Preserved Kept)

include preserved

theorem openFile
    {path : String}
    {result : Except LoadError (Option SourceFile)}
    (opened : set.openFile disk path = (final, result))
    (kept : Kept set) :
    Kept final := by
  rcases openFile_cases opened with ⟨rfl, _⟩ | ⟨found, place, _, _, _, rfl, _⟩
  · exact kept
  · exact preserved.mark set place kept

theorem accept
    {file : SourceFile}
    (accepts : set.accept file = .ok final)
    (kept : Kept set) :
    Kept final := by
  unfold FileSet.accept at accepts
  split at accepts
  · next hnone =>
    cases accepts
    exact preserved.adopt set file hnone kept
  · split at accepts
    · cases accepts
      exact kept
    · cases accepts

theorem runs
    {task : Task}
    {result : Except LoadError Unit}
    (run : Runs disk task set final result)
    (sound : task.Sound disk)
    (packaged : set.package ≠ none)
    (kept : Kept set) :
    Kept final := by
  refine
    (Runs.preserves (fun set => Kept set ∧ set.package ≠ none) ?_ ?_ run sound
      ⟨kept, packaged⟩).1
  · rintro set place ⟨hkept, hpackage⟩
    exact ⟨preserved.mark set place hkept, hpackage⟩
  · rintro set final file hopened ⟨hkept, hpackage⟩ hregistered
    refine ⟨preserved.register disk set final file hopened hpackage hkept hregistered, ?_⟩
    rw [(register_eq_ok_iff.1 hregistered).2]
    exact hpackage

theorem loading
    {path : String}
    {result : Except LoadError Unit}
    (loading : Loading disk set path final result)
    (kept : Kept set) :
    Kept final := by
  cases loading with
  | unopened fails =>
      exact preserved.openFile fails kept
  | known passed =>
      exact preserved.openFile passed kept
  | mixed opened refuses =>
      exact preserved.openFile opened kept
  | added opened accepts inner =>
      refine preserved.runs inner (openedFrom_of_openFile opened) ?_ ?_
      · rw [(package_of_accept accepts).1]
        exact Option.some_ne_none _
      · exact preserved.accept accepts (preserved.openFile opened kept)

theorem loadAll (paths : List String) (kept : Kept set) : Kept (set.loadAll disk paths).1 := by
  induction paths generalizing set with
  | nil =>
      exact kept
  | cons path later ih =>
      have hfirst := preserved.loading (load_loading disk set path) kept
      rw [FileSet.loadAll]
      split
      · next after error hload =>
        rw [hload] at hfirst
        exact hfirst
      · next after hload =>
        rw [hload] at hfirst
        exact ih hfirst

/-- What is kept by each step holds of every set that comes about. -/
theorem of_reachable (reachable : Reachable set) : Kept set := by
  induction reachable with
  | refl =>
      exact preserved.empty
  | tail _ step ih =>
      cases step with
      | withExtension extension =>
          exact preserved.withExtension _ extension ih
      | load disk path =>
          exact preserved.loading (load_loading disk _ path) ih
      | loadAll disk paths =>
          exact preserved.loadAll paths ih

end Preserved

end FileSet
end InterfaceSchema
