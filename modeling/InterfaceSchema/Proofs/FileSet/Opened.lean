import InterfaceSchema.FileSet.Load
import InterfaceSchema.Proofs.Reading.Text

/-!
# Opening a file

* `SourceFile.openAt_eq_ok`, `SourceFile.OpenedFrom.distinct`: what a file read from a disk holds.
* `FileSet.openFile_cases`: opening a file for a set marks its place, or leaves the set as it is.
-/

namespace InterfaceSchema

namespace SourceFile

/-- A file that was read from a disk. -/
def OpenedFrom (disk : Disk) (file : SourceFile) : Prop :=
  ∃ path, openAt disk path = .ok file

/-- What a file read from a disk holds. -/
theorem openAt_eq_ok
    {disk : Disk}
    {path : String}
    {file : SourceFile}
    (opened : openAt disk path = .ok file) :
    ∃ bytes,
      disk.read path = .ok bytes ∧
        String.fromUTF8? bytes = some file.source ∧
        Schema.parse path file.source = .ok file.schema ∧
        file.name = path ∧ file.path = some path := by
  unfold openAt at opened
  split at opened
  · cases opened
  · cases opened
  · next bytes hbytes =>
    split at opened
    · cases opened
    · next source hsource =>
      split at opened
      · cases opened
      · next parsed hparsed =>
        unfold ofSource at hparsed
        cases hschema : Schema.parse path source with
        | error error =>
            rw [hschema] at hparsed
            cases hparsed
        | ok schema =>
            rw [hschema] at hparsed
            cases hparsed
            cases opened
            exact ⟨bytes, hbytes, hsource, hschema, rfl, rfl⟩

/-- The declarations of a file read from a disk are distinct. -/
theorem OpenedFrom.distinct
    {disk : Disk}
    {file : SourceFile}
    (opened : file.OpenedFrom disk) :
    Schema.Distinct file.schema.declarations := by
  rcases opened with ⟨path, hopened⟩
  rcases openAt_eq_ok hopened with ⟨bytes, _, _, hparsed, _, _⟩
  exact Schema.distinct_of_parse hparsed

end SourceFile

namespace FileSet

variable {disk : Disk} {set after : FileSet} {path : String}

theorem openFile_of_error
    {error : LoadError}
    (unresolved : resolve disk set.extension path = .error error) :
    set.openFile disk path = (set, .error error) := by
  unfold openFile
  rw [unresolved]

section Equations

variable {found : String} {place : Place}
variable (resolved : resolve disk set.extension path = .ok found)
variable (located : disk.locate found = .ok place)

include resolved located

theorem openFile_of_mem (known : place ∈ set.loaded) :
    set.openFile disk path = (set, .ok none) := by
  unfold openFile
  rw [resolved]
  dsimp only
  rw [located]
  exact if_pos known

theorem openFile_of_not_mem (new : place ∉ set.loaded) :
    set.openFile disk path =
      ({ set with loaded := place :: set.loaded },
        (SourceFile.openAt disk found).map some) := by
  unfold openFile
  rw [resolved]
  dsimp only
  rw [located]
  exact if_neg new

end Equations

/-- Opening a file at most marks its place. -/
theorem openFile_cases
    {result : Except LoadError (Option SourceFile)}
    (opened : set.openFile disk path = (after, result)) :
    (after = set ∧ ∀ file, result ≠ .ok (some file)) ∨
      ∃ found place,
        resolve disk set.extension path = .ok found ∧
          disk.locate found = .ok place ∧
          place ∉ set.loaded ∧
          after = { set with loaded := place :: set.loaded } ∧
          result = (SourceFile.openAt disk found).map some := by
  unfold openFile at opened
  split at opened
  · cases opened
    exact Or.inl ⟨rfl, by simp⟩
  · next found hfound =>
    split at opened
    · cases opened
      exact Or.inl ⟨rfl, by simp⟩
    · next place hplace =>
      split at opened
      · cases opened
        exact Or.inl ⟨rfl, by simp⟩
      · next hnew =>
        cases opened
        exact Or.inr ⟨found, place, hfound, hplace, hnew, rfl, rfl⟩

/-- Opening a file for a set changes no more than its marked places. -/
theorem fields_of_openFile
    {result : Except LoadError (Option SourceFile)}
    (opened : set.openFile disk path = (after, result)) :
    after.extension = set.extension ∧
      after.files = set.files ∧ after.package = set.package := by
  rcases openFile_cases opened with ⟨rfl, _⟩ | ⟨found, place, _, _, _, rfl, _⟩
  · exact ⟨rfl, rfl, rfl⟩
  · exact ⟨rfl, rfl, rfl⟩

/-- A file that was opened for a set was read from the disk. -/
theorem openedFrom_of_openFile
    {file : SourceFile}
    (opened : set.openFile disk path = (after, .ok (some file))) :
    file.OpenedFrom disk := by
  rcases openFile_cases opened with ⟨_, hnone⟩ | ⟨found, place, _, _, _, _, hresult⟩
  · exact absurd rfl (hnone file)
  · refine ⟨found, ?_⟩
    cases hopened : SourceFile.openAt disk found with
    | error error =>
        rw [hopened] at hresult
        cases hresult
    | ok other =>
        rw [hopened] at hresult
        cases hresult
        rfl

end FileSet
end InterfaceSchema
