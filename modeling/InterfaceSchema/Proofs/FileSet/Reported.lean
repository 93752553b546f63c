import InterfaceSchema.Proofs.FileSet.Unresolved

/-!
# The file that is reported for an import

The error for an import that leads to no file names one of two files, and which of them depends on
why the import leads to none.

* `FileSet.file_of_misses`: if nothing is there, the error names the importing file. If something
  else keeps the import from being read, it names the path at which the file was looked for.
* `FileSet.not_file_of_misses`: so the importing file is not named for an import of a directory, and
  not for one below a file.
-/

namespace InterfaceSchema
namespace FileSet

/-- A call that comes to an import whose path leads to no file fails at it. If nothing is there, the
error names the importing file. If a directory is there or the disk cannot be asked, it names the
path at which the file was looked for. -/
theorem file_of_misses
    {disk : Disk}
    {miss : Miss}
    {call : Call}
    {set final : FileSet}
    {calls : List Opening}
    (misses : CallMisses disk miss call set final calls) :
    call.run set disk = (final, .error miss.error) ∧
      resolve disk set.extension miss.sought = .error miss.cause ∧
      (miss.cause = .notFound miss.sought → miss.error.file = miss.importer.name) ∧
      (miss.cause ≠ .notFound miss.sought → miss.error.file = miss.sought) := by
  have hunresolved := misses.unresolved
  refine ⟨misses.reads.run_eq, resolve_eq_error_iff.2 hunresolved, ?_, ?_⟩
  · intro hmissing
    rw [Miss.error, hmissing]
    rfl
  · intro hother
    unfold Miss.error
    cases hcause : miss.cause with
    | notFound path =>
        rw [hcause] at hunresolved hother
        cases hunresolved with
        | missing located noFile =>
            exact absurd rfl hother
    | _ =>
        rw [hcause] at hunresolved
        exact hunresolved.file_eq

/-! ## An import of a directory, and one below a file -/

namespace Astray

/-- A file that imports a directory. -/
def firstText : String :=
  "package p;import \"d\";"

/-- A file that imports what would stand below the first file. -/
def secondText : String :=
  "package p;import \"a.yarp/x\";"

/-- The disk with both files and the directory. -/
def disk : Disk where
  home := []
  entries :=
    [(["a.yarp"], .file firstText.toUTF8),
      (["b.yarp"], .file secondText.toUTF8),
      (["d"], .directory)]

theorem locate_entry
    {name : String}
    (plain : Char.ofNat 0 ∉ name.toList ∧ name ≠ "" ∧ name.utf8ByteSize < Disk.pathLimit)
    (base : Disk.baseOf [] name = [])
    (split : Path.components name = [name])
    (isName : Disk.IsName name)
    {entry : Entry}
    (found : disk.get? [name] = some entry)
    (noLink : ∀ target, entry ≠ .link target) :
    disk.locate name = .ok [name] := by
  have hwalk (links : Nat) : disk.walk links [] [name] = .ok [name] := by
    rw [Disk.walk_enter rfl isName found noLink, Disk.walk_nil]
    rfl
  exact Disk.locate_of_walk plain base split (hwalk 40) (by rw [found]; rfl)

theorem locate_first : disk.locate "a.yarp" = .ok ["a.yarp"] :=
  locate_entry (by decide) rfl rfl (by decide) rfl (by simp)

theorem locate_second : disk.locate "b.yarp" = .ok ["b.yarp"] :=
  locate_entry (by decide) rfl rfl (by decide) rfl (by simp)

/-- The directory is there, and no file is named like it. -/
theorem unresolved_directory :
    Unresolved disk defaultExtension "d" (.isDirectory "d") := by
  have hlocated : disk.locate "d" = .ok ["d"] :=
    locate_entry (by decide) rfl rfl (by decide) rfl (by simp)
  have hreach : disk.reach "d.yarp" = .ok ["d.yarp"] := by
    rw [Disk.reach_short (by decide) (by decide) (by decide),
      show Path.components "d.yarp" = ["d.yarp"] from rfl]
    exact Disk.walk_missing_last rfl (by decide) rfl
  refine .directory hlocated rfl ?_
  unfold Disk.isFile Disk.locate
  rw [show "d" ++ "." ++ defaultExtension = "d.yarp" from rfl, hreach]
  rfl

/-- A file has nothing below it. -/
theorem unresolved_below :
    Unresolved disk defaultExtension "a.yarp/x" (.disk "a.yarp/x" .notDirectory) := by
  have hreach : disk.reach "a.yarp/x" = .error .notDirectory := by
    rw [Disk.reach_short (by decide) (by decide) (by decide),
      show Path.components "a.yarp/x" = ["a.yarp", "x"] from rfl]
    exact (Disk.walk_enter rfl (by decide) rfl (by simp)).trans (Disk.walk_of_not_directory rfl)
  exact .fault (Disk.locate_eq_error hreach) (by simp)

/-- A load of a file with one import comes to this import. -/
theorem exists_misses
    {name path : String}
    {cause : LoadError}
    (located : disk.locate name = .ok [name])
    (isFile : disk.isDirectoryAt [name] = false)
    (holds : disk.HoldsBare [name] "p" [path])
    (beside : Path.beside (Path.directory name) path = path)
    (unresolved : Unresolved disk defaultExtension path cause) :
    ∃ miss final calls,
      CallMisses disk miss (.load name) empty final calls ∧
        miss.importer.name = name ∧ miss.sought = path ∧ miss.cause = cause := by
  rcases SourceFile.exists_openAt_of_holdsBare located holds with ⟨file, hread, hpath, hbare⟩
  rcases SourceFile.openAt_eq_ok hread with ⟨_, _, _, _, hname, _⟩
  have hsought : Miss.sought ⟨file, path, cause⟩ = path := by
    unfold Miss.sought SourceFile.directory
    rw [hpath]
    exact beside
  have hopen :
      empty.openFile disk name = ({ empty with loaded := [[name]] }, .ok (some file)) :=
    openFile_of_located located isFile (by simp [empty]) hread
  have hstops :
      ∀ set : FileSet,
        set.extension = defaultExtension →
          Misses disk ⟨file, path, cause⟩ (.imports file [path]) set set [] := by
    intro set hextension
    have hunresolved : Unresolved disk set.extension (Miss.sought ⟨file, path, cause⟩) cause := by
      rw [hsought, hextension]
      exact unresolved
    exact .here [] hunresolved
  rw [← hbare.imports_eq] at hstops
  exact ⟨_, _, _, .load (.added hopen rfl (.file (hstops _ rfl))), hname, hsought, rfl⟩

theorem exists_misses_directory :
    ∃ miss final calls,
      CallMisses disk miss (.load "a.yarp") empty final calls ∧
        miss.importer.name = "a.yarp" ∧ miss.sought = "d" ∧ miss.cause = .isDirectory "d" :=
  exists_misses locate_first rfl (Disk.holdsBare_of_text firstText rfl (by decide +kernel))
    (by decide +kernel) unresolved_directory

theorem exists_misses_below :
    ∃ miss final calls,
      CallMisses disk miss (.load "b.yarp") empty final calls ∧
        miss.importer.name = "b.yarp" ∧
        miss.sought = "a.yarp/x" ∧ miss.cause = .disk "a.yarp/x" .notDirectory :=
  exists_misses locate_second rfl (Disk.holdsBare_of_text secondText rfl (by decide +kernel))
    (by decide +kernel) unresolved_below

end Astray

theorem file_of_misses_samples :
    (∃ miss final calls,
        CallMisses Astray.disk miss (.load "a.yarp") empty final calls ∧
          miss.cause ≠ .notFound miss.sought ∧ miss.error.file = miss.sought) ∧
      ∃ miss final calls,
        CallMisses lackingDisk miss (.load "a.yarp") empty final calls ∧
          miss.cause = .notFound miss.sought ∧ miss.error.file = miss.importer.name := by
  constructor
  · rcases Astray.exists_misses_directory with ⟨miss, final, calls, hmisses, _, _, hcause⟩
    have hother : miss.cause ≠ .notFound miss.sought := by
      rw [hcause]
      simp
    exact ⟨miss, final, calls, hmisses, hother, (file_of_misses hmisses).2.2.2 hother⟩
  · rcases exists_load_lackingDisk with ⟨final, importer, hload⟩
    rcases Call.exists_reads (.load "a.yarp") empty lackingDisk with ⟨calls, hreads⟩
    have hrun :
        (Call.load "a.yarp").run empty lackingDisk =
          (final, .error (.importNotFound "c" importer)) :=
      hload
    rw [hrun] at hreads
    rcases hreads.misses rfl rfl with ⟨_, _, hroot, _⟩ | ⟨other, path, _, hmisses⟩
    · cases hroot
    · exact ⟨_, _, _, hmisses, rfl, (file_of_misses hmisses).2.2.1 rfl⟩

/-- The load of a file fails at an import of this file, with an error that names another one. -/
def Misreports (disk : Disk) (name : String) (error : LoadError) : Prop :=
  ∃ miss final calls,
    CallMisses disk miss (.load name) empty final calls ∧
      (Call.load name).run empty disk = (final, .error error) ∧
      miss.importer.name = name ∧ error.file ≠ miss.importer.name

theorem misreports_of_misses
    {disk : Disk}
    {name : String}
    {miss : Miss}
    {final : FileSet}
    {calls : List Opening}
    (misses : CallMisses disk miss (.load name) empty final calls)
    (importer : miss.importer.name = name)
    (found : miss.cause.kind ≠ .notFound)
    (other : miss.sought ≠ name) :
    Misreports disk name miss.cause := by
  have herror : miss.error = miss.cause := LoadError.atImport_eq_self _ _ found
  have hreturned := misses.reads.run_eq
  rw [herror] at hreturned
  refine ⟨miss, final, calls, misses, hreturned, importer, ?_⟩
  rw [misses.unresolved.file_eq, importer]
  exact other

/-- The error for an import of a directory, and that for an import below a file, name another file
than the importing one. -/
theorem not_file_of_misses :
    Misreports Astray.disk "a.yarp" (.isDirectory "d") ∧
      Misreports Astray.disk "b.yarp" (.disk "a.yarp/x" .notDirectory) := by
  constructor
  · rcases Astray.exists_misses_directory with
      ⟨miss, final, calls, hmisses, hname, hsought, hcause⟩
    rw [← hcause]
    exact misreports_of_misses hmisses hname (by rw [hcause]; decide) (by rw [hsought]; decide)
  · rcases Astray.exists_misses_below with ⟨miss, final, calls, hmisses, hname, hsought, hcause⟩
    rw [← hcause]
    exact misreports_of_misses hmisses hname (by rw [hcause]; decide) (by rw [hsought]; decide)

end FileSet
end InterfaceSchema
