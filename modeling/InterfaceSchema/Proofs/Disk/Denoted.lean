import InterfaceSchema.FileSet.Load
import InterfaceSchema.Proofs.Disk.Target

/-!
# The file that a path denotes

* `Disk.Denotes`: a path denotes the file that it leads to, as it is written or, failing that, with
  an extension after it.
* `Disk.Tries`: the paths that are looked up for a path, and `Disk.Finds`: the one of them at which
  the file is found.
* `FileSet.finds_of_resolve`: resolving a path finds the file that it denotes.
* `FileSet.not_exceeds_of_resolve`, `FileSet.exists_resolve_of_denotes`: a path that denotes a file
  is resolved just if no path that is looked up for it exceeds a limit.
-/

namespace InterfaceSchema

namespace Disk

/-- Something other than a directory stands at a place. -/
def IsFileAt (disk : Disk) (place : Place) : Prop :=
  (disk.get? place).isSome = true ∧ disk.isDirectoryAt place = false

/-- A path leads to a directory or to nothing. -/
def IsVacant (disk : Disk) : Except DiskFault Place → Prop
  | .ok place => ¬ disk.IsFileAt place
  | .error fault => fault = .notFound

/-- The file that a path denotes which is read in a directory. -/
inductive Denotes
    (disk : Disk)
    (extension : String)
    (directory : Place)
    (path : String)
    (goal : Place) : Prop
  | asWritten
      (leads : disk.Leads directory path (.ok goal))
      (file : disk.IsFileAt goal)
  | extended
      {outcome : Except DiskFault Place}
      (written : disk.Leads directory path outcome)
      (vacant : disk.IsVacant outcome)
      (leads : disk.Leads directory (path ++ "." ++ extension) (.ok goal))
      (file : disk.IsFileAt goal)

/-- The paths that are looked up for a path: the path as it is written and, where this leads to a
directory or to nothing, the path with the extension. -/
inductive Tries (disk : Disk) (extension path : String) : String → Prop
  | asWritten : Tries disk extension path path
  | extended
      {outcome : Except DiskFault Place}
      (written : disk.Leads disk.home path outcome)
      (vacant : disk.IsVacant outcome) :
      Tries disk extension path (path ++ "." ++ extension)

/-- The path at which a file is found that is looked up for a path. -/
structure Finds
    (disk : Disk)
    (extension path found : String)
    (goal : Place) : Prop where
  tries : disk.Tries extension path found
  leads : disk.Leads disk.home found (.ok goal)
  file : disk.IsFileAt goal

section Uniqueness

variable {disk : Disk} {extension : String} {directory : Place} {path : String} {goal : Place}

/-- A path denotes at most one file. -/
theorem Denotes.unique
    {other : Place}
    (denotes : disk.Denotes extension directory path goal)
    (also : disk.Denotes extension directory path other) :
    goal = other := by
  cases denotes with
  | asWritten hleads hfile =>
      cases also with
      | asWritten hother _ =>
          cases hleads.unique hother
          rfl
      | extended hwritten hvacant _ _ =>
          cases hleads.unique hwritten
          exact absurd hfile hvacant
  | extended hwritten hvacant hleads _ =>
      cases also with
      | asWritten hother hfile =>
          cases hother.unique hwritten
          exact absurd hfile hvacant
      | extended _ _ hother _ =>
          cases hleads.unique hother
          rfl

/-- What is found is the file that the path denotes. -/
theorem Finds.denotes
    {found : String}
    (finds : disk.Finds extension path found goal) :
    disk.Denotes extension disk.home path goal := by
  cases finds.tries with
  | asWritten =>
      exact .asWritten finds.leads finds.file
  | extended hwritten hvacant =>
      exact .extended hwritten hvacant finds.leads finds.file

/-- A file is found at one path only. -/
theorem Finds.unique
    {found otherFound : String}
    {other : Place}
    (finds : disk.Finds extension path found goal)
    (also : disk.Finds extension path otherFound other) :
    found = otherFound ∧ goal = other := by
  refine ⟨?_, finds.denotes.unique also.denotes⟩
  -- The extension is tried only where the path as it is written leads to no file.
  cases finds.tries with
  | asWritten =>
      cases also.tries with
      | asWritten =>
          rfl
      | extended hwritten hvacant =>
          cases finds.leads.unique hwritten
          exact absurd finds.file hvacant
  | extended hwritten hvacant =>
      cases also.tries with
      | asWritten =>
          cases also.leads.unique hwritten
          exact absurd also.file hvacant
      | extended _ _ =>
          rfl

/-- Paths that lead to the same, also with the extension, denote the same. -/
theorem Denotes.congr
    {place : Place}
    {other : String}
    (written :
      ∀ outcome, disk.Leads directory path outcome → disk.Leads place other outcome)
    (extended :
      ∀ outcome,
        disk.Leads directory (path ++ "." ++ extension) outcome →
          disk.Leads place (other ++ "." ++ extension) outcome)
    (denotes : disk.Denotes extension directory path goal) :
    disk.Denotes extension place other goal := by
  cases denotes with
  | asWritten hleads hfile =>
      exact .asWritten (written _ hleads) hfile
  | extended hwritten hvacant hleads hfile =>
      exact .extended (written _ hwritten) hvacant (extended _ hleads) hfile

end Uniqueness

section Locate

variable {disk : Disk} {path : String} {place : Place}

theorem locate_eq_ok_iff :
    disk.locate path = .ok place ↔
      disk.reach path = .ok place ∧ (disk.get? place).isSome = true := by
  unfold locate
  cases hreach : disk.reach path with
  | error fault =>
      simp
  | ok found =>
      dsimp only
      by_cases hfound : (disk.get? found).isSome = true
      · rw [if_pos hfound]
        constructor
        · intro hsame
          cases hsame
          exact ⟨rfl, hfound⟩
        · rintro ⟨hsame, _⟩
          exact hsame
      · rw [if_neg hfound]
        constructor
        · intro hsame
          cases hsame
        · rintro ⟨hsame, hsome⟩
          cases hsame
          exact absurd hsome hfound

theorem locate_of_walk
    {start : Place}
    {parts : List String}
    (plain : Char.ofNat 0 ∉ path.toList ∧ path ≠ "" ∧ path.utf8ByteSize < pathLimit)
    (base : baseOf disk.home path = start)
    (split : Path.components path = parts)
    (walks : disk.walk linkLimit start parts = .ok place)
    (there : (disk.get? place).isSome = true) :
    disk.locate path = .ok place := by
  refine locate_eq_ok_iff.2 ⟨?_, there⟩
  rw [reach_short plain.1 plain.2.1 (Nat.not_le.2 plain.2.2), base, split]
  exact walks

theorem locate_eq_error
    {fault : DiskFault}
    (reaches : disk.reach path = .error fault) :
    disk.locate path = .error fault := by
  unfold locate
  rw [reaches]

/-- What is not found is not there. -/
theorem isVacant_of_locate
    (missing : disk.locate path = .error .notFound) :
    ∃ outcome, disk.Leads disk.home path outcome ∧ disk.IsVacant outcome := by
  cases hreach : disk.reach path with
  | error fault =>
      rw [locate_eq_error hreach] at missing
      cases missing
      exact ⟨_, leads_of_reach hreach (by simp) (by simp), rfl⟩
  | ok place =>
      refine ⟨_, leads_of_reach hreach (by simp) (by simp), ?_⟩
      rintro ⟨hsome, _⟩
      rw [locate_eq_ok_iff.2 ⟨hreach, hsome⟩] at missing
      cases missing

theorem leads_of_locate (located : disk.locate path = .ok place) :
    disk.Leads disk.home path (.ok place) :=
  leads_of_reach (locate_eq_ok_iff.1 located).1 (by simp) (by simp)

theorem isFile_iff :
    disk.isFile path = true ↔ ∃ place, disk.locate path = .ok place ∧ disk.IsFileAt place := by
  unfold isFile
  cases hlocated : disk.locate path with
  | error fault =>
      simp
  | ok place =>
      have hsome := (locate_eq_ok_iff.1 hlocated).2
      simp [IsFileAt, hsome]

theorem isFile_of_exceeds (exceeds : disk.Exceeds path) : disk.isFile path = false := by
  unfold isFile
  obtain hlong | hmany := exceeds.reach_eq
  · rw [locate_eq_error hlong]
  · rw [locate_eq_error hmany]

end Locate

end Disk

/-! ## Resolving paths -/

namespace FileSet

section Resolve

variable {disk : Disk} {extension path : String}

/-- Resolving a path finds a file. -/
theorem finds_of_resolve
    {found : String}
    (resolved : resolve disk extension path = .ok found) :
    ∃ place, disk.locate found = .ok place ∧ disk.Finds extension path found place := by
  unfold resolve at resolved
  dsimp only at resolved
  cases hlocated : disk.locate path with
  | ok place =>
      rw [hlocated] at resolved
      dsimp only at resolved
      by_cases hfile : disk.isDirectoryAt place = false
      · rw [if_pos hfile] at resolved
        cases resolved
        have hsome := (Disk.locate_eq_ok_iff.1 hlocated).2
        exact
          ⟨place, hlocated, .asWritten, Disk.leads_of_locate hlocated, hsome, hfile⟩
      rw [if_neg hfile] at resolved
      by_cases hextended : disk.isFile (path ++ "." ++ extension) = true
      · rw [if_pos hextended] at resolved
        cases resolved
        rcases Disk.isFile_iff.1 hextended with ⟨goal, hgoal, hgoalFile⟩
        have hvacant : disk.IsVacant (.ok place) := fun hplace => hfile hplace.2
        exact
          ⟨goal, hgoal, .extended (Disk.leads_of_locate hlocated) hvacant,
            Disk.leads_of_locate hgoal, hgoalFile⟩
      · rw [if_neg hextended] at resolved
        cases resolved
  | error fault =>
      rw [hlocated] at resolved
      by_cases hmissing : fault = .notFound
      · subst hmissing
        dsimp only at resolved
        by_cases hextended : disk.isFile (path ++ "." ++ extension) = true
        · rw [if_pos hextended] at resolved
          cases resolved
          rcases Disk.isFile_iff.1 hextended with ⟨goal, hgoal, hgoalFile⟩
          rcases Disk.isVacant_of_locate hlocated with ⟨outcome, hwritten, hvacant⟩
          exact
            ⟨goal, hgoal, .extended hwritten hvacant, Disk.leads_of_locate hgoal, hgoalFile⟩
        · rw [if_neg hextended] at resolved
          cases resolved
      · cases fault <;> first | exact absurd rfl hmissing | cases resolved

/-- A path is resolved to the file that it denotes. -/
theorem denotes_of_resolve
    {found : String}
    (resolved : resolve disk extension path = .ok found) :
    ∃ place, disk.locate found = .ok place ∧ disk.Denotes extension disk.home path place := by
  obtain ⟨place, hlocated, hfinds⟩ := finds_of_resolve resolved
  exact ⟨place, hlocated, hfinds.denotes⟩

theorem resolve_of_file
    {place : Place}
    (extension : String)
    (located : disk.locate path = .ok place)
    (file : disk.isDirectoryAt place = false) :
    resolve disk extension path = .ok path := by
  unfold resolve
  rw [located]
  exact if_pos file

theorem resolve_of_exceeds (exceeds : disk.Exceeds path) :
    ∃ fault, resolve disk extension path = .error (.disk path fault) := by
  unfold resolve
  rcases exceeds.reach_eq with hlong | hmany
  · rw [Disk.locate_eq_error hlong]
    exact ⟨_, rfl⟩
  · rw [Disk.locate_eq_error hmany]
    exact ⟨_, rfl⟩

/-- A path that leads to a directory or to nothing stands for the path with the extension. -/
theorem resolve_of_vacant
    (extension : String)
    {outcome : Except DiskFault Place}
    (reaches : disk.reach path = outcome)
    (vacant : disk.IsVacant outcome) :
    (disk.isFile (path ++ "." ++ extension) = true →
      resolve disk extension path = .ok (path ++ "." ++ extension)) ∧
      (disk.isFile (path ++ "." ++ extension) = false →
        resolve disk extension path = .error (.isDirectory path) ∨
          resolve disk extension path = .error (.notFound path)) := by
  have hlocated :
      disk.locate path = .error .notFound ∨
        ∃ place, disk.locate path = .ok place ∧ disk.isDirectoryAt place = true := by
    cases outcome with
    | error fault =>
        have hfault : fault = .notFound := vacant
        rw [hfault] at reaches
        exact Or.inl (Disk.locate_eq_error reaches)
    | ok place =>
        by_cases hsome : (disk.get? place).isSome = true
        · refine Or.inr ⟨place, Disk.locate_eq_ok_iff.2 ⟨reaches, hsome⟩, ?_⟩
          by_cases hdirectory : disk.isDirectoryAt place = true
          · exact hdirectory
          · exact absurd ⟨hsome, by simpa using hdirectory⟩ vacant
        · unfold Disk.locate
          rw [reaches]
          exact Or.inl (if_neg hsome)
  unfold resolve
  rcases hlocated with hmissing | ⟨place, hplace, hdirectory⟩
  · rw [hmissing]
    constructor
    · intro hfile
      exact if_pos hfile
    · intro hnoFile
      exact Or.inr (if_neg (by simp [hnoFile]))
  · rw [hplace]
    dsimp only
    rw [if_neg (by simp [hdirectory])]
    constructor
    · intro hfile
      exact if_pos hfile
    · intro hnoFile
      exact Or.inl (if_neg (by simp [hnoFile]))

/-- No path that is looked up for a path that is resolved exceeds a limit. -/
theorem not_exceeds_of_resolve
    {found tried : String}
    (resolved : resolve disk extension path = .ok found)
    (tries : disk.Tries extension path tried) :
    ¬ disk.Exceeds tried := by
  have hpath : ¬ disk.Exceeds path := by
    intro hexceeds
    obtain ⟨fault, hfails⟩ : ∃ fault, resolve disk extension path = .error (.disk path fault) :=
      resolve_of_exceeds hexceeds
    rw [hfails] at resolved
    cases resolved
  cases tries with
  | asWritten =>
      exact hpath
  | extended hwritten hvacant =>
      intro hbeyond
      have hresolved := resolve_of_vacant extension (hwritten.reach_eq hpath) hvacant
      obtain hfails | hfails := hresolved.2 (Disk.isFile_of_exceeds hbeyond)
      · rw [hfails] at resolved
        cases resolved
      · rw [hfails] at resolved
        cases resolved

/-- A path that denotes a file is resolved if no path that is looked up for it exceeds a limit. -/
theorem exists_resolve_of_denotes
    {goal : Place}
    (denotes : disk.Denotes extension disk.home path goal)
    (fits : ∀ tried, disk.Tries extension path tried → ¬ disk.Exceeds tried) :
    ∃ found, resolve disk extension path = .ok found ∧ disk.locate found = .ok goal := by
  have hpath := fits path .asWritten
  cases denotes with
  | asWritten hleads hfile =>
      have hlocated : disk.locate path = .ok goal :=
        Disk.locate_eq_ok_iff.2 ⟨hleads.reach_eq hpath, hfile.1⟩
      exact ⟨path, resolve_of_file extension hlocated hfile.2, hlocated⟩
  | extended hwritten hvacant hleads hfile =>
      have hlonger := fits _ (.extended hwritten hvacant)
      have hlocated : disk.locate (path ++ "." ++ extension) = .ok goal :=
        Disk.locate_eq_ok_iff.2 ⟨hleads.reach_eq hlonger, hfile.1⟩
      have hresolved := resolve_of_vacant extension (hwritten.reach_eq hpath) hvacant
      exact ⟨_, hresolved.1 (Disk.isFile_iff.2 ⟨goal, hlocated, hfile⟩), hlocated⟩

end Resolve

end FileSet
end InterfaceSchema
