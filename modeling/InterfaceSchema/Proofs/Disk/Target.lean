import InterfaceSchema.Proofs.Disk.Walk

/-!
# Where paths lead

* `Disk.Leads`: where a path leads that is read in a directory, whatever the limits on links and
  bytes are.
* `Disk.Exceeds`: a limit keeps a path from leading there.
* `Disk.leads_beside_iff`: on a disk without links to files, a path read beside a file leads to the
  same wherever the path of that file went through.
-/

namespace InterfaceSchema
namespace Disk

/-- Every entry lies in a directory. -/
def IsTree (disk : Disk) : Prop :=
  ∀ place, (disk.get? place).isSome = true → disk.isDirectoryAt place.dropLast = true

/-- The bytes of the file at a place. -/
def content? (disk : Disk) (place : Place) : Option ByteArray :=
  match disk.get? place with
  | some (.file content) => some content
  | _ => none

/-- No symbolic link leads to a file. -/
def NoFileLinks (disk : Disk) : Prop :=
  ∀ place target goal,
    disk.get? place = some (.link target) →
      disk.Follows (baseOf place.dropLast target) (Path.components target) (.ok goal) →
        disk.content? goal = none

/-- Where a path leads that is read in a directory, whatever the limits are. -/
inductive Leads (disk : Disk) (directory : Place) (path : String) :
    Except DiskFault Place → Prop
  | nul
      (nul : Char.ofNat 0 ∈ path.toList) :
      Leads disk directory path (.error .nulInPath)
  | empty
      (empty : path = "") :
      Leads disk directory path (.error .notFound)
  | follows
      {outcome : Except DiskFault Place}
      (noNul : Char.ofNat 0 ∉ path.toList)
      (nonempty : path ≠ "")
      (follows : disk.Follows (baseOf directory path) (Path.components path) outcome) :
      Leads disk directory path outcome

/-- A path leads somewhere, but it has too many bytes or goes through too many links. -/
def Exceeds (disk : Disk) (path : String) : Prop :=
  ∃ outcome, disk.Leads disk.home path outcome ∧ disk.reach path ≠ outcome

section Reach

variable {disk : Disk} {directory : Place} {path : String}

theorem Leads.unique
    {outcome other : Except DiskFault Place}
    (leads : disk.Leads directory path outcome)
    (also : disk.Leads directory path other) :
    outcome = other := by
  cases leads with
  | nul hnul =>
      cases also with
      | nul _ =>
          rfl
      | empty hempty =>
          rw [hempty] at hnul
          cases hnul
      | follows hnoNul _ _ =>
          exact absurd hnul hnoNul
  | empty hempty =>
      cases also with
      | nul hnul =>
          rw [hempty] at hnul
          cases hnul
      | empty _ =>
          rfl
      | follows _ hnonempty _ =>
          exact absurd hempty hnonempty
  | follows hnoNul hnonempty hfollows =>
      cases also with
      | nul hnul =>
          exact absurd hnul hnoNul
      | empty hempty =>
          exact absurd hempty hnonempty
      | follows _ _ hother =>
          exact hfollows.unique hother

theorem leads_nul_iff
    (nul : Char.ofNat 0 ∈ path.toList)
    {outcome : Except DiskFault Place} :
    disk.Leads directory path outcome ↔ outcome = .error .nulInPath := by
  constructor
  · intro hleads
    exact hleads.unique (.nul nul)
  · rintro rfl
    exact .nul nul

theorem leads_plain_iff
    (noNul : Char.ofNat 0 ∉ path.toList)
    (nonempty : path ≠ "")
    {outcome : Except DiskFault Place} :
    disk.Leads directory path outcome ↔
      disk.Follows (baseOf directory path) (Path.components path) outcome := by
  constructor
  · intro hleads
    cases hleads with
    | nul hnul =>
        exact absurd hnul noNul
    | empty hempty =>
        exact absurd hempty nonempty
    | follows _ _ hfollows =>
        exact hfollows
  · intro hfollows
    exact .follows noNul nonempty hfollows

theorem reach_nul (nul : Char.ofNat 0 ∈ path.toList) : disk.reach path = .error .nulInPath := by
  unfold reach
  rw [if_pos (by simpa using nul)]

theorem reach_empty : disk.reach "" = .error .notFound := by
  unfold reach
  rw [if_neg (by simp), if_pos rfl]

theorem reach_long
    (noNul : Char.ofNat 0 ∉ path.toList)
    (nonempty : path ≠ "")
    (long : pathLimit ≤ path.utf8ByteSize) :
    disk.reach path = .error .nameTooLong := by
  unfold reach
  rw [if_neg (by simpa using noNul), if_neg nonempty, if_pos long]

theorem reach_short
    (noNul : Char.ofNat 0 ∉ path.toList)
    (nonempty : path ≠ "")
    (short : ¬ pathLimit ≤ path.utf8ByteSize) :
    disk.reach path =
      disk.walk linkLimit (baseOf disk.home path) (Path.components path) := by
  unfold reach
  rw [if_neg (by simpa using noNul), if_neg nonempty, if_neg short]
  rfl

/-- A path that leads to a place is followed within the limits. -/
theorem plain_of_reach
    {place : Place}
    (reaches : disk.reach path = .ok place) :
    Char.ofNat 0 ∉ path.toList ∧
      path ≠ "" ∧
      path.utf8ByteSize < pathLimit ∧
      disk.walk linkLimit (baseOf disk.home path) (Path.components path) = .ok place := by
  by_cases hnul : Char.ofNat 0 ∈ path.toList
  · rw [reach_nul hnul] at reaches
    cases reaches
  by_cases hempty : path = ""
  · rw [hempty, reach_empty] at reaches
    cases reaches
  by_cases hlong : pathLimit ≤ path.utf8ByteSize
  · rw [reach_long hnul hempty hlong] at reaches
    cases reaches
  · rw [reach_short hnul hempty hlong] at reaches
    exact ⟨hnul, hempty, Nat.not_le.1 hlong, reaches⟩

theorem reach_of_locate
    {place : Place}
    (located : disk.locate path = .ok place) :
    disk.reach path = .ok place := by
  unfold locate at located
  split at located
  · cases located
  · next hreaches =>
    split at located
    · cases located
      exact hreaches
    · cases located

/-- What is found within the limits is where a path leads. -/
theorem leads_of_reach
    {outcome : Except DiskFault Place}
    (reaches : disk.reach path = outcome)
    (notLong : outcome ≠ .error .nameTooLong)
    (notMany : outcome ≠ .error .tooManyLinks) :
    disk.Leads disk.home path outcome := by
  by_cases hnul : Char.ofNat 0 ∈ path.toList
  · rw [← reaches, reach_nul hnul]
    exact .nul hnul
  by_cases hempty : path = ""
  · subst hempty
    rw [← reaches, reach_empty]
    exact .empty rfl
  by_cases hlong : pathLimit ≤ path.utf8ByteSize
  · rw [reach_long hnul hempty hlong] at reaches
    exact absurd reaches.symm notLong
  · rw [reach_short hnul hempty hlong] at reaches
    exact .follows hnul hempty ⟨notMany, linkLimit, reaches⟩

/-- A path that exceeds a limit is reported as too long or as one of too many links. -/
theorem Exceeds.reach_eq (exceeds : disk.Exceeds path) :
    disk.reach path = .error .nameTooLong ∨ disk.reach path = .error .tooManyLinks := by
  rcases exceeds with ⟨outcome, hleads, hother⟩
  by_cases hlong : disk.reach path = .error .nameTooLong
  · exact Or.inl hlong
  by_cases hmany : disk.reach path = .error .tooManyLinks
  · exact Or.inr hmany
  · exact absurd ((leads_of_reach rfl hlong hmany).unique hleads) hother

/-- A path that exceeds no limit is followed to where it leads. -/
theorem Leads.reach_eq
    {outcome : Except DiskFault Place}
    (leads : disk.Leads disk.home path outcome)
    (fits : ¬ disk.Exceeds path) :
    disk.reach path = outcome := by
  by_cases hsame : disk.reach path = outcome
  · exact hsame
  · exact absurd ⟨outcome, leads, hsame⟩ fits

end Reach

/-! ## Paths beside a file -/

section Beside

variable {disk : Disk} {place goal : Place} {path : String}

theorem get?_eq_of_content
    (content : (disk.content? place).isSome = true) :
    ∃ bytes, disk.get? place = some (.file bytes) := by
  unfold content? at content
  split at content
  · next bytes hfound =>
    exact ⟨bytes, hfound⟩
  · cases content

theorem not_directory_of_content
    (content : (disk.content? place).isSome = true) :
    disk.isDirectoryAt place = false := by
  rcases get?_eq_of_content content with ⟨bytes, hfound⟩
  unfold isDirectoryAt
  rw [hfound]

theorem isSome_of_directory
    (directory : disk.isDirectoryAt place = true) :
    (disk.get? place).isSome = true := by
  unfold isDirectoryAt at directory
  split at directory
  · next hfound =>
    rw [hfound]
    rfl
  · cases directory

theorem directory_of_walk
    {links : Nat}
    {part : String}
    {rest : List String}
    (leads : disk.walk links place (part :: rest) = .ok goal) :
    disk.isDirectoryAt place = true := by
  by_cases hplace : disk.isDirectoryAt place = true
  · exact hplace
  · rw [walk_of_not_directory (by simpa using hplace)] at leads
    cases leads

/-- Idle components before others do not matter. -/
theorem walk_idle_append
    {links : Nat}
    {idle more : List String}
    (all : ∀ part ∈ idle, Path.IsIdle part)
    (leads : disk.walk links place (idle ++ more) = .ok goal) :
    disk.walk links place more = .ok goal := by
  induction idle with
  | nil =>
      exact leads
  | cons part rest ih =>
      have hplace := directory_of_walk leads
      rw [List.cons_append, walk_idle hplace (all part List.mem_cons_self)] at leads
      exact ih (fun other hother => all other (List.mem_cons_of_mem part hother)) leads

variable (tree : disk.IsTree) (noFileLinks : disk.NoFileLinks)

include tree noFileLinks

/-- A path that leads to a file ends with the name of the file in its directory. -/
theorem eq_of_walk_last
    {links : Nat}
    {part : String}
    (leads : disk.walk links place [part] = .ok goal)
    (content : (disk.content? goal).isSome = true) :
    ¬ Path.IsIdle part ∧ goal = place ++ [part] := by
  have hplace := directory_of_walk leads
  by_cases hidle : Path.IsIdle part
  · rw [walk_idle hplace hidle, walk_nil] at leads
    cases leads
    rw [not_directory_of_content content] at hplace
    cases hplace
  refine ⟨hidle, ?_⟩
  by_cases hdots : part = ".."
  · subst hdots
    rw [walk_up hplace, walk_nil] at leads
    cases leads
    have hparent := tree place (isSome_of_directory hplace)
    rw [not_directory_of_content content] at hparent
    cases hparent
  by_cases hlong : nameLimit < part.utf8ByteSize
  · rw [walk_long hplace hidle hdots hlong] at leads
    cases leads
  have hname : IsName part :=
    ⟨fun h => hidle (Or.inl h), fun h => hidle (Or.inr h), hdots, Nat.not_lt.1 hlong⟩
  cases hfound : disk.get? (place ++ [part]) with
  | none =>
      rw [walk_missing_last hplace hname hfound] at leads
      cases leads
      rfl
  | some entry =>
      cases entry with
      | directory =>
          rw [walk_enter hplace hname hfound (by simp), walk_nil] at leads
          cases leads
          rfl
      | file bytes =>
          rw [walk_enter hplace hname hfound (by simp), walk_nil] at leads
          cases leads
          rfl
      | link target =>
          cases links with
          | zero =>
              rw [walk_link_zero hplace hname hfound] at leads
              cases leads
          | succ more =>
              rw [walk_link hplace hname hfound, List.append_nil] at leads
              have hnone : disk.content? goal = none := by
                refine noFileLinks (place ++ [part]) target goal hfound ?_
                rw [List.dropLast_concat]
                exact ⟨by simp, more, leads⟩
              rw [hnone] at content
              cases content

/-- The directory of the path of a file leads to the directory of the file. -/
theorem exists_passes_directory
    {file : String}
    (located : disk.locate file = .ok place)
    (content : (disk.content? place).isSome = true) :
    ∃ left,
      disk.Passes linkLimit (baseOf disk.home file)
        ((Path.heading (Path.directory file).toList).map String.ofList) left place.dropLast ∧
        Path.isRooted (Path.directory file) = Path.isRooted file := by
  have hreach := reach_of_locate located
  rcases plain_of_reach hreach with ⟨_, _, _, hwalk⟩
  rcases List.eq_nil_or_concat (Path.components file) with hnil | ⟨parts, last, hsplit⟩
  · exact absurd hnil (Path.components_ne_nil file)
  rw [List.concat_eq_append] at hsplit
  rw [hsplit] at hwalk
  -- The last component is the name of the file, so the directory drops it.
  rcases exists_passes disk linkLimit _ parts [last] (by simp) hwalk with
    ⟨left, middle, hpasses⟩
  rw [hpasses.walk_append] at hwalk
  have hbusy := (eq_of_walk_last tree noFileLinks hwalk content).1
  rcases Path.exists_components_eq_heading hsplit hbusy with ⟨idle, hidle, rfl, hrooted⟩
  -- What the directory keeps leads to where the name is looked up.
  rw [← hpasses.walk_append, List.append_assoc] at hwalk
  rcases exists_passes disk linkLimit _ _ (idle ++ [last]) (by simp) hwalk with
    ⟨left, middle, hheading⟩
  rw [hheading.walk_append] at hwalk
  have hlast := eq_of_walk_last tree noFileLinks (walk_idle_append hidle hwalk) content
  refine ⟨left, ?_, hrooted⟩
  rw [hlast.2, List.dropLast_concat]
  exact hheading

/-- A path that is read beside a file leads to the same as in the directory of the file. -/
theorem leads_beside_iff
    {file : String}
    (located : disk.locate file = .ok place)
    (content : (disk.content? place).isSome = true)
    (nonempty : path ≠ "")
    (outcome : Except DiskFault Place) :
    disk.Leads disk.home (Path.beside (Path.directory file) path) outcome ↔
      disk.Leads place.dropLast path outcome := by
  by_cases hrooted : Path.isRooted path = true
  · have hbeside : Path.beside (Path.directory file) path = path := by
      unfold Path.beside
      rw [if_pos (by simp [hrooted])]
    have hbase : ∀ directory, baseOf directory path = [] := by
      intro directory
      unfold baseOf
      rw [if_pos hrooted]
    rw [hbeside]
    by_cases hnul : Char.ofNat 0 ∈ path.toList
    · rw [leads_nul_iff hnul, leads_nul_iff hnul]
    · rw [leads_plain_iff hnul nonempty, leads_plain_iff hnul nonempty, hbase, hbase]
  have hrelative : Path.isRooted path = false := by simpa using hrooted
  have hnonempty := Path.beside_ne_empty (Path.directory file) nonempty
  by_cases hnul : Char.ofNat 0 ∈ path.toList
  · rw [leads_nul_iff hnul, leads_nul_iff (Path.mem_beside_of_mem _ hnul)]
  have hnoNul : Char.ofNat 0 ∉ (Path.beside (Path.directory file) path).toList := by
    intro hmember
    rcases plain_of_reach (reach_of_locate located) with ⟨hfile, _, _, _⟩
    rcases Path.mem_beside hmember with hdirectory | hslash | hpath
    · exact hfile (Path.mem_directory hdirectory)
    · cases hslash
    · exact hnul hpath
  rcases exists_passes_directory tree noFileLinks located content with ⟨left, hpasses, hstart⟩
  have hbase :
      baseOf disk.home (Path.beside (Path.directory file) path) = baseOf disk.home file := by
    unfold baseOf
    rw [Path.isRooted_beside _ hrelative, hstart]
  have hinner : baseOf place.dropLast path = place.dropLast := by
    unfold baseOf
    rw [hrelative]
    rfl
  rw [leads_plain_iff hnoNul hnonempty, leads_plain_iff hnul nonempty, hbase, hinner,
    Path.components_beside _ hrelative]
  exact hpasses.follows_append (Path.components path) outcome

end Beside

end Disk
end InterfaceSchema
