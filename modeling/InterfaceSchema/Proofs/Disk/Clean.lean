import InterfaceSchema.Proofs.Disk.Target
import InterfaceSchema.Proofs.Path.Clean

/-!
# Where clean paths lead

Without symbolic links, a clean path leads to what the path leads to.

* `Disk.step?`, `Disk.goal?`: a path followed in a plain tree, one component after another.
* `Disk.foldlM_step?_of_shortens`, `Disk.walk_of_shortens`: leaving out components that make no
  difference does not change where the others lead, in a plain tree and on a disk.
* `Disk.goal_of_clean`: whole paths.
-/

namespace InterfaceSchema
namespace Disk

/-! ## Plain trees -/

/-- Where one component leads in a tree. A name must be that of an entry, and only directories have
entries. -/
def step? (disk : Disk) (place : Place) (part : String) : Option Place :=
  if part = "" ∨ part = "." then some place
  else if part = ".." then some place.dropLast
  else if disk.isDirectoryAt place = true ∧ (disk.get? (place ++ [part])).isSome = true then
    some (place ++ [part])
  else none

/-- Where a path leads that is read in a directory, if each of its components leads somewhere. The
empty path leads nowhere. -/
def goal? (disk : Disk) (directory : Place) (path : String) : Option Place :=
  if path = "" then none
  else (Path.components path).foldlM disk.step? (baseOf directory path)

/-- There are no symbolic links. -/
def NoLinks (disk : Disk) : Prop :=
  ∀ place target, disk.get? place ≠ some (.link target)

section Steps

variable {disk : Disk} {place next goal : Place} {part : String}

theorem step?_idle (disk : Disk) (place : Place) (idle : Path.IsIdle part) :
    disk.step? place part = some place :=
  if_pos idle

theorem step?_up (disk : Disk) (place : Place) : disk.step? place ".." = some place.dropLast := by
  unfold step?
  rw [if_neg (by decide), if_pos rfl]

/-- A name leads to an entry of the place, from which `..` leads back. -/
theorem eq_of_step?_proper
    (proper : Path.IsProper part)
    (leads : disk.step? place part = some next) :
    next = place ++ [part] := by
  have hbusy : ¬ (part = "" ∨ part = ".") := proper.1
  unfold step? at leads
  rw [if_neg hbusy, if_neg proper.2] at leads
  split at leads
  · exact (Option.some.inj leads).symm
  · cases leads

/-- In a tree the components that are left lead to the same place. -/
theorem foldlM_step?_of_shortens
    {rooted : Bool}
    {parts others : List String}
    (shortens : Path.Shortens rooted parts others)
    (base : rooted = true → place = [])
    (leads : parts.foldlM disk.step? place = some goal) :
    others.foldlM disk.step? place = some goal := by
  cases shortens with
  | idle before after idle =>
      rw [List.foldlM_append] at leads ⊢
      simpa only [List.foldlM_cons, step?_idle disk _ idle, Option.bind_eq_bind,
        Option.bind_some] using leads
  | @cancel part before after proper =>
      rw [List.foldlM_append] at leads ⊢
      rcases Option.bind_eq_some_iff.1 leads with ⟨middle, hmiddle, hafter⟩
      rw [hmiddle]
      rcases Option.bind_eq_some_iff.1 hafter with ⟨inner, hinner, hback⟩
      rw [eq_of_step?_proper proper hinner] at hback
      simpa only [List.foldlM_cons, step?_up, List.dropLast_concat, Option.bind_eq_bind,
        Option.bind_some] using hback
  | top after atRoot =>
      rw [base atRoot] at leads ⊢
      exact leads

end Steps

/-! ## Disks -/

section Walks

variable {disk : Disk} {links : Nat} {place goal : Place}

/-- A name from which a path goes on is that of an entry, and the path goes on from there. -/
theorem walk_of_walk_proper
    (noLinks : disk.NoLinks)
    {part : String}
    {rest : List String}
    (proper : Path.IsProper part)
    (more : rest ≠ [])
    (leads : disk.walk links place (part :: rest) = .ok goal) :
    disk.walk links (place ++ [part]) rest = .ok goal := by
  have hplace := directory_of_walk leads
  by_cases hlong : nameLimit < part.utf8ByteSize
  · rw [walk_long hplace proper.1 proper.2 hlong] at leads
    cases leads
  have hname : IsName part :=
    ⟨fun h => proper.1 (Or.inl h), fun h => proper.1 (Or.inr h), proper.2, Nat.not_lt.1 hlong⟩
  cases hfound : disk.get? (place ++ [part]) with
  | none =>
      rw [walk_missing hplace hname hfound more] at leads
      cases leads
  | some entry =>
      have hnoLink : ∀ target, entry ≠ .link target := by
        rintro target rfl
        exact noLinks _ target hfound
      rw [walk_enter hplace hname hfound hnoLink] at leads
      exact leads

/-- On a disk without links the components that are left lead to the same place. -/
theorem walk_of_shortens
    (noLinks : disk.NoLinks)
    {rooted : Bool}
    {parts others : List String}
    (shortens : Path.Shortens rooted parts others)
    (base : rooted = true → place = [])
    (leads : disk.walk links place parts = .ok goal) :
    disk.walk links place others = .ok goal := by
  cases shortens with
  | idle before after idle =>
      rcases exists_passes disk links place before _ (List.cons_ne_nil _ _) leads with
        ⟨left, middle, hpasses⟩
      rw [hpasses.walk_append] at leads ⊢
      rw [walk_idle (directory_of_walk leads) idle] at leads
      exact leads
  | @cancel part before after proper =>
      rcases exists_passes disk links place before _ (List.cons_ne_nil _ _) leads with
        ⟨left, middle, hpasses⟩
      rw [hpasses.walk_append] at leads ⊢
      have hinner := walk_of_walk_proper noLinks proper (List.cons_ne_nil _ _) leads
      rw [walk_up (directory_of_walk hinner), List.dropLast_concat] at hinner
      exact hinner
  | top after atRoot =>
      rw [walk_up (directory_of_walk leads), base atRoot] at leads
      rw [base atRoot]
      exact leads

end Walks

/-! ## Clean paths -/

section Clean

variable {disk : Disk} {directory goal : Place} {path : String}

theorem baseOf_rooted (rooted : Path.isRooted path = true) : baseOf directory path = [] :=
  if_pos rooted

theorem baseOf_clean (directory : Place) (path : String) :
    baseOf directory (Path.clean path) = baseOf directory path := by
  unfold baseOf
  rw [Path.isRooted_clean]

theorem goal?_clean (leads : disk.goal? directory path = some goal) :
    disk.goal? directory (Path.clean path) = some goal := by
  have hpath : path ≠ "" := by
    rintro rfl
    cases leads
  unfold goal? at leads ⊢
  rw [if_neg hpath] at leads
  rw [if_neg (Path.clean_ne_empty path), baseOf_clean]
  refine
    Path.components_clean_of_steps
      (fun parts => parts.foldlM disk.step? (baseOf directory path) = some goal) ?_ ?_ leads
  · intro longer shorter hshortens
    exact foldlM_step?_of_shortens hshortens baseOf_rooted
  · intro part parts hidle hleads
    simpa only [List.foldlM_cons, step?_idle disk _ hidle, Option.bind_eq_bind,
      Option.bind_some] using hleads

theorem leads_clean
    (noLinks : disk.NoLinks)
    (leads : disk.Leads directory path (.ok goal)) :
    disk.Leads directory (Path.clean path) (.ok goal) := by
  cases leads with
  | follows noNul nonempty follows =>
      rcases follows with ⟨hfinal, links, hwalk⟩
      have hbase : disk.isDirectoryAt (baseOf directory path) = true := by
        rcases List.exists_cons_of_ne_nil (Path.components_ne_nil path) with ⟨part, rest, hparts⟩
        rw [hparts] at hwalk
        exact directory_of_walk hwalk
      refine .follows ?_ (Path.clean_ne_empty path) ⟨hfinal, links, ?_⟩
      · intro hnul
        rcases Path.mem_clean hnul with hmember | hslash | hdot
        · exact noNul hmember
        · cases hslash
        · cases hdot
      · rw [baseOf_clean]
        refine
          Path.components_clean_of_steps
            (fun parts => disk.walk links (baseOf directory path) parts = .ok goal) ?_ ?_ hwalk
        · intro longer shorter hshortens
          exact walk_of_shortens noLinks hshortens baseOf_rooted
        · intro part parts hidle hleads
          rw [walk_idle hbase hidle]
          exact hleads

end Clean

/-- A clean path leads to what the path leads to: in a plain tree, and on a disk without symbolic
links as far as no limit is exceeded. -/
theorem goal_of_clean (disk : Disk) (directory : Place) (path : String) (goal : Place) :
    (disk.goal? directory path = some goal →
        disk.goal? directory (Path.clean path) = some goal) ∧
      (disk.NoLinks →
        disk.Leads directory path (.ok goal) →
          disk.Leads directory (Path.clean path) (.ok goal)) :=
  ⟨goal?_clean, leads_clean⟩

/-- A directory with a directory and a file in it. -/
def plainDisk : Disk where
  home := []
  entries := [(["d"], .directory), (["d", "e"], .directory), (["d", "f"], .file ⟨#[]⟩)]

theorem goal_of_clean_plainDisk :
    (plainDisk.goal? ["d"] "./e/..//../d/f" = some ["d", "f"] ∧
        plainDisk.goal? ["d"] "../d/f" = some ["d", "f"]) ∧
      plainDisk.NoLinks ∧
        plainDisk.Leads ["d"] "./e/..//../d/f" (.ok ["d", "f"]) ∧
          plainDisk.Leads ["d"] "../d/f" (.ok ["d", "f"]) := by
  have hclean : Path.clean "./e/..//../d/f" = "../d/f" := by decide +kernel
  have hgoal : plainDisk.goal? ["d"] "./e/..//../d/f" = some ["d", "f"] := by decide +kernel
  have hnoLinks : plainDisk.NoLinks := by
    intro place target hlink
    have hplace : place ∈ plainDisk.places := mem_places_of_get? (by rw [hlink]; rfl)
    simp only [places, plainDisk, List.map_cons, List.map_nil, List.mem_cons, List.not_mem_nil,
      or_false] at hplace
    rcases hplace with rfl | rfl | rfl | rfl <;> cases hlink
  have hleads : plainDisk.Leads ["d"] "./e/..//../d/f" (.ok ["d", "f"]) := by
    have hparts :
        Path.components "./e/..//../d/f" = [".", "e", "..", "", "..", "d", "f"] := by
      decide +kernel
    have hd : plainDisk.get? ["d"] = some .directory := rfl
    have he : plainDisk.get? ["d", "e"] = some .directory := rfl
    have hf : plainDisk.get? ["d", "f"] = some (.file ⟨#[]⟩) := rfl
    refine .follows (by decide +kernel) (by decide) ⟨by simp, 0, ?_⟩
    rw [hparts]
    refine (walk_idle rfl (Or.inr rfl)).trans ?_
    refine (walk_enter rfl (by decide) he (by simp)).trans ?_
    refine (walk_up rfl).trans ?_
    refine (walk_idle rfl (Or.inl rfl)).trans ?_
    refine (walk_up rfl).trans ?_
    refine (walk_enter rfl (by decide) hd (by simp)).trans ?_
    refine (walk_enter rfl (by decide) hf (by simp)).trans ?_
    exact walk_nil plainDisk 0 ["d", "f"]
  have hboth := goal_of_clean plainDisk ["d"] "./e/..//../d/f" ["d", "f"]
  rw [hclean] at hboth
  exact ⟨⟨hgoal, hboth.1 hgoal⟩, hnoLinks, hleads, hboth.2 hnoLinks hleads⟩

/-- The converse fails: a path may go through what is not there. -/
example :
    plainDisk.goal? ["d"] "x/../f" = none ∧
      plainDisk.goal? ["d"] (Path.clean "x/../f") = some ["d", "f"] := by
  decide +kernel

end Disk
end InterfaceSchema
