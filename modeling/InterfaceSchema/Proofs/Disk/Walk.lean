import InterfaceSchema.Disk.Basic
import InterfaceSchema.Proofs.Path.Directory

/-!
# Following paths on a disk

* One equation of `Disk.walk` for each kind of component.
* `Disk.walk_of_le`: a path that can be followed with some number of links is followed in the same
  way with more.
* `Disk.Passes`: a stretch of a path leads from one existing place to another, and uses up links.
  `Disk.Passes.walk_append` follows the rest of the path from there, and `Disk.exists_passes` finds
  the stretch in any path that leads somewhere.
-/

namespace InterfaceSchema
namespace Disk

/-- A component that names an entry of the directory it is looked up in. -/
structure IsName (part : String) : Prop where
  nonempty : part ≠ ""
  noDot : part ≠ "."
  noDots : part ≠ ".."
  short : part.utf8ByteSize ≤ nameLimit

instance (part : String) : Decidable (IsName part) :=
  decidable_of_iff
    (part ≠ "" ∧ part ≠ "." ∧ part ≠ ".." ∧ part.utf8ByteSize ≤ nameLimit)
    ⟨fun ⟨nonempty, noDot, noDots, short⟩ => ⟨nonempty, noDot, noDots, short⟩,
      fun ⟨nonempty, noDot, noDots, short⟩ => ⟨nonempty, noDot, noDots, short⟩⟩

/-- The place at which a path starts that is read in a directory. -/
def baseOf (directory : Place) (path : String) : Place :=
  if Path.isRooted path then [] else directory

section Equations

variable {disk : Disk} {links : Nat} {place : Place} {part : String} {rest : List String}

@[simp]
theorem walk_nil (disk : Disk) (links : Nat) (place : Place) :
    disk.walk links place [] = .ok place := by
  rw [walk]

theorem walk_of_not_directory (noDirectory : disk.isDirectoryAt place = false) :
    disk.walk links place (part :: rest) = .error .notDirectory := by
  rw [walk, if_pos noDirectory]

section Inside

variable (directory : disk.isDirectoryAt place = true)

include directory

theorem walk_idle (idle : Path.IsIdle part) :
    disk.walk links place (part :: rest) = disk.walk links place rest := by
  have hidle : part = "" ∨ part = "." := idle
  rw [walk, if_neg (by simp [directory]), if_pos hidle]

theorem walk_up :
    disk.walk links place (".." :: rest) = disk.walk links place.dropLast rest := by
  rw [walk, if_neg (by simp [directory]), if_neg (by decide), if_pos rfl]

theorem walk_long
    (busy : ¬ Path.IsIdle part)
    (noDots : part ≠ "..")
    (long : nameLimit < part.utf8ByteSize) :
    disk.walk links place (part :: rest) = .error .nameTooLong := by
  have hbusy : ¬ (part = "" ∨ part = ".") := busy
  rw [walk, if_neg (by simp [directory]), if_neg hbusy, if_neg noDots, if_pos long]

variable (name : IsName part)

include name

theorem walk_name :
    disk.walk links place (part :: rest) =
      match disk.get? (place ++ [part]) with
      | none => if rest = [] then .ok (place ++ [part]) else .error .notFound
      | some (.link target) =>
        match links with
        | 0 => .error .tooManyLinks
        | more + 1 =>
          disk.walk more (baseOf place target) (Path.components target ++ rest)
      | some _ => disk.walk links (place ++ [part]) rest := by
  have hbusy : ¬ (part = "" ∨ part = ".") := by
    rintro (hempty | hdot)
    · exact name.nonempty hempty
    · exact name.noDot hdot
  rw [walk, if_neg (by simp [directory]), if_neg hbusy, if_neg name.noDots,
    if_neg (Nat.not_lt.2 name.short)]
  rfl

theorem walk_missing_last (missing : disk.get? (place ++ [part]) = none) :
    disk.walk links place [part] = .ok (place ++ [part]) := by
  rw [walk_name directory name, missing]
  rfl

theorem walk_missing (missing : disk.get? (place ++ [part]) = none) (more : rest ≠ []) :
    disk.walk links place (part :: rest) = .error .notFound := by
  rw [walk_name directory name, missing]
  exact if_neg more

theorem walk_link_zero
    {target : String}
    (link : disk.get? (place ++ [part]) = some (.link target)) :
    disk.walk 0 place (part :: rest) = .error .tooManyLinks := by
  rw [walk_name directory name, link]

theorem walk_link
    {target : String}
    (link : disk.get? (place ++ [part]) = some (.link target)) :
    disk.walk (links + 1) place (part :: rest) =
      disk.walk links (baseOf place target) (Path.components target ++ rest) := by
  rw [walk_name directory name, link]

theorem walk_enter
    {entry : Entry}
    (found : disk.get? (place ++ [part]) = some entry)
    (noLink : ∀ target, entry ≠ .link target) :
    disk.walk links place (part :: rest) = disk.walk links (place ++ [part]) rest := by
  rw [walk_name directory name, found]
  cases entry with
  | directory =>
      rfl
  | file content =>
      rfl
  | link target =>
      exact absurd rfl (noLink target)

end Inside

end Equations

/-- Proves something of every path to follow, by the kind of the first component. -/
theorem walk_induction
    (disk : Disk)
    {motive : Nat → Place → List String → Prop}
    (nil : ∀ links place, motive links place [])
    (noDirectory :
      ∀ links place part rest,
        disk.isDirectoryAt place = false → motive links place (part :: rest))
    (idle :
      ∀ links place part rest,
        disk.isDirectoryAt place = true → Path.IsIdle part → motive links place rest →
          motive links place (part :: rest))
    (up :
      ∀ links place rest,
        disk.isDirectoryAt place = true → motive links place.dropLast rest →
          motive links place (".." :: rest))
    (long :
      ∀ links place part rest,
        disk.isDirectoryAt place = true → ¬ Path.IsIdle part → part ≠ ".." →
          nameLimit < part.utf8ByteSize → motive links place (part :: rest))
    (missing :
      ∀ links place part rest,
        disk.isDirectoryAt place = true → IsName part →
          disk.get? (place ++ [part]) = none → motive links place (part :: rest))
    (linkZero :
      ∀ place part rest target,
        disk.isDirectoryAt place = true → IsName part →
          disk.get? (place ++ [part]) = some (.link target) → motive 0 place (part :: rest))
    (link :
      ∀ links place part rest target,
        disk.isDirectoryAt place = true → IsName part →
          disk.get? (place ++ [part]) = some (.link target) →
            motive links (baseOf place target) (Path.components target ++ rest) →
              motive (links + 1) place (part :: rest))
    (enter :
      ∀ links place part rest entry,
        disk.isDirectoryAt place = true → IsName part →
          disk.get? (place ++ [part]) = some entry → (∀ target, entry ≠ .link target) →
            motive links (place ++ [part]) rest → motive links place (part :: rest))
    (links : Nat)
    (place : Place)
    (parts : List String) :
    motive links place parts := by
  have hname :
      ∀ {part : String},
        ¬ (part = "" ∨ part = ".") → part ≠ ".." → ¬ nameLimit < part.utf8ByteSize →
          IsName part := by
    intro part hbusy hdots hshort
    exact ⟨fun h => hbusy (Or.inl h), fun h => hbusy (Or.inr h), hdots, Nat.not_lt.1 hshort⟩
  induction links, place, parts using walk.induct disk with
  | case1 links place =>
      exact nil links place
  | case2 links place part rest hplace =>
      exact noDirectory links place part rest hplace
  | case3 links place part rest hplace hidle ih =>
      exact idle links place part rest (by simpa using hplace) hidle ih
  | case4 links place rest hplace hbusy ih =>
      exact up links place rest (by simpa using hplace) ih
  | case5 links place part rest hplace hbusy hdots hlong =>
      exact long links place part rest (by simpa using hplace) hbusy hdots hlong
  | case6 links place part hplace hbusy hdots hshort hnone =>
      exact missing links place part [] (by simpa using hplace) (hname hbusy hdots hshort) hnone
  | case7 links place part rest hplace hbusy hdots hshort hnone hmore =>
      exact
        missing links place part rest (by simpa using hplace) (hname hbusy hdots hshort) hnone
  | case8 place part rest hplace hbusy hdots hshort target hlink =>
      exact
        linkZero place part rest target (by simpa using hplace) (hname hbusy hdots hshort) hlink
  | case9 place part rest hplace hbusy hdots hshort target hlink more ih =>
      exact
        link more place part rest target (by simpa using hplace) (hname hbusy hdots hshort) hlink
          ih
  | case10 links place part rest hplace hbusy hdots hshort entry hnoLink hfound ih =>
      exact
        enter links place part rest entry (by simpa using hplace) (hname hbusy hdots hshort)
          hfound (fun target hsame => hnoLink target hsame) ih

/-! ## More links -/

section Links

variable {disk : Disk} {place : Place} {parts : List String}

/-- One more link changes nothing for a path that has enough of them. -/
theorem walk_succ
    (disk : Disk)
    (links : Nat)
    (place : Place)
    (parts : List String)
    (enough : disk.walk links place parts ≠ .error .tooManyLinks) :
    disk.walk (links + 1) place parts = disk.walk links place parts := by
  induction links, place, parts using walk_induction disk with
  | nil links place =>
      rw [walk_nil, walk_nil]
  | noDirectory links place part rest hplace =>
      rw [walk_of_not_directory hplace, walk_of_not_directory hplace]
  | idle links place part rest hplace hidle ih =>
      rw [walk_idle hplace hidle] at enough ⊢
      rw [walk_idle hplace hidle]
      exact ih enough
  | up links place rest hplace ih =>
      rw [walk_up hplace] at enough ⊢
      rw [walk_up hplace]
      exact ih enough
  | long links place part rest hplace hbusy hdots hlong =>
      rw [walk_long hplace hbusy hdots hlong, walk_long hplace hbusy hdots hlong]
  | missing links place part rest hplace hname hnone =>
      rw [walk_name hplace hname, walk_name hplace hname, hnone]
  | linkZero place part rest target hplace hname hlink =>
      exact absurd (walk_link_zero hplace hname hlink) enough
  | link links place part rest target hplace hname hlink ih =>
      rw [walk_link hplace hname hlink] at enough ⊢
      rw [walk_link hplace hname hlink]
      exact ih enough
  | enter links place part rest entry hplace hname hfound hnoLink ih =>
      rw [walk_enter hplace hname hfound hnoLink] at enough ⊢
      rw [walk_enter hplace hname hfound hnoLink]
      exact ih enough

/-- A path that has enough links is followed in the same way with more. -/
theorem walk_of_le
    {links more : Nat}
    (le : links ≤ more)
    (enough : disk.walk links place parts ≠ .error .tooManyLinks) :
    disk.walk more place parts = disk.walk links place parts := by
  induction le with
  | refl =>
      rfl
  | step hle ih =>
      rw [← ih] at enough
      rw [walk_succ disk _ place parts enough, ih]

/-- Where a path leads from a place if as many links are followed as there are. -/
def Follows
    (disk : Disk)
    (place : Place)
    (parts : List String)
    (outcome : Except DiskFault Place) : Prop :=
  outcome ≠ .error .tooManyLinks ∧ ∃ links, disk.walk links place parts = outcome

/-- With a limited number of links a path leads to the same, or there are too many links. -/
theorem Follows.walk_eq
    {outcome : Except DiskFault Place}
    (follows : disk.Follows place parts outcome)
    {limit : Nat}
    (enough : disk.walk limit place parts ≠ .error .tooManyLinks) :
    disk.walk limit place parts = outcome := by
  rcases follows with ⟨houtcome, links, rfl⟩
  by_cases hle : links ≤ limit
  · exact walk_of_le hle houtcome
  · exact (walk_of_le (Nat.le_of_not_le hle) enough).symm

theorem Follows.unique
    {outcome other : Except DiskFault Place}
    (follows : disk.Follows place parts outcome)
    (also : disk.Follows place parts other) :
    outcome = other := by
  rcases also with ⟨hother, links, rfl⟩
  exact (follows.walk_eq hother).symm

end Links

/-! ## The beginning of a path -/

/-- The components `parts` lead from one place to another, both of them there, and of `links` links
`left` remain. -/
inductive Passes (disk : Disk) : Nat → Place → List String → Nat → Place → Prop
  | nil (links : Nat) (place : Place) :
      Passes disk links place [] links place
  | idle
      {links left : Nat}
      {place goal : Place}
      {part : String}
      {rest : List String}
      (directory : disk.isDirectoryAt place = true)
      (idle : Path.IsIdle part)
      (passes : Passes disk links place rest left goal) :
      Passes disk links place (part :: rest) left goal
  | up
      {links left : Nat}
      {place goal : Place}
      {rest : List String}
      (directory : disk.isDirectoryAt place = true)
      (passes : Passes disk links place.dropLast rest left goal) :
      Passes disk links place (".." :: rest) left goal
  | link
      {links left : Nat}
      {place goal : Place}
      {part target : String}
      {rest : List String}
      (directory : disk.isDirectoryAt place = true)
      (name : IsName part)
      (link : disk.get? (place ++ [part]) = some (.link target))
      (passes :
        Passes disk links (baseOf place target) (Path.components target ++ rest) left goal) :
      Passes disk (links + 1) place (part :: rest) left goal
  | enter
      {links left : Nat}
      {place goal : Place}
      {part : String}
      {rest : List String}
      {entry : Entry}
      (directory : disk.isDirectoryAt place = true)
      (name : IsName part)
      (found : disk.get? (place ++ [part]) = some entry)
      (noLink : ∀ target, entry ≠ .link target)
      (passes : Passes disk links (place ++ [part]) rest left goal) :
      Passes disk links place (part :: rest) left goal

section Beginning

variable {disk : Disk} {links left : Nat} {place goal : Place} {parts : List String}

/-- After its beginning a path is followed from where the beginning leads. -/
theorem Passes.walk_append
    (passes : disk.Passes links place parts left goal)
    (more : List String) :
    disk.walk links place (parts ++ more) = disk.walk left goal more := by
  induction passes with
  | nil links place =>
      rfl
  | idle hplace hidle _ ih =>
      rw [List.cons_append, walk_idle hplace hidle, ih]
  | up hplace _ ih =>
      rw [List.cons_append, walk_up hplace, ih]
  | link hplace hname hlink _ ih =>
      rw [List.cons_append, walk_link hplace hname hlink, ← List.append_assoc, ih]
  | enter hplace hname hfound hnoLink _ ih =>
      rw [List.cons_append, walk_enter hplace hname hfound hnoLink, ih]

/-- With more links at the start, more of them remain. -/
theorem Passes.more
    (passes : disk.Passes links place parts left goal)
    (extra : Nat) :
    disk.Passes (links + extra) place parts (left + extra) goal := by
  induction passes with
  | nil links place =>
      exact .nil (links + extra) place
  | idle hplace hidle _ ih =>
      exact .idle hplace hidle ih
  | up hplace _ ih =>
      exact .up hplace ih
  | link hplace hname hlink _ ih =>
      rw [Nat.add_right_comm]
      exact .link hplace hname hlink ih
  | enter hplace hname hfound hnoLink _ ih =>
      exact .enter hplace hname hfound hnoLink ih

/-- A path that has a beginning leads to the same place as the rest of it does from there. -/
theorem Passes.follows_append
    (passes : disk.Passes links place parts left goal)
    (more : List String)
    (outcome : Except DiskFault Place) :
    disk.Follows place (parts ++ more) outcome ↔ disk.Follows goal more outcome := by
  constructor
  · rintro ⟨hfinal, enough, rfl⟩
    refine ⟨hfinal, left + enough, ?_⟩
    rw [← (passes.more enough).walk_append more]
    exact walk_of_le (Nat.le_add_left enough links) hfinal
  · rintro ⟨hfinal, enough, rfl⟩
    refine ⟨hfinal, links + enough, ?_⟩
    rw [(passes.more enough).walk_append more]
    exact walk_of_le (Nat.le_add_left enough left) hfinal

/-- A proper beginning of a path that can be followed leads somewhere. -/
theorem exists_passes
    (disk : Disk)
    (links : Nat)
    (place : Place)
    (parts : List String)
    (more : List String)
    (nonempty : more ≠ [])
    (leads : disk.walk links place (parts ++ more) = .ok goal) :
    ∃ left middle, disk.Passes links place parts left middle := by
  induction links, place, parts using walk_induction disk with
  | nil links place =>
      exact ⟨links, place, .nil links place⟩
  | noDirectory links place part rest hplace =>
      rw [List.cons_append, walk_of_not_directory hplace] at leads
      cases leads
  | idle links place part rest hplace hidle ih =>
      rw [List.cons_append, walk_idle hplace hidle] at leads
      rcases ih leads with ⟨left, middle, hpasses⟩
      exact ⟨left, middle, .idle hplace hidle hpasses⟩
  | up links place rest hplace ih =>
      rw [List.cons_append, walk_up hplace] at leads
      rcases ih leads with ⟨left, middle, hpasses⟩
      exact ⟨left, middle, .up hplace hpasses⟩
  | long links place part rest hplace hbusy hdots hlong =>
      rw [List.cons_append, walk_long hplace hbusy hdots hlong] at leads
      cases leads
  | missing links place part rest hplace hname hnone =>
      rw [List.cons_append, walk_missing hplace hname hnone (by simp [nonempty])] at leads
      cases leads
  | linkZero place part rest target hplace hname hlink =>
      rw [List.cons_append, walk_link_zero hplace hname hlink] at leads
      cases leads
  | link links place part rest target hplace hname hlink ih =>
      rw [List.cons_append, walk_link hplace hname hlink, ← List.append_assoc] at leads
      rcases ih leads with ⟨left, middle, hpasses⟩
      exact ⟨left, middle, .link hplace hname hlink hpasses⟩
  | enter links place part rest entry hplace hname hfound hnoLink ih =>
      rw [List.cons_append, walk_enter hplace hname hfound hnoLink] at leads
      rcases ih leads with ⟨left, middle, hpasses⟩
      exact ⟨left, middle, .enter hplace hname hfound hnoLink hpasses⟩

end Beginning

end Disk
end InterfaceSchema
