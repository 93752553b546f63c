import InterfaceSchema.Disk.Basic

/-!
# Changing a disk

Disks are values: every operation here returns the disk as it is afterwards. Where a path cannot be
used, nothing is written, linked or removed.
-/

namespace InterfaceSchema
namespace Disk

/-- Puts an entry at a place, instead of one that is there. -/
def put (disk : Disk) (place : Place) (entry : Entry) : Disk :=
  { disk with entries := (place, entry) :: disk.entries.filter fun found => found.1 ≠ place }

@[simp]
theorem get?_put_self
    {disk : Disk}
    {place : Place}
    (entry : Entry)
    (below : place ≠ []) :
    (disk.put place entry).get? place = some entry := by
  simp [put, get?, below]

theorem get?_put_of_ne
    {disk : Disk}
    {place other : Place}
    (entry : Entry)
    (different : other ≠ place) :
    (disk.put place entry).get? other = disk.get? other := by
  unfold put get?
  split
  · rfl
  · rw [List.lookup_cons]
    simp only [beq_eq_false_iff_ne.2 different]
    induction disk.entries with
    | nil => rfl
    | cons found rest ih =>
      obtain ⟨key, value⟩ := found
      by_cases same : key = place
      · rw [List.filter_cons_of_neg (by simpa using same), ih, List.lookup_cons, same,
          beq_eq_false_iff_ne.2 different]
      · rw [List.filter_cons_of_pos (by simpa using same), List.lookup_cons, List.lookup_cons, ih]

/-- Makes the directories on the way from `place` down the given names, following the links among
them. Nothing is made below a file or below a link that leads nowhere. -/
def makeDirectoriesAt (disk : Disk) (place : Place) : List String → Disk
  | [] => disk
  | part :: rest =>
    match disk.walk linkLimit place [part] with
    | .error _ => disk
    | .ok next =>
      if disk.isDirectoryAt next then disk.makeDirectoriesAt next rest
      else if next = place ++ [part] ∧ (disk.get? next).isNone then
        (disk.put next .directory).makeDirectoriesAt next rest
      else disk

/-- Makes a directory and those that lead to it. -/
def makeDirectories (disk : Disk) (path : String) : Disk :=
  disk.makeDirectoriesAt (disk.startOf path) (Path.components path)

/-- Makes the directories that lead to what a path names. -/
def makeParents (disk : Disk) (path : String) : Disk :=
  disk.makeDirectoriesAt (disk.startOf path) (Path.components path).dropLast

/-- Writes a file, and makes the directories that lead to it. -/
def write (disk : Disk) (path : String) (content : ByteArray) : Disk :=
  let ready := disk.makeParents path
  match ready.reach path with
  | .error _ => ready
  | .ok place => if ready.isDirectoryAt place then ready else ready.put place (.file content)

/-- The place that a path names when a link at its end is not followed. -/
def placeOf (disk : Disk) (path : String) : Except DiskFault Place :=
  let parts := Path.components path
  match disk.walk linkLimit (disk.startOf path) parts.dropLast with
  | .error fault => .error fault
  | .ok place => .ok (place ++ parts.getLast?.toList)

/-- Makes a symbolic link. -/
def link (disk : Disk) (path target : String) : Disk :=
  match disk.placeOf path with
  | .error _ => disk
  | .ok place => disk.put place (.link target)

/-- Removes a file or a link. -/
def remove (disk : Disk) (path : String) : Disk :=
  match disk.placeOf path with
  | .error _ => disk
  | .ok place =>
    if disk.isDirectoryAt place then disk
    else { disk with entries := disk.entries.filter fun found => found.1 ≠ place }

/-- A disk that holds nothing but its home directory. -/
def blank (home : Place) : Disk :=
  makeDirectoriesAt ⟨home, []⟩ [] home

end Disk
end InterfaceSchema
