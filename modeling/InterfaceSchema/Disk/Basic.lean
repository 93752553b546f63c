import InterfaceSchema.Path.Components

/-!
# Disks

A disk is a tree of directories and files with symbolic links, held as a table from places to
entries. A place is the list of names that lead to it from the root; no place goes through a link.

* `Disk.walk` follows a path component by component, and links as they are met.
* `Disk.locate` finds the one place that a path denotes, or says why there is none.
* `Disk.read` gives the bytes of a file.
* `Disk.put`, `Disk.write`, `Disk.makeDirectories`, `Disk.link` and `Disk.remove` change a disk.

Paths that are not rooted are read from the home directory of the disk.
-/

namespace InterfaceSchema

/-- The names that lead from the root to an entry of a disk. -/
abbrev Place :=
  List String

/-- What may stand at a place. -/
inductive Entry
  | directory
  | file (content : ByteArray)
  | link (target : String)

/-- A table of entries, and the directory from which paths are read. The root is always there. -/
structure Disk where
  home : Place
  entries : List (Place × Entry)

/-- Why a path cannot be used. -/
inductive DiskFault
  | nulInPath
  | notFound
  | notDirectory
  | isDirectory
  | nameTooLong
  | tooManyLinks
  deriving DecidableEq

/-- The wording of a fault. -/
def DiskFault.message : DiskFault → String
  | nulInPath => "file name contained an unexpected NUL byte"
  | notFound => "No such file or directory (os error 2)"
  | notDirectory => "Not a directory (os error 20)"
  | isDirectory => "Is a directory (os error 21)"
  | nameTooLong => "File name too long (os error 36)"
  | tooManyLinks => "Too many levels of symbolic links (os error 40)"

namespace Disk

/-- The entry at a place. -/
def get? (disk : Disk) (place : Place) : Option Entry :=
  if place = [] then some .directory else disk.entries.lookup place

/-- Every place at which there may be an entry. -/
def places (disk : Disk) : List Place :=
  [] :: disk.entries.map Prod.fst

/-- Whether there is a directory at a place. -/
def isDirectoryAt (disk : Disk) (place : Place) : Bool :=
  match disk.get? place with
  | some .directory => true
  | _ => false

/-- The greatest number of links that are followed for one path. -/
def linkLimit : Nat :=
  40

/-- The greatest number of bytes in the name of an entry. -/
def nameLimit : Nat :=
  255

/-- The number of bytes from which on a path is too long. -/
def pathLimit : Nat :=
  4096

/-- Follows the components of a path from a place, through at most `links` links. Empty components
and `.` stay, `..` goes up and stays at the root; each of them, like any name, can only be looked up
in a directory. The place reached has an entry, or it is only the last component that is missing. -/
def walk (disk : Disk) (links : Nat) (place : Place) : List String → Except DiskFault Place
  | [] => .ok place
  | part :: rest =>
    if disk.isDirectoryAt place = false then .error .notDirectory
    else if part = "" ∨ part = "." then disk.walk links place rest
    else if part = ".." then disk.walk links place.dropLast rest
    else if nameLimit < part.utf8ByteSize then .error .nameTooLong
    else
      match disk.get? (place ++ [part]) with
      | none => if rest = [] then .ok (place ++ [part]) else .error .notFound
      | some (.link target) =>
        match links with
        | 0 => .error .tooManyLinks
        | more + 1 =>
          disk.walk more (if Path.isRooted target then [] else place)
            (Path.components target ++ rest)
      | some _ => disk.walk links (place ++ [part]) rest
termination_by parts => (links, parts.length)

/-- The place at which a path starts. -/
def startOf (disk : Disk) (path : String) : Place :=
  if Path.isRooted path then [] else disk.home

/-- The place that a path leads to, where only the last component may be missing. -/
def reach (disk : Disk) (path : String) : Except DiskFault Place :=
  if path.toList.contains (Char.ofNat 0) then .error .nulInPath
  else if path = "" then .error .notFound
  else if pathLimit ≤ path.utf8ByteSize then .error .nameTooLong
  else disk.walk linkLimit (disk.startOf path) (Path.components path)

/-- The place of the entry that a path denotes. All paths to one file have the same place. -/
def locate (disk : Disk) (path : String) : Except DiskFault Place :=
  match disk.reach path with
  | .error fault => .error fault
  | .ok place => if (disk.get? place).isSome then .ok place else .error .notFound

/-- Whether a path denotes something other than a directory. -/
def isFile (disk : Disk) (path : String) : Bool :=
  match disk.locate path with
  | .ok place => !disk.isDirectoryAt place
  | .error _ => false

/-- The bytes of the file that a path denotes. -/
def read (disk : Disk) (path : String) : Except DiskFault ByteArray :=
  match disk.locate path with
  | .error fault => .error fault
  | .ok place =>
    match disk.get? place with
    | some (.file content) => .ok content
    | _ => .error .isDirectory

theorem mem_places_of_get?
    {disk : Disk}
    {place : Place}
    (h : (disk.get? place).isSome) :
    place ∈ disk.places := by
  unfold get? at h
  split at h
  · simp_all [places]
  · obtain ⟨entry, found⟩ := Option.isSome_iff_exists.1 h
    have : (place, entry) ∈ disk.entries := by
      rw [List.lookup_eq_some_iff] at found
      obtain ⟨before, after, same, _⟩ := found
      simp [same]
    exact List.mem_cons_of_mem _ (List.mem_map.2 ⟨_, this, rfl⟩)

theorem mem_places_of_locate
    {disk : Disk}
    {path : String}
    {place : Place}
    (h : disk.locate path = .ok place) :
    place ∈ disk.places := by
  unfold locate at h
  split at h
  · simp at h
  · split at h
    · cases h
      exact mem_places_of_get? ‹_›
    · simp at h

end Disk

end InterfaceSchema
