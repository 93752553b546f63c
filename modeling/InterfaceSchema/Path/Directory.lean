import InterfaceSchema.Path.Components

/-!
# The directory of a path

* `Path.directory`: the path of the directory that holds what a path names.
* `Path.beside`: a path read from a directory.

Both work on the text and keep what they do not remove as it is written.
-/

namespace InterfaceSchema
namespace Path

/-- The characters at the start of a path that are never removed from its end: a leading slash, or
a leading dot that is a component of its own. -/
def anchorLength : List Char → Nat
  | '/' :: _ => 1
  | ['.'] => 1
  | '.' :: '/' :: _ => 1
  | _ => 0

/-- Removes empty components and `.` from the end of a text, which is given from its end to its
start. -/
def dropIdle (reversed : List Char) : List Char :=
  if reversed = [] then []
  else
    let last := reversed.takeWhile (· ≠ '/')
    if last = [] ∨ last = ['.'] then dropIdle (reversed.drop (last.length + 1)) else reversed
termination_by reversed.length
decreasing_by
  rename_i nonempty _
  have := List.length_pos_iff.mpr nonempty
  simp only [List.length_drop]
  omega

/-- The directory that holds what a path names: the path without its last component. A path of one
component lies in the empty path. -/
def directory (path : String) : String :=
  let anchor := anchorLength path.toList
  match dropIdle (path.toList.drop anchor).reverse with
  | [] => ""
  | reversed =>
    let last := reversed.takeWhile (· ≠ '/')
    String.ofList
      (path.toList.take anchor ++ (dropIdle (reversed.drop (last.length + 1))).reverse)

/-- The path `path` read from `directory`. -/
def beside (directory path : String) : String :=
  if isRooted path || directory = "" then path
  else if directory.toList.getLast? = some '/' then directory ++ path
  else directory ++ "/" ++ path

end Path
end InterfaceSchema
