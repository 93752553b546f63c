import InterfaceSchema.Path.Components

/-!
# Cleaning a path

Two imports of one file may be written differently. `Path.clean` brings a path to its shortest form
without looking at any disk: empty components and `.` are dropped, and `..` cancels the component
before it. At the root `..` has no effect; at the start of another path it stays.
-/

namespace InterfaceSchema
namespace Path

/-- Adds a component to a clean list of components, kept with the last one first. -/
def pushComponent (rooted : Bool) (stack : List String) (part : String) : List String :=
  if part = "" ∨ part = "." then stack
  else if part = ".." then
    match stack with
    | [] => if rooted then [] else [part]
    | top :: below =>
      if top = ".." then (if rooted then stack else part :: stack) else below
  else part :: stack

/-- The components of a path in its shortest form. -/
def cleanComponents (rooted : Bool) (parts : List String) : List String :=
  (parts.foldl (pushComponent rooted) []).reverse

/-- The shortest form of a path. A path that leads nowhere is written as a dot. -/
def clean (path : String) : String :=
  let parts := cleanComponents (isRooted path) (components path)
  if isRooted path then "/" ++ ofComponents parts
  else if parts = [] then "."
  else ofComponents parts

end Path
end InterfaceSchema
