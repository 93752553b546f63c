/-!
# Paths and their components

A path is a text in which slashes separate components.

* `Path.components` cuts a path at every slash, so that two slashes in a row enclose an empty
  component.
* `Path.ofComponents` puts the slashes back.
-/

namespace InterfaceSchema
namespace Path

/-- Whether a path starts at the root. -/
def isRooted (path : String) : Bool :=
  path.toList.head? = some '/'

/-- The components of a path. -/
def components (path : String) : List String :=
  (path.toList.splitOn '/').map String.ofList

/-- Every path has a component. -/
theorem components_ne_nil (path : String) : components path ≠ [] := by
  simp [components]

/-- The path with the given components. -/
def ofComponents (parts : List String) : String :=
  String.intercalate "/" parts

/-- Components without slashes survive being put together. -/
theorem components_ofComponents
    {parts : List String}
    (nonempty : parts ≠ [])
    (plain : ∀ part ∈ parts, '/' ∉ part.toList) :
    components (ofComponents parts) = parts := by
  have same :
      (String.intercalate "/" parts).toList = ['/'].intercalate (parts.map String.toList) := by
    simp
  unfold components ofComponents
  rw [same, List.splitOn_intercalate]
  · simp
  · simpa using plain
  · simpa using nonempty

end Path
end InterfaceSchema
