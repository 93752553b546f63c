/-!
# Qualified names

A name may be preceded by a package, which is itself a dotted name.

* `QualifiedName.split` takes a name apart at its last dot.
* `QualifiedName.join` puts a package before a name.
-/

namespace InterfaceSchema
namespace QualifiedName

/-- Whether a name has a package of its own. -/
def isQualified (name : String) : Bool :=
  name.toList.contains '.'

/-- The package and the bare name in a dotted name. The package of a name without dots is empty. -/
def split (name : String) : String × String :=
  if isQualified name then
    let bare := name.toList.reverse.takeWhile (· ≠ '.')
    let before := name.toList.reverse.drop (bare.length + 1)
    (String.ofList before.reverse, String.ofList bare.reverse)
  else
    ("", name)

/-- A name in a package. -/
def join (package name : String) : String :=
  package ++ "." ++ name

/-- A name without dots is found again behind whatever package is put before it. -/
theorem split_join
    (package : String)
    {name : String}
    (bare : '.' ∉ name.toList) :
    split (join package name) = (package, name) := by
  have kept : ∀ c ∈ name.toList.reverse, decide (c ≠ '.') = true := by
    intro c inside
    simp only [decide_eq_true_eq]
    rintro rfl
    exact bare (List.mem_reverse.1 inside)
  have reversed :
      (join package name).toList.reverse =
        name.toList.reverse ++ '.' :: package.toList.reverse := by
    simp [join]
  have dotted : isQualified (join package name) = true := by
    simp [isQualified, join]
  unfold split
  simp only [dotted, reversed, if_true, List.takeWhile_append_of_pos kept]
  simp [List.drop_append]

end QualifiedName
end InterfaceSchema
