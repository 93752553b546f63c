import InterfaceSchema.Proofs.FileSet.Explored
import InterfaceSchema.Proofs.FileSet.Registration

/-!
# The closure of imports

* `FileSet.IsClosure`: files that stand at just the places that imports lead to from some paths.
* `FileSet.isClosure_of_ofPaths`: what is loaded is the closure of the files asked for, and each
  file comes after what it imports, unless that imports it in turn.
-/

namespace InterfaceSchema

namespace FileSet

/-! ## The closure -/

/-- Files that stand at just the places that imports lead to from some paths, each once. A file
comes after what it imports, unless that leads back to it. -/
structure IsClosure
    (disk : Disk)
    (extension : String)
    (paths : List String)
    (files : List SourceFile)
    (places : List Place) : Prop where
  stands : List.Forall₂ (fun file place => file.StandsAt disk place) files places
  distinct : places.Nodup
  mem_iff :
    ∀ place,
      place ∈ places ↔
        ∃ path ∈ paths, ∃ root,
          disk.Denotes extension disk.home path root ∧ disk.Reaches extension root place
  ordered :
    ∀ place goal,
      place ∈ places → disk.Imports extension place goal →
        ¬ disk.Reaches extension goal place → [goal, place].Sublist places

/-- A load of several paths that succeeds registers the closure of the files they denote. -/
theorem isClosure_of_ofPaths
    {disk : Disk}
    {paths : List String}
    {set : FileSet}
    (tree : disk.IsTree)
    (noFileLinks : disk.NoFileLinks)
    (loads : ofPaths disk paths = .ok set) :
    ∃ places, IsClosure disk defaultExtension paths set.files places := by
  rcases explored_of_ofPaths tree noFileLinks loads with ⟨places, hexplored, hroots⟩
  refine ⟨places, hexplored.stands, ?_, ?_, ?_⟩
  · rw [← List.append_nil places]
    exact hexplored.distinct
  · intro place
    constructor
    · intro hmember
      rcases hexplored.reached place (Or.inl hmember) with ⟨root, ⟨path, hpath, hroot⟩, hreaches⟩
      exact ⟨path, hpath, root, hroot, hreaches⟩
    · rintro ⟨path, hpath, root, hroot, hreaches⟩
      rcases hroots path hpath with ⟨found, hfound, hdenotes⟩
      have hsame := hroot.unique hdenotes
      subst hsame
      exact hexplored.mem_of_reaches hfound hreaches
  · intro place goal hmember himports hnotBack
    rcases hexplored.ordered place hmember goal himports with hback | hbefore
    · exact absurd hback hnotBack
    · exact hbefore

/-! ## A cycle through a linked directory -/

/-- The file at a place declares nothing but the package `p` and some imports. -/
def OnlyImports (disk : Disk) (place : Place) (imports : List String) : Prop :=
  ∃ schema,
    disk.schemaAt? place = some schema ∧
      schema.package = "p" ∧
      schema.imports = imports ∧
      ∀ declaration ∈ schema.declarations, declaration.name? = none

theorem onlyImports_of_text
    {disk : Disk}
    {place : Place}
    (text : String)
    {imports : List String}
    (content : disk.content? place = some text.toUTF8)
    (reads :
      ((Schema.ofText text.toList).toOption.map fun schema =>
        (schema.package, schema.imports, schema.declarations.filterMap Declaration.name?)) =
        some ("p", imports, [])) :
    OnlyImports disk place imports :=
  Disk.holdsBare_of_text text content reads

namespace Cycle

/-- A file that imports another in two ways. -/
def firstText : String :=
  "package p;import \"lib/b\";import \"l/b.yarp\";"

/-- The file in the directory, which imports the first again. -/
def secondText : String :=
  "package p;import \"../a.yarp\";"

/-- The disk with both files, and a link to the directory of the second. -/
def disk : Disk where
  home := []
  entries :=
    [(["a.yarp"], .file firstText.toUTF8),
      (["lib"], .directory),
      (["lib", "b.yarp"], .file secondText.toUTF8),
      (["l"], .link "lib")]

theorem isTree : disk.IsTree := by
  have hall : ∀ place ∈ disk.places, disk.isDirectoryAt place.dropLast = true := by decide
  intro place hsome
  exact hall place (Disk.mem_places_of_get? hsome)

theorem walk_lib (links : Nat) (rest : List String) :
    disk.walk links [] ("lib" :: rest) = disk.walk links ["lib"] rest :=
  Disk.walk_enter (by decide) (by decide) rfl (by simp)

theorem walk_link (links : Nat) (rest : List String) :
    disk.walk (links + 1) [] ("l" :: rest) = disk.walk links ["lib"] rest := by
  have htarget : Path.components "lib" = ["lib"] := rfl
  rw [Disk.walk_link (by decide) (by decide) rfl, htarget]
  exact walk_lib links rest

theorem walk_first (links : Nat) : disk.walk links [] ["a.yarp"] = .ok ["a.yarp"] := by
  rw [Disk.walk_enter (by decide) (by decide) rfl (by simp), Disk.walk_nil]
  rfl

theorem walk_second (links : Nat) :
    disk.walk links ["lib"] ["b.yarp"] = .ok ["lib", "b.yarp"] := by
  rw [Disk.walk_enter (by decide) (by decide) rfl (by simp), Disk.walk_nil]
  rfl

/-- The only link leads to the directory. -/
theorem noFileLinks : disk.NoFileLinks := by
  intro place target goal hlink hfollows
  have hplace : place ∈ disk.places := Disk.mem_places_of_get? (by rw [hlink]; rfl)
  simp only [Disk.places, disk, List.map_cons, List.map_nil, List.mem_cons,
    List.not_mem_nil, or_false] at hplace
  rcases hplace with rfl | rfl | rfl | rfl | rfl
  · cases hlink
  · cases hlink
  · cases hlink
  · cases hlink
  · cases hlink
    have hwalk : disk.walk 0 [] ["lib"] = .ok ["lib"] := by
      rw [walk_lib, Disk.walk_nil]
    cases hfollows.unique ⟨by simp, 0, hwalk⟩
    rfl

theorem locate_first : disk.locate "a.yarp" = .ok ["a.yarp"] :=
  Disk.locate_of_walk (by decide) rfl rfl (walk_first 40) rfl

theorem locate_second : disk.locate "lib/b.yarp" = .ok ["lib", "b.yarp"] :=
  Disk.locate_of_walk (by decide) rfl rfl
    ((walk_lib 40 ["b.yarp"]).trans (walk_second 40)) rfl

theorem locate_linked : disk.locate "l/b.yarp" = .ok ["lib", "b.yarp"] :=
  Disk.locate_of_walk (by decide) rfl rfl
    ((walk_link 39 ["b.yarp"]).trans (walk_second 39)) rfl

theorem locate_back : disk.locate "lib/../a.yarp" = .ok ["a.yarp"] :=
  Disk.locate_of_walk (by decide) rfl rfl
    ((walk_lib 40 ["..", "a.yarp"]).trans ((Disk.walk_up (by decide)).trans (walk_first 40))) rfl

/-- Without the extension nothing is found. -/
theorem resolve_second : resolve disk defaultExtension "lib/b" = .ok "lib/b.yarp" := by
  have hreach : disk.reach "lib/b" = .ok ["lib", "b"] := by
    rw [Disk.reach_short (by decide) (by decide) (by decide),
      show Path.components "lib/b" = ["lib", "b"] from rfl]
    exact (walk_lib 40 ["b"]).trans (Disk.walk_missing_last (by decide) (by decide) rfl)
  have hvacant : disk.IsVacant (.ok ["lib", "b"]) := by
    rintro ⟨hsome, _⟩
    cases hsome
  exact
    (resolve_of_vacant defaultExtension hreach hvacant).1
      (Disk.isFile_iff.2 ⟨["lib", "b.yarp"], locate_second, rfl, rfl⟩)

theorem first_imports : OnlyImports disk ["a.yarp"] ["lib/b", "l/b.yarp"] :=
  onlyImports_of_text firstText rfl (by decide +kernel)

theorem second_imports : OnlyImports disk ["lib", "b.yarp"] ["../a.yarp"] :=
  onlyImports_of_text secondText rfl (by decide +kernel)

section Files

variable {a b : SourceFile} {set : FileSet}

theorem open_first (read : SourceFile.openAt disk "a.yarp" = .ok a) :
    empty.openFile disk "a.yarp" = ({ empty with loaded := [["a.yarp"]] }, .ok (some a)) :=
  openFile_of_located locate_first rfl (by simp [empty]) read

theorem open_second
    (path : a.path = some "a.yarp")
    (read : SourceFile.openAt disk "lib/b.yarp" = .ok b)
    (extension : set.extension = defaultExtension)
    (loaded : set.loaded = [["a.yarp"]]) :
    set.openFile disk (Path.beside a.directory "lib/b") =
      ({ set with loaded := [["lib", "b.yarp"], ["a.yarp"]] }, .ok (some b)) := by
  have hpath : Path.beside a.directory "lib/b" = "lib/b" := by
    unfold SourceFile.directory
    rw [path]
    decide +kernel
  have hresolved : resolve disk set.extension "lib/b" = .ok "lib/b.yarp" := by
    rw [extension]
    exact resolve_second
  rw [hpath, openFile_of_not_mem hresolved locate_second (by rw [loaded]; decide), read, loaded]
  rfl

theorem pass_linked
    (path : a.path = some "a.yarp")
    (loaded : set.loaded = [["lib", "b.yarp"], ["a.yarp"]]) :
    set.openFile disk (Path.beside a.directory "l/b.yarp") = (set, .ok none) := by
  have hpath : Path.beside a.directory "l/b.yarp" = "l/b.yarp" := by
    unfold SourceFile.directory
    rw [path]
    decide +kernel
  rw [hpath]
  exact
    openFile_of_mem (resolve_of_file _ locate_linked rfl) locate_linked (by rw [loaded]; decide)

theorem pass_back
    (path : b.path = some "lib/b.yarp")
    (loaded : set.loaded = [["lib", "b.yarp"], ["a.yarp"]]) :
    set.openFile disk (Path.beside b.directory "../a.yarp") = (set, .ok none) := by
  have hpath : Path.beside b.directory "../a.yarp" = "lib/../a.yarp" := by
    unfold SourceFile.directory
    rw [path]
    decide +kernel
  rw [hpath]
  exact openFile_of_mem (resolve_of_file _ locate_back rfl) locate_back (by rw [loaded]; decide)

end Files

/-- The load opens the first file, then the second, and passes over the other imports. -/
theorem exists_load : ∃ set, empty.load disk "a.yarp" = (set, .ok ()) := by
  rcases first_imports with ⟨first, hfirst, _, hfirstImports, hfirstBare⟩
  rcases second_imports with ⟨second, hsecond, _, hsecondImports, hsecondBare⟩
  rcases SourceFile.exists_openAt_of_schemaAt locate_first hfirst with ⟨a, ha, haPath, rfl⟩
  rcases SourceFile.exists_openAt_of_schemaAt locate_second hsecond with ⟨b, hb, hbPath, rfl⟩
  have hrunSecond :
      ∀ set : FileSet, set.loaded = [["lib", "b.yarp"], ["a.yarp"]] →
        Runs disk (.file b) set (set.append b) (.ok ()) := by
    intro set hloaded
    refine .registered ?_ (register_of_bare set hsecondBare)
    rw [hsecondImports]
    exact .known (pass_back hbPath hloaded) (.done b set)
  have hrunFirst :
      ∀ set : FileSet, set.extension = defaultExtension → set.loaded = [["a.yarp"]] →
        ∃ final, Runs disk (.file a) set final (.ok ()) := by
    intro set hextension hloaded
    have himports :
        Runs disk (.imports a a.schema.imports) set
          ({ set with loaded := [["lib", "b.yarp"], ["a.yarp"]] }.append b) (.ok ()) := by
      rw [hfirstImports]
      exact
        .added (open_second haPath hb hextension hloaded) (hrunSecond _ rfl)
          (.known (pass_linked haPath rfl) (.done a _))
    exact ⟨_, .registered himports (register_of_bare _ hfirstBare)⟩
  rcases hrunFirst { empty with package := some a.package, loaded := [["a.yarp"]] } rfl rfl with
    ⟨final, hfinal⟩
  exact ⟨final, Loading.load_eq (.added (open_first ha) rfl hfinal)⟩

end Cycle

theorem isClosure_cycle :
    Cycle.disk.IsTree ∧
      Cycle.disk.NoFileLinks ∧
      ∃ set,
        ofPaths Cycle.disk ["a.yarp"] = .ok set ∧
          ∃ places, IsClosure Cycle.disk defaultExtension ["a.yarp"] set.files places := by
  rcases Cycle.exists_load with ⟨set, hload⟩
  have hloads : ofPaths Cycle.disk ["a.yarp"] = .ok set := by
    rw [ofPaths_eq_ok_iff, loadAll, hload]
    rfl
  exact
    ⟨Cycle.isTree, Cycle.noFileLinks, set, hloads,
      isClosure_of_ofPaths Cycle.isTree Cycle.noFileLinks hloads⟩

end FileSet
end InterfaceSchema
