import Mathlib.Data.List.Forall2
import Mathlib.Data.List.Nodup
import InterfaceSchema.Proofs.FileSet.Place
import InterfaceSchema.Proofs.FileSet.Run

/-!
# Exploring imports

A load marks the place of a file when it is opened, and registers the file after all that it
imports. In between the place is on the stack of places that lead there from the file that was
asked for.

* `FileSet.Explored`: which files a set holds while places are on the stack.
* `FileSet.Explored.push`, `FileSet.Explored.pop`: opening and registering one file.
* `FileSet.Runs.finishes`: a whole run, by induction on it.
* `FileSet.explored_of_ofPaths`: a set that was loaded has nothing on the stack.
-/

namespace InterfaceSchema

namespace FileSet

/-- The files of a set stand at the places `done`, and the places on the `stack` are marked but not
registered. All of them can be reached from places of which `origin` holds. -/
structure Explored
    (disk : Disk)
    (extension : String)
    (origin : Place → Prop)
    (set : FileSet)
    (stack done : List Place) : Prop where
  extension_eq : set.extension = extension
  stands : List.Forall₂ (fun file place => file.StandsAt disk place) set.files done
  marked : ∀ place, place ∈ set.loaded ↔ place ∈ done ∨ place ∈ stack
  distinct : (done ++ stack).Nodup
  reached :
    ∀ place, place ∈ done ∨ place ∈ stack →
      ∃ root, origin root ∧ disk.Reaches extension root place
  resolved :
    ∀ place ∈ done, ∀ schema, disk.schemaAt? place = some schema →
      ∀ path ∈ schema.imports,
        ∃ goal,
          disk.Denotes extension place.dropLast path goal ∧ (goal ∈ done ∨ goal ∈ stack)
  ordered :
    ∀ place ∈ done, ∀ goal, disk.Imports extension place goal →
      disk.Reaches extension goal place ∨ [goal, place].Sublist done

namespace Explored

variable {disk : Disk} {extension : String} {origin : Place → Prop}
variable {set final : FileSet} {stack done : List Place} {place : Place}

theorem empty :
    Explored disk defaultExtension origin FileSet.empty [] [] where
  extension_eq := rfl
  stands := List.Forall₂.nil
  marked := by
    intro place
    simp [FileSet.empty]
  distinct := List.nodup_nil
  reached := by
    intro place hmember
    simp at hmember
  resolved := by
    intro place hmember
    cases hmember
  ordered := by
    intro place hmember
    cases hmember

/-- Opening a file puts its place on the stack. -/
theorem push
    (explored : Explored disk extension origin set stack done)
    (new : place ∉ set.loaded)
    (reached : ∃ root, origin root ∧ disk.Reaches extension root place) :
    Explored disk extension origin { set with loaded := place :: set.loaded }
      (place :: stack) done := by
  have houtside : place ∉ done ∧ place ∉ stack := by
    constructor
    · exact fun hdone => new ((explored.marked place).2 (Or.inl hdone))
    · exact fun hstack => new ((explored.marked place).2 (Or.inr hstack))
  constructor
  · exact explored.extension_eq
  · exact explored.stands
  · intro other
    rw [List.mem_cons, explored.marked other, List.mem_cons]
    constructor
    · rintro (hsame | hdone | hstack)
      · exact Or.inr (Or.inl hsame)
      · exact Or.inl hdone
      · exact Or.inr (Or.inr hstack)
    · rintro (hdone | hsame | hstack)
      · exact Or.inr (Or.inl hdone)
      · exact Or.inl hsame
      · exact Or.inr (Or.inr hstack)
  · rw [List.nodup_middle, List.nodup_cons, List.mem_append]
    refine ⟨?_, explored.distinct⟩
    rintro (hdone | hstack)
    · exact houtside.1 hdone
    · exact houtside.2 hstack
  · rintro other (hdone | hstack)
    · exact explored.reached other (Or.inl hdone)
    · rcases List.mem_cons.1 hstack with rfl | hbelow
      · exact reached
      · exact explored.reached other (Or.inr hbelow)
  · intro owner howner schema hschema path hpath
    rcases explored.resolved owner howner schema hschema path hpath with
      ⟨goal, hgoal, hdone | hstack⟩
    · exact ⟨goal, hgoal, Or.inl hdone⟩
    · exact ⟨goal, hgoal, Or.inr (List.mem_cons_of_mem place hstack)⟩
  · exact explored.ordered

/-- Registering a file moves its place off the stack. -/
theorem pop
    {file : SourceFile}
    (explored : Explored disk extension origin set (place :: stack) done)
    (stands : file.StandsAt disk place)
    (chained : ∀ other ∈ stack, disk.Reaches extension other place)
    (targets :
      ∀ path ∈ file.schema.imports,
        ∃ goal,
          disk.Denotes extension place.dropLast path goal ∧
            (goal ∈ done ∨ goal ∈ place :: stack))
    (registered : set.register file = .ok final) :
    Explored disk extension origin final stack (done ++ [place]) := by
  have hfinal := (register_eq_ok_iff.1 registered).2
  have hmembers :
      ∀ other, other ∈ done ++ [place] ∨ other ∈ stack ↔ other ∈ done ∨ other ∈ place :: stack := by
    intro other
    rw [List.mem_append, List.mem_singleton, List.mem_cons, or_assoc]
  constructor
  · rw [hfinal]
    exact explored.extension_eq
  · rw [hfinal]
    exact List.rel_append explored.stands (List.Forall₂.cons stands List.Forall₂.nil)
  · intro other
    rw [loaded_of_register registered, explored.marked other]
    exact (hmembers other).symm
  · rw [List.append_assoc]
    exact explored.distinct
  · intro other hother
    exact explored.reached other ((hmembers other).1 hother)
  · intro owner howner schema hschema path hpath
    rcases List.mem_append.1 howner with hdone | hlast
    · rcases explored.resolved owner hdone schema hschema path hpath with ⟨goal, hgoal, hthere⟩
      exact ⟨goal, hgoal, (hmembers goal).2 hthere⟩
    · rw [List.mem_singleton] at hlast
      subst hlast
      rw [stands.holds] at hschema
      cases hschema
      rcases targets path hpath with ⟨goal, hgoal, hthere⟩
      exact ⟨goal, hgoal, (hmembers goal).2 hthere⟩
  · intro owner howner goal himports
    rcases List.mem_append.1 howner with hdone | hlast
    · rcases explored.ordered owner hdone goal himports with hback | hbefore
      · exact Or.inl hback
      · exact Or.inr (hbefore.trans (List.sublist_append_left done [place]))
    · rw [List.mem_singleton] at hlast
      subst hlast
      rcases himports with ⟨schema, path, hschema, hpath, hdenotes⟩
      rw [stands.holds] at hschema
      cases hschema
      rcases targets path hpath with ⟨target, htarget, hthere⟩
      have hsame := hdenotes.unique htarget
      subst hsame
      rcases hthere with hdone | hstack
      · exact Or.inr ((List.singleton_sublist.2 hdone).append (List.Sublist.refl [owner]))
      · rcases List.mem_cons.1 hstack with rfl | hbelow
        · exact Or.inl Relation.ReflTransGen.refl
        · exact Or.inl (chained goal hbelow)

end Explored

/-! ## Runs -/

/-- What a successful task achieves: the imports of the file on top of the stack are resolved, or
the file on top of the stack is registered. -/
def Task.Finishes
    (disk : Disk)
    (extension : String)
    (origin : Place → Prop)
    (set final : FileSet) : Task → Prop
  | .imports importer paths =>
      ∀ top below done,
        importer.StandsAt disk top →
          (∀ path ∈ paths, path ∈ importer.schema.imports) →
            (∀ other ∈ below, disk.Reaches extension other top) →
              Explored disk extension origin set (top :: below) done →
                ∃ more,
                  Explored disk extension origin final (top :: below) (done ++ more) ∧
                    ∀ path ∈ paths,
                      ∃ goal,
                        disk.Denotes extension top.dropLast path goal ∧
                          (goal ∈ done ++ more ∨ goal ∈ top :: below)
  | .file opened =>
      ∀ top below done,
        opened.StandsAt disk top →
          (∀ other ∈ below, disk.Reaches extension other top) →
            Explored disk extension origin set (top :: below) done →
              ∃ more,
                Explored disk extension origin final below (done ++ more) ∧ top ∈ done ++ more

section Running

variable {disk : Disk} {extension : String} {origin : Place → Prop} {set final : FileSet}

/-- An import that is opened is put on the stack of its importer. -/
theorem Explored.push_import
    {importer file : SourceFile}
    {after : FileSet}
    {path : String}
    {top : Place}
    {below done : List Place}
    (tree : disk.IsTree)
    (noFileLinks : disk.NoFileLinks)
    (stands : importer.StandsAt disk top)
    (imported : path ∈ importer.schema.imports)
    (chained : ∀ other ∈ below, disk.Reaches extension other top)
    (explored : Explored disk extension origin set (top :: below) done)
    (opened :
      set.openFile disk (Path.beside importer.directory path) = (after, .ok (some file))) :
    ∃ place,
      disk.Denotes extension top.dropLast path place ∧
        file.StandsAt disk place ∧
        (∀ other ∈ top :: below, disk.Reaches extension other place) ∧
        Explored disk extension origin after (place :: top :: below) done := by
  rcases openFile_new opened with ⟨place, hdenotes, hnew, rfl, hplace⟩
  rw [explored.extension_eq, stands.denotes_iff tree noFileLinks imported] at hdenotes
  have hedge : disk.Imports extension top place :=
    ⟨importer.schema, path, stands.holds, imported, hdenotes⟩
  refine ⟨place, hdenotes, hplace, ?_, ?_⟩
  · intro other hother
    rcases List.mem_cons.1 hother with rfl | hbelow
    · exact Relation.ReflTransGen.single hedge
    · exact (chained other hbelow).tail hedge
  · rcases explored.reached top (Or.inr List.mem_cons_self) with ⟨root, hroot, hreaches⟩
    exact explored.push hnew ⟨root, hroot, hreaches.tail hedge⟩

/-- An import that is passed over is registered or on the stack. -/
theorem Explored.known_import
    {importer : SourceFile}
    {after : FileSet}
    {path : String}
    {top : Place}
    {below done : List Place}
    (tree : disk.IsTree)
    (noFileLinks : disk.NoFileLinks)
    (stands : importer.StandsAt disk top)
    (imported : path ∈ importer.schema.imports)
    (explored : Explored disk extension origin set (top :: below) done)
    (passed : set.openFile disk (Path.beside importer.directory path) = (after, .ok none)) :
    after = set ∧
      ∃ goal,
        disk.Denotes extension top.dropLast path goal ∧ (goal ∈ done ∨ goal ∈ top :: below) := by
  rcases openFile_known passed with ⟨hsame, goal, hknown, hdenotes⟩
  rw [explored.extension_eq, stands.denotes_iff tree noFileLinks imported] at hdenotes
  exact ⟨hsame, goal, hdenotes, (explored.marked goal).1 hknown⟩

/-- A run that succeeds resolves all imports on its way. -/
theorem Runs.finishes
    {task : Task}
    {result : Except LoadError Unit}
    (tree : disk.IsTree)
    (noFileLinks : disk.NoFileLinks)
    (run : Runs disk task set final result)
    (succeeds : result = .ok ()) :
    task.Finishes disk extension origin set final := by
  induction run with
  | done importer set =>
      intro top below done hstands hpaths hchained hexplored
      refine ⟨[], ?_, ?_⟩
      · rw [List.append_nil]
        exact hexplored
      · intro path hpath
        cases hpath
  | unopened later fails =>
      cases succeeds
  | known passed rest ih =>
      intro top below done hstands hpaths hchained hexplored
      have himported := hpaths _ List.mem_cons_self
      rcases hexplored.known_import tree noFileLinks hstands himported passed with
        ⟨rfl, goal, hgoal, hthere⟩
      rcases
        ih succeeds top below done hstands
          (fun path hpath => hpaths path (List.mem_cons_of_mem _ hpath)) hchained hexplored with
        ⟨more, hfinal, htargets⟩
      refine ⟨more, hfinal, ?_⟩
      intro path hpath
      rcases List.mem_cons.1 hpath with rfl | hlater
      · refine ⟨goal, hgoal, ?_⟩
        rcases hthere with hdone | hstack
        · exact Or.inl (List.mem_append_left more hdone)
        · exact Or.inr hstack
      · exact htargets path hlater
  | failed later opened inner ih =>
      cases succeeds
  | added opened inner rest ihFile ihLater =>
      intro top below done hstands hpaths hchained hexplored
      have himported := hpaths _ List.mem_cons_self
      rcases
        hexplored.push_import tree noFileLinks hstands himported hchained opened with
        ⟨place, hgoal, hplace, hlonger, hpushed⟩
      rcases ihFile rfl place (top :: below) done hplace hlonger hpushed with
        ⟨inside, hmiddle, hregistered⟩
      rcases
        ihLater succeeds top below (done ++ inside) hstands
          (fun path hpath => hpaths path (List.mem_cons_of_mem _ hpath)) hchained hmiddle with
        ⟨more, hfinal, htargets⟩
      rw [List.append_assoc] at hfinal htargets
      refine ⟨inside ++ more, hfinal, ?_⟩
      intro path hpath
      rcases List.mem_cons.1 hpath with rfl | hlater
      · refine ⟨place, hgoal, Or.inl ?_⟩
        rw [← List.append_assoc]
        exact List.mem_append_left more hregistered
      · exact htargets path hlater
  | stopped inner ih =>
      cases succeeds
  | refused inner refuses ih =>
      cases succeeds
  | registered inner accepts ih =>
      intro top below done hstands hchained hexplored
      rcases
        ih rfl top below done hstands (fun path hpath => hpath) hchained hexplored with
        ⟨more, hmiddle, htargets⟩
      refine ⟨more ++ [top], ?_, ?_⟩
      · rw [← List.append_assoc]
        exact hmiddle.pop hstands hchained htargets accepts
      · rw [← List.append_assoc]
        exact List.mem_append_right _ (List.mem_singleton_self top)

end Running

/-! ## Loads -/

section Loads

variable {disk : Disk} {extension : String} {origin : Place → Prop}
variable {set final : FileSet} {done : List Place} {path : String}

/-- Accepting a file changes nothing about the places of a set. -/
theorem Explored.accept
    {accepted : FileSet}
    {file : SourceFile}
    {stack : List Place}
    (explored : Explored disk extension origin set stack done)
    (accepts : set.accept file = .ok accepted) :
    Explored disk extension origin accepted stack done := by
  rcases fields_of_accept accepts with ⟨hextension, hfiles, hloaded⟩
  constructor
  · rw [hextension]
    exact explored.extension_eq
  · rw [hfiles]
    exact explored.stands
  · rw [hloaded]
    exact explored.marked
  · exact explored.distinct
  · exact explored.reached
  · exact explored.resolved
  · exact explored.ordered

/-- A file that was asked for is put on the stack when it is opened. -/
theorem Explored.push_root
    {after : FileSet}
    {file : SourceFile}
    (explored : Explored disk extension origin set [] done)
    (asked : ∀ place, disk.Denotes extension disk.home path place → origin place)
    (opened : set.openFile disk path = (after, .ok (some file))) :
    ∃ place,
      disk.Denotes extension disk.home path place ∧
        file.StandsAt disk place ∧ Explored disk extension origin after [place] done := by
  rcases openFile_new opened with ⟨place, hdenotes, hnew, rfl, hplace⟩
  rw [explored.extension_eq] at hdenotes
  exact
    ⟨place, hdenotes, hplace,
      explored.push hnew ⟨place, asked place hdenotes, Relation.ReflTransGen.refl⟩⟩

/-- A load that succeeds registers the file asked for, with all that it imports. -/
theorem Loading.explores
    {result : Except LoadError Unit}
    (tree : disk.IsTree)
    (noFileLinks : disk.NoFileLinks)
    (loading : Loading disk set path final result)
    (succeeds : result = .ok ())
    (explored : Explored disk extension origin set [] done)
    (asked : ∀ place, disk.Denotes extension disk.home path place → origin place) :
    ∃ more,
      Explored disk extension origin final [] (done ++ more) ∧
        ∃ root ∈ done ++ more, disk.Denotes extension disk.home path root := by
  cases loading with
  | unopened fails =>
      cases succeeds
  | known passed =>
      rcases openFile_known passed with ⟨rfl, root, hknown, hdenotes⟩
      rw [explored.extension_eq] at hdenotes
      refine ⟨[], ?_, root, ?_, hdenotes⟩
      · rw [List.append_nil]
        exact explored
      · rcases (explored.marked root).1 hknown with hdone | hstack
        · exact List.mem_append_left [] hdone
        · cases hstack
  | mixed opened refuses =>
      cases succeeds
  | added opened accepts inner =>
      rcases explored.push_root asked opened with ⟨root, hdenotes, hstands, hpushed⟩
      have hfinishes : Task.Finishes disk extension origin _ final (.file _) :=
        inner.finishes tree noFileLinks succeeds
      rcases
        hfinishes root [] done hstands (by simp) (hpushed.accept accepts) with
        ⟨more, hfinal, hregistered⟩
      exact ⟨more, hfinal, root, hregistered, hdenotes⟩

/-- Loads that succeed register all files asked for, with all that they import. -/
theorem explored_of_loadAll
    (tree : disk.IsTree)
    (noFileLinks : disk.NoFileLinks)
    (paths : List String)
    (loads : set.loadAll disk paths = (final, .ok ()))
    (explored : Explored disk extension origin set [] done)
    (asked :
      ∀ path ∈ paths, ∀ place, disk.Denotes extension disk.home path place → origin place) :
    ∃ more,
      Explored disk extension origin final [] (done ++ more) ∧
        ∀ path ∈ paths, ∃ root ∈ done ++ more, disk.Denotes extension disk.home path root := by
  induction paths generalizing set done with
  | nil =>
      cases loads
      refine ⟨[], ?_, ?_⟩
      · rw [List.append_nil]
        exact explored
      · intro path hpath
        cases hpath
  | cons path later ih =>
      rcases loading_of_loadAll loads with ⟨after, hloading, hlater⟩
      rcases
        hloading.explores tree noFileLinks rfl explored (asked path List.mem_cons_self) with
        ⟨inside, hafter, root, hroot, hdenotes⟩
      rcases
        ih hlater hafter
          (fun other hother => asked other (List.mem_cons_of_mem path hother)) with
        ⟨more, hfinal, hroots⟩
      rw [List.append_assoc] at hfinal hroots
      refine ⟨inside ++ more, hfinal, ?_⟩
      intro other hother
      rcases List.mem_cons.1 hother with rfl | hlater
      · refine ⟨root, ?_, hdenotes⟩
        rw [← List.append_assoc]
        exact List.mem_append_left more hroot
      · exact hroots other hlater

/-- What some paths ask for. -/
def IsAsked (disk : Disk) (extension : String) (paths : List String) (place : Place) : Prop :=
  ∃ path ∈ paths, disk.Denotes extension disk.home path place

/-- A new set is explored from the files asked for. -/
theorem explored_of_ofPaths
    {paths : List String}
    (tree : disk.IsTree)
    (noFileLinks : disk.NoFileLinks)
    (loads : ofPaths disk paths = .ok set) :
    ∃ places,
      Explored disk defaultExtension (IsAsked disk defaultExtension paths) set [] places ∧
        ∀ path ∈ paths, ∃ root ∈ places, disk.Denotes defaultExtension disk.home path root := by
  have hasked :
      ∀ path ∈ paths, ∀ place, disk.Denotes defaultExtension disk.home path place →
        IsAsked disk defaultExtension paths place := by
    intro path hpath place hdenotes
    exact ⟨path, hpath, hdenotes⟩
  have hloads := ofPaths_eq_ok_iff.1 loads
  rcases explored_of_loadAll tree noFileLinks paths hloads Explored.empty hasked with
    ⟨places, hexplored, hroots⟩
  exact ⟨places, hexplored, hroots⟩

/-- What is imported by a registered file is registered, once the stack is empty. -/
theorem Explored.mem_of_reaches
    {place goal : Place}
    (explored : Explored disk extension origin set [] done)
    (registered : place ∈ done)
    (reaches : disk.Reaches extension place goal) :
    goal ∈ done := by
  induction reaches with
  | refl =>
      exact registered
  | tail _ himports ih =>
      rcases himports with ⟨schema, path, hschema, hpath, hdenotes⟩
      rcases explored.resolved _ ih schema hschema path hpath with ⟨target, htarget, hthere⟩
      have hsame := hdenotes.unique htarget
      subst hsame
      rcases hthere with hdone | hstack
      · exact hdone
      · cases hstack

end Loads

end FileSet
end InterfaceSchema
