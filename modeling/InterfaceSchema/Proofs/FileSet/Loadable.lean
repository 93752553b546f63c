import InterfaceSchema.Proofs.FileSet.Consistent
import InterfaceSchema.Proofs.FileSet.Explored
import InterfaceSchema.Proofs.FileSet.Search

/-!
# Loadable files

* `FileSet.IsLoadable`: the files that some paths ask for can be read, with all that they import,
  and declare nothing twice.
* `FileSet.register_of_loadable`, `FileSet.openFile_of_loadable`: on loadable files neither way in
  which a step may fail comes up, within the limits on paths.
* `FileSet.Runs.succeeds`, `FileSet.loadAll_succeeds`: so every run of a load succeeds, by induction
  on it.
-/

namespace InterfaceSchema

namespace FileSet

/-- Imports lead to a place from the files that some paths ask for. -/
def IsNeeded
    (disk : Disk)
    (denotes : Place → String → Place → Prop)
    (paths : List String)
    (place : Place) : Prop :=
  ∃ root,
    (∃ path ∈ paths, denotes disk.home path root) ∧
      Relation.ReflTransGen (disk.ImportsBy denotes) root place

/-- All needed files can be read, where `denotes` says for which file a path in a directory stands.
No two of them declare a message of the same qualified name, and no two of the package at hand a
service of the same name. -/
structure IsLoadable
    (disk : Disk)
    (denotes : Place → String → Place → Prop)
    (paths : List String)
    (package : String) : Prop where
  imports_resolve :
    ∀ place schema,
      IsNeeded disk denotes paths place → disk.schemaAt? place = some schema →
        ∀ path ∈ schema.imports,
          ∃ goal, denotes place.dropLast path goal ∧ (disk.schemaAt? goal).isSome = true
  messages_distinct :
    ∀ place other schema otherSchema,
      IsNeeded disk denotes paths place → IsNeeded disk denotes paths other → place ≠ other →
        disk.schemaAt? place = some schema → disk.schemaAt? other = some otherSchema →
          ∀ message ∈ schema.messages, ∀ second ∈ otherSchema.messages,
            QualifiedName.join schema.package message.name ≠
              QualifiedName.join otherSchema.package second.name
  services_distinct :
    ∀ place other schema otherSchema,
      IsNeeded disk denotes paths place → IsNeeded disk denotes paths other → place ≠ other →
        disk.schemaAt? place = some schema → disk.schemaAt? other = some otherSchema →
          schema.package = package → otherSchema.package = package →
            ∀ service ∈ schema.services, ∀ second ∈ otherSchema.services,
              service.name ≠ second.name

/-- A path is resolved to a file that can be read and declares a package. -/
def IsRoot (disk : Disk) (extension package path : String) : Prop :=
  ∃ found file,
    resolve disk extension path = .ok found ∧
      SourceFile.openAt disk found = .ok file ∧ file.package = package

section Standing

variable {disk : Disk} {extension : String} {origin : Place → Prop} {set : FileSet}
variable {stack done : List Place}

/-- A registered file stands at a registered place. -/
theorem Explored.exists_place
    {file : SourceFile}
    (explored : Explored disk extension origin set stack done)
    (registered : file ∈ set.files) :
    ∃ place ∈ done, file.StandsAt disk place := by
  rcases List.forall₂_iff_get.1 explored.stands with ⟨hlength, hget⟩
  rcases List.getElem_of_mem registered with ⟨i, hi, rfl⟩
  exact ⟨done.get ⟨i, by omega⟩, List.get_mem _ _, hget i hi (by omega)⟩

end Standing

section Roots

variable {disk : Disk} {set after final : FileSet} {package path : String}

/-- A file that is asked for is opened, unless it has been before. -/
theorem openFile_root
    {result : Except LoadError (Option SourceFile)}
    (root : IsRoot disk set.extension package path)
    (opened : set.openFile disk path = (after, result)) :
    result = .ok none ∨ ∃ file, result = .ok (some file) ∧ file.package = package := by
  rcases root with ⟨found, file, hresolved, hread, hpackage⟩
  rcases denotes_of_resolve hresolved with ⟨place, hlocated, _⟩
  by_cases hknown : place ∈ set.loaded
  · rw [openFile_of_mem hresolved hlocated hknown] at opened
    cases opened
    exact Or.inl rfl
  · rw [openFile_of_not_mem hresolved hlocated hknown, hread] at opened
    cases opened
    exact Or.inr ⟨file, rfl, hpackage⟩

theorem package_of_root
    {file : SourceFile}
    (root : IsRoot disk set.extension package path)
    (opened : set.openFile disk path = (after, .ok (some file))) :
    file.package = package := by
  rcases openFile_root root opened with hnone | ⟨other, hsame, hpackage⟩
  · cases hnone
  · cases hsame
    exact hpackage

/-- If all files that are asked for declare one package, no load gives the set another. -/
theorem Loading.package_eq
    {result : Except LoadError Unit}
    (loading : Loading disk set path final result)
    (root : IsRoot disk set.extension package path)
    (consistent : set.Consistent)
    (only : ∀ other, set.package = some other → other = package) :
    ∀ other, final.package = some other → other = package := by
  cases loading with
  | unopened fails =>
      rw [package_of_openFile fails]
      exact only
  | known passed =>
      rw [package_of_openFile passed]
      exact only
  | mixed opened refuses =>
      rw [package_of_openFile opened]
      exact only
  | added opened accepts inner =>
      have haccepted := (consistent.openFile opened).accept accepts
      have hpackage := (package_of_accept accepts).1
      have hfinal := (inner.consistent (openedFrom_of_openFile opened) haccepted hpackage).2
      intro other hother
      rw [hfinal, Option.some.injEq] at hother
      rw [← hother]
      exact package_of_root root opened

/-- A file that is asked for is accepted into a set of the same package. -/
theorem accept_root
    {file : SourceFile}
    (only : ∀ other, set.package = some other → other = package)
    (same : file.package = package) :
    ∃ accepted, set.accept file = .ok accepted := by
  unfold accept
  cases hpackage : set.package with
  | none =>
      exact ⟨_, rfl⟩
  | some other =>
      refine ⟨set, if_pos ?_⟩
      rw [only other hpackage, same]

end Roots

/-! ## Running on loadable files -/

section Running

variable {disk : Disk} {extension package : String} {paths : List String}
variable {set final : FileSet} {top : Place} {below done : List Place}

/-- Needed files declare nothing that a registered file declares. -/
theorem register_of_loadable
    {file : SourceFile}
    (loadable : IsLoadable disk (disk.Denotes extension) paths package)
    (explored :
      Explored disk extension (IsAsked disk extension paths) set (top :: below) done)
    (consistent : set.Consistent)
    (packaged : set.package = some package)
    (stands : file.StandsAt disk top) :
    ∃ after, set.register file = .ok after := by
  have hneeded : IsNeeded disk (disk.Denotes extension) paths top :=
    explored.reached top (Or.inr List.mem_cons_self)
  -- A file that declares the same would stand at another place.
  have hother :
      ∀ owner ∈ set.files, ∃ place,
        IsNeeded disk (disk.Denotes extension) paths place ∧
          top ≠ place ∧ disk.schemaAt? place = some owner.schema := by
    intro owner howner
    rcases explored.exists_place howner with ⟨place, hplace, hstands⟩
    refine ⟨place, explored.reached place (Or.inl hplace), ?_, hstands.holds⟩
    rintro rfl
    have hdistinct := explored.distinct
    rw [List.nodup_append] at hdistinct
    exact hdistinct.2.2 top hplace top List.mem_cons_self rfl
  refine ⟨_, register_eq_ok_iff.2 ⟨?_, rfl⟩⟩
  rw [List.findSome?_eq_none_iff]
  intro declaration hdeclared
  cases declaration with
  | package clause =>
      rfl
  | importing statement =>
      rfl
  | message message =>
      unfold clash?
      dsimp only
      rw [Option.map_eq_none_iff]
      apply consistent.index_lookup_eq_none
      intro owner howner second hsecond
      rcases hother owner howner with ⟨place, hplace, hne, hschema⟩
      exact
        loadable.messages_distinct top place file.schema owner.schema hneeded hplace hne
          stands.holds hschema message (Schema.mem_messages.2 hdeclared) second hsecond
  | service service =>
      unfold clash?
      dsimp only
      by_cases howned : set.owns file = true
      · rw [if_pos howned, Option.map_eq_none_iff]
        apply consistent.knownServices_lookup_eq_none
        intro owner howner hownedToo second hsecond
        rcases hother owner howner with ⟨place, hplace, hne, hschema⟩
        exact
          loadable.services_distinct top place file.schema owner.schema hneeded hplace hne
            stands.holds hschema ((owns_iff packaged file).1 howned)
            ((owns_iff packaged owner).1 hownedToo) service (Schema.mem_services.2 hdeclared)
            second hsecond
      · exact if_neg howned

/-- An import of a loadable file can be opened if no path that is looked up for it exceeds a
limit. -/
theorem openFile_of_loadable
    {importer : SourceFile}
    {path : String}
    (tree : disk.IsTree)
    (noFileLinks : disk.NoFileLinks)
    (loadable : IsLoadable disk (disk.Denotes extension) paths package)
    (explored :
      Explored disk extension (IsAsked disk extension paths) set (top :: below) done)
    (stands : importer.StandsAt disk top)
    (imported : path ∈ importer.schema.imports)
    (fits :
      ∀ tried, disk.Tries extension (Path.beside importer.directory path) tried →
        ¬ disk.Exceeds tried) :
    ∃ after file?,
      set.openFile disk (Path.beside importer.directory path) = (after, .ok file?) := by
  have hneeded : IsNeeded disk (disk.Denotes extension) paths top :=
    explored.reached top (Or.inr List.mem_cons_self)
  obtain ⟨goal, hgoal, hholds⟩ :=
    loadable.imports_resolve top importer.schema hneeded stands.holds path imported
  obtain ⟨schema, hschema⟩ := Option.isSome_iff_exists.1 hholds
  have hdenotes := (stands.denotes_iff tree noFileLinks imported extension goal).2 hgoal
  rw [← explored.extension_eq] at hdenotes fits
  exact exists_openFile_of_denotes hdenotes hschema fits

/-- A search from some paths comes to a task: what the task has to look up is next. -/
def Task.IsNext
    (disk : Disk)
    (extension : String)
    (paths : List String)
    (set : FileSet)
    (task : Task) : Prop :=
  ∃ later,
    Relation.ReflTransGen (Search.Step disk extension) ⟨[], paths⟩
      ⟨set.loaded, task.pending ++ later⟩

namespace Task.IsNext

variable {importer : SourceFile} {path : String} {wanted : List String} {after : FileSet}

/-- What is tried for the first import of a task is looked up. -/
theorem looksUp
    {tried : String}
    (next : (Task.imports importer (path :: wanted)).IsNext disk extension paths set)
    (tries : disk.Tries extension (Path.beside importer.directory path) tried) :
    disk.LooksUp extension paths tried := by
  obtain ⟨later, hsteps⟩ := next
  exact ⟨_, hsteps, _, rfl, tries⟩

/-- Behind an import that is passed over come the others. -/
theorem known
    (next : (Task.imports importer (path :: wanted)).IsNext disk extension paths set)
    (extension_eq : set.extension = extension)
    (passed : set.openFile disk (Path.beside importer.directory path) = (after, .ok none)) :
    (Task.imports importer wanted).IsNext disk extension paths after := by
  obtain ⟨later, hsteps⟩ := next
  subst extension_eq
  exact ⟨later, hsteps.tail (clearStep_of_known passed _).1⟩

/-- An import that is opened comes next. -/
theorem opened
    {file : SourceFile}
    (next : (Task.imports importer (path :: wanted)).IsNext disk extension paths set)
    (extension_eq : set.extension = extension)
    (opened :
      set.openFile disk (Path.beside importer.directory path) = (after, .ok (some file))) :
    (Task.file file).IsNext disk extension paths after := by
  obtain ⟨later, hsteps⟩ := next
  subst extension_eq
  exact ⟨_, hsteps.tail (clearStep_of_new opened _).1⟩

/-- Behind an import that is added come the others. -/
theorem added
    {file : SourceFile}
    {middle : FileSet}
    (next : (Task.imports importer (path :: wanted)).IsNext disk extension paths set)
    (extension_eq : set.extension = extension)
    (opened :
      set.openFile disk (Path.beside importer.directory path) = (after, .ok (some file)))
    (inner : Runs disk (.file file) after middle (.ok ())) :
    (Task.imports importer wanted).IsNext disk extension paths middle := by
  obtain ⟨later, hsteps⟩ := next
  subst extension_eq
  have hinner := inner.clears rfl ((Task.imports importer wanted).pending ++ later)
  rw [(fields_of_openFile opened).1] at hinner
  exact
    ⟨later,
      (hsteps.tail (clearStep_of_new opened _).1).trans (Search.steps_of_clear hinner)⟩

end Task.IsNext

/-- What a task needs to run on loadable files. -/
def Task.IsReady
    (disk : Disk)
    (extension : String)
    (paths : List String)
    (set : FileSet) : Task → Prop
  | .imports importer wanted =>
      ∃ top below done,
        importer.StandsAt disk top ∧
          (∀ path ∈ wanted, path ∈ importer.schema.imports) ∧
            (∀ other ∈ below, disk.Reaches extension other top) ∧
              Explored disk extension (IsAsked disk extension paths) set (top :: below) done
  | .file opened =>
      ∃ top below done,
        opened.StandsAt disk top ∧
          opened.OpenedFrom disk ∧
            (∀ other ∈ below, disk.Reaches extension other top) ∧
              Explored disk extension (IsAsked disk extension paths) set (top :: below) done

section Success

variable (tree : disk.IsTree) (noFileLinks : disk.NoFileLinks)
variable (loadable : IsLoadable disk (disk.Denotes extension) paths package)
variable (fits : ∀ tried, disk.LooksUp extension paths tried → ¬ disk.Exceeds tried)

include tree noFileLinks loadable fits

/-- On loadable files every run succeeds, if no path that is looked up exceeds a limit. -/
theorem Runs.succeeds
    {task : Task}
    {result : Except LoadError Unit}
    (run : Runs disk task set final result)
    (ready : task.IsReady disk extension paths set)
    (next : task.IsNext disk extension paths set)
    (consistent : set.Consistent)
    (packaged : set.package = some package) :
    result = .ok () := by
  induction run with
  | done importer set =>
      rfl
  | unopened later fails =>
      obtain ⟨top, below, done, hstands, hwanted, _, hexplored⟩ := ready
      obtain ⟨after, file?, hopened⟩ :=
        openFile_of_loadable tree noFileLinks loadable hexplored hstands
          (hwanted _ List.mem_cons_self) fun tried htries => fits tried (next.looksUp htries)
      rw [hopened] at fails
      cases fails
  | known passed rest ih =>
      obtain ⟨top, below, done, hstands, hwanted, hchained, hexplored⟩ := ready
      have hnext := next.known hexplored.extension_eq passed
      obtain ⟨rfl, _⟩ :=
        hexplored.known_import tree noFileLinks hstands (hwanted _ List.mem_cons_self) passed
      refine ih ⟨top, below, done, hstands, ?_, hchained, hexplored⟩ hnext consistent packaged
      exact fun path hpath => hwanted path (List.mem_cons_of_mem _ hpath)
  | failed later opened inner ih =>
      obtain ⟨top, below, done, hstands, hwanted, hchained, hexplored⟩ := ready
      obtain ⟨place, _, hplace, hlonger, hpushed⟩ :=
        hexplored.push_import tree noFileLinks hstands (hwanted _ List.mem_cons_self) hchained
          opened
      refine
        ih
          ⟨place, top :: below, done, hplace, openedFrom_of_openFile opened, hlonger, hpushed⟩
          (next.opened hexplored.extension_eq opened) (consistent.openFile opened) ?_
      rw [package_of_openFile opened]
      exact packaged
  | added opened inner rest ihFile ihLater =>
      obtain ⟨top, below, done, hstands, hwanted, hchained, hexplored⟩ := ready
      obtain ⟨place, _, hplace, hlonger, hpushed⟩ :=
        hexplored.push_import tree noFileLinks hstands (hwanted _ List.mem_cons_self) hchained
          opened
      have hfinishes :
          Task.Finishes disk extension (IsAsked disk extension paths) _ _ (.file _) :=
        inner.finishes tree noFileLinks rfl
      obtain ⟨inside, hmiddle, _⟩ := hfinishes place (top :: below) done hplace hlonger hpushed
      have hafter := package_of_openFile opened
      rw [packaged] at hafter
      obtain ⟨hconsistent, hpackage⟩ :=
        inner.consistent (openedFrom_of_openFile opened) (consistent.openFile opened) hafter
      refine
        ihLater ⟨top, below, done ++ inside, hstands, ?_, hchained, hmiddle⟩
          (next.added hexplored.extension_eq opened inner) hconsistent hpackage
      exact fun path hpath => hwanted path (List.mem_cons_of_mem _ hpath)
  | stopped inner ih =>
      obtain ⟨top, below, done, hstands, _, hchained, hexplored⟩ := ready
      exact
        ih ⟨top, below, done, hstands, fun path hpath => hpath, hchained, hexplored⟩ next
          consistent packaged
  | refused inner refuses ih =>
      obtain ⟨top, below, done, hstands, _, hchained, hexplored⟩ := ready
      have hfinishes :
          Task.Finishes disk extension (IsAsked disk extension paths) _ _ (.imports _ _) :=
        inner.finishes tree noFileLinks rfl
      obtain ⟨inside, hmiddle, _⟩ :=
        hfinishes top below done hstands (fun path hpath => hpath) hchained hexplored
      obtain ⟨hconsistent, hpackage⟩ := inner.consistent trivial consistent packaged
      obtain ⟨after, haccepts⟩ :=
        register_of_loadable loadable hmiddle hconsistent hpackage hstands
      rw [haccepts] at refuses
      cases refuses
  | registered inner accepts ih =>
      rfl

/-- A load of a file from loadable ones succeeds, if no path that is looked up exceeds a limit. -/
theorem Loading.succeeds
    {path : String}
    {later : List String}
    {result : Except LoadError Unit}
    (loading : Loading disk set path final result)
    (asked : path ∈ paths)
    (root : IsRoot disk extension package path)
    (next :
      Relation.ReflTransGen (Search.Step disk extension) ⟨[], paths⟩
        ⟨set.loaded, path :: later⟩)
    (explored : Explored disk extension (IsAsked disk extension paths) set [] done)
    (consistent : set.Consistent)
    (only : ∀ other, set.package = some other → other = package) :
    result = .ok () := by
  have hextension := explored.extension_eq
  rw [← hextension] at root
  cases loading with
  | unopened fails =>
      obtain hnone | ⟨file, hsome, _⟩ := openFile_root root fails
      · cases hnone
      · cases hsome
  | known passed =>
      rfl
  | mixed opened refuses =>
      rw [← package_of_openFile opened] at only
      obtain ⟨accepted, haccepts⟩ := accept_root only (package_of_root root opened)
      rw [haccepts] at refuses
      cases refuses
  | @added after accepted final file result opened accepts inner =>
      obtain ⟨place, _, hstands, hpushed⟩ :=
        explored.push_root (fun place hplace => ⟨path, asked, hplace⟩) opened
      have hpackage := (package_of_accept accepts).1
      rw [package_of_root root opened] at hpackage
      have hnext : (Task.file file).IsNext disk extension paths accepted := by
        refine ⟨later, ?_⟩
        rw [(fields_of_accept accepts).2.2, ← hextension]
        rw [← hextension] at next
        exact next.tail (clearStep_of_new opened later).1
      exact
        inner.succeeds tree noFileLinks loadable fits
          ⟨place, [], done, hstands, openedFrom_of_openFile opened, by simp,
            hpushed.accept accepts⟩
          hnext ((consistent.openFile opened).accept accepts) hpackage

end Success

end Running

end FileSet
end InterfaceSchema
