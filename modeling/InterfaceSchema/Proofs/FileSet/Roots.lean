import InterfaceSchema.Proofs.FileSet.Call

/-!
# Packages of roots

A load compares the package of the file that was asked for with that of the set, but only if it
opens the file. A file that an earlier load has brought in as an import is passed over.

* `SourceFile.ImportsFile`: a file imports the file at a place.
* `FileSet.Accounted`: a file of a set declares the package of the set, or is imported by another.
* `FileSet.package_of_ofPaths`: each file that was asked for is accounted for in this way.
* `FileSet.not_package_of_ofPaths`: so a set may be made from files of two packages, although the
  same files are refused in the other order.
-/

namespace InterfaceSchema

/-- A source file imports the file at a place. -/
def SourceFile.ImportsFile
    (disk : Disk)
    (extension : String)
    (importer : SourceFile)
    (place : Place) : Prop :=
  ∃ path ∈ importer.schema.imports,
    disk.Denotes extension disk.home (Path.beside importer.directory path) place

namespace FileSet

/-! ## Runs -/

section Running

variable {disk : Disk} {set final : FileSet} {extension : String}

/-- A run that adds a file holds it in the end. -/
theorem Runs.mem_files
    {file : SourceFile}
    (run : Runs disk (.file file) set final (.ok ())) :
    file ∈ final.files := by
  cases run with
  | registered inner accepts =>
      rw [(register_eq_ok_iff.1 accepts).2]
      exact List.mem_append_right _ (List.mem_singleton_self file)

/-- The imports that a task adds are imports of its file. -/
def Task.IsProper : Task → Prop
  | .imports importer paths => ∀ path ∈ paths, path ∈ importer.schema.imports
  | .file _ => True

/-- The file of a task that adds imports, which is not registered yet. -/
def Task.importer? : Task → Option SourceFile
  | .imports importer _ => some importer
  | .file _ => none

/-- The file at a place has been registered and is imported by a file that has been registered, or
by the file of the task. -/
def Brought
    (disk : Disk)
    (extension : String)
    (task : Task)
    (final : FileSet)
    (place : Place) : Prop :=
  (∃ file ∈ final.files, file.StandsAt disk place) ∧
    ∃ importer,
      (importer ∈ final.files ∨ task.importer? = some importer) ∧
        importer.ImportsFile disk extension place

/-- What is brought in for one file stays brought in for all that follows. -/
theorem Brought.mono
    {task : Task}
    {file : SourceFile}
    {place : Place}
    (kept : set.files ⊆ final.files)
    (brought : Brought disk extension (.file file) set place) :
    Brought disk extension task final place := by
  rcases brought with ⟨⟨found, hfound, hstands⟩, importer, himporter | hnone, himports⟩
  · exact ⟨⟨found, kept hfound, hstands⟩, importer, Or.inl (kept himporter), himports⟩
  · cases hnone

/-- What a successful run opens is brought in by imports. -/
theorem Runs.brought
    {task : Task}
    {result : Except LoadError Unit}
    (run : Runs disk task set final result)
    (succeeds : result = .ok ())
    (sound : task.Sound disk)
    (isOpen : task.IsOpen disk set)
    (proper : task.IsProper)
    (extension_eq : set.extension = extension) :
    ∀ place ∈ final.loaded,
      place ∈ set.loaded ∨ Brought disk extension task final place := by
  induction run with
  | done importer set =>
      exact fun place hplace => Or.inl hplace
  | unopened later fails =>
      cases succeeds
  | known passed rest ih =>
      rcases openFile_known passed with ⟨rfl, _⟩
      exact
        ih succeeds trivial trivial (fun path hpath => proper path (List.mem_cons_of_mem _ hpath))
          extension_eq
  | failed later opened inner ih =>
      cases succeeds
  | @added importer file set after middle final path later result opened inner rest ihFile
      ihLater =>
      have hopened := openedFrom_of_openFile opened
      have hlater : ∀ other ∈ later, other ∈ importer.schema.imports :=
        fun other hother => proper other (List.mem_cons_of_mem path hother)
      rcases rest.grows trivial with ⟨_, hgrown⟩
      have hkept := hgrown.files_subset
      rcases holds_of_openFile opened with ⟨_, hmarked, hholds, _⟩
      rcases openFile_new opened with ⟨own, hdenotes, _, rfl, hstands⟩
      have hmiddle : middle.extension = extension :=
        (inner.fields_eq hopened).2.trans extension_eq
      intro place hplace
      rcases ihLater succeeds trivial trivial hlater hmiddle place hplace with hbefore | hbrought
      · rcases ihFile rfl hopened ⟨_, hmarked, hholds⟩ trivial extension_eq place hbefore with
          hopen | hbrought
        · rcases List.mem_cons.1 hopen with rfl | hold
          · refine Or.inr ⟨⟨file, hkept inner.mem_files, hstands⟩, importer, Or.inr rfl, ?_⟩
            rw [extension_eq] at hdenotes
            exact ⟨path, proper path List.mem_cons_self, hdenotes⟩
          · exact Or.inl hold
        · exact Or.inr (hbrought.mono hkept)
      · exact Or.inr hbrought
  | stopped inner ih =>
      cases succeeds
  | refused inner refuses ih =>
      cases succeeds
  | @registered file set middle final inner accepts ih =>
      have hfiles : final.files = middle.files ++ [file] := by
        rw [(register_eq_ok_iff.1 accepts).2]
        rfl
      have hkept : middle.files ⊆ final.files := by
        rw [hfiles]
        exact List.subset_append_left _ _
      intro place hplace
      rw [loaded_of_register accepts] at hplace
      rcases ih rfl trivial trivial (fun path hpath => hpath) extension_eq place hplace with
        hold | ⟨⟨found, hfound, hstands⟩, importer, himporter, himports⟩
      · exact Or.inl hold
      · refine Or.inr ⟨⟨found, hkept hfound, hstands⟩, importer, Or.inl ?_, himports⟩
        rcases himporter with hregistered | hown
        · exact hkept hregistered
        · cases hown
          exact (Runs.registered inner accepts).mem_files

end Running

/-! ## Loads -/

/-- A file of a set stands at a place, and declares the package of the set or is imported by a file
of the set. -/
def Accounted (disk : Disk) (extension : String) (set : FileSet) (place : Place) : Prop :=
  ∃ file ∈ set.files,
    file.StandsAt disk place ∧
      (set.package = some file.package ∨
        ∃ importer ∈ set.files, importer.ImportsFile disk extension place)

section Loads

variable {disk : Disk} {set final : FileSet} {extension path : String}

theorem Accounted.mono
    {place : Place}
    (files : set.files ⊆ final.files)
    (package : ∀ package, set.package = some package → final.package = some package)
    (accounted : Accounted disk extension set place) :
    Accounted disk extension final place := by
  rcases accounted with ⟨file, hfile, hstands, hpackage | ⟨importer, himporter, himports⟩⟩
  · exact ⟨file, files hfile, hstands, Or.inl (package _ hpackage)⟩
  · exact ⟨file, files hfile, hstands, Or.inr ⟨importer, files himporter, himports⟩⟩

/-- A successful load accounts for what it opens. The file that was asked for was opened before, or
declares the package that the set has then. -/
theorem Loading.accounted
    (loading : Loading disk set path final (.ok ()))
    (extension_eq : set.extension = extension)
    (accounted : ∀ place ∈ set.loaded, Accounted disk extension set place) :
    (∀ place ∈ final.loaded, Accounted disk extension final place) ∧
      ∃ place,
        disk.Denotes extension disk.home path place ∧
          (place ∈ set.loaded ∨
            ∃ file ∈ final.files,
              file.StandsAt disk place ∧ final.package = some file.package) := by
  rcases loading.grows with ⟨_, hgrown⟩
  cases loading with
  | known passed =>
      rcases openFile_known passed with ⟨rfl, place, hmarked, hdenotes⟩
      rw [extension_eq] at hdenotes
      exact ⟨accounted, place, hdenotes, Or.inl hmarked⟩
  | @added after accepted _ file _ opened accepts inner =>
      have hopened := openedFrom_of_openFile opened
      rcases package_of_accept accepts with ⟨hpackage, hkept⟩
      rcases inner.fields_eq hopened with ⟨hfinal, _⟩
      have hextension : accepted.extension = extension := by
        rw [(fields_of_accept accepts).1, (fields_of_openFile opened).1]
        exact extension_eq
      have hloaded : accepted.loaded = after.loaded := (fields_of_accept accepts).2.2
      rcases holds_of_openFile opened with ⟨marked, hmarked, hholds, _⟩
      rcases openFile_new opened with ⟨own, hdenotes, _, rfl, hstands⟩
      rw [extension_eq] at hdenotes
      have hroot : final.package = some file.package := hfinal.trans hpackage
      refine ⟨?_, own, hdenotes, Or.inr ⟨file, inner.mem_files, hstands, hroot⟩⟩
      intro place hplace
      have hisOpen : (Task.file file).IsOpen disk accepted :=
        ⟨marked, by rw [hloaded]; exact hmarked, hholds⟩
      rcases inner.brought rfl hopened hisOpen trivial hextension place hplace with
        hbefore | ⟨⟨found, hfound, hplaced⟩, importer, himporter | hnone, himports⟩
      · rw [hloaded] at hbefore
        rcases List.mem_cons.1 hbefore with rfl | hold
        · exact ⟨file, inner.mem_files, hstands, Or.inl hroot⟩
        · refine (accounted place hold).mono hgrown.files_subset ?_
          intro package hset
          rw [hfinal]
          exact hkept package hset
      · exact ⟨found, hfound, hplaced, Or.inr ⟨importer, himporter, himports⟩⟩
      · cases hnone

/-- Several successful loads account for what they open. -/
theorem accounted_of_loadAll
    {paths : List String}
    (loads : set.loadAll disk paths = (final, .ok ()))
    (extension_eq : set.extension = extension)
    (accounted : ∀ place ∈ set.loaded, Accounted disk extension set place) :
    final.extension = extension ∧
      ∀ place ∈ final.loaded, Accounted disk extension final place := by
  induction paths generalizing set with
  | nil =>
      cases loads
      exact ⟨extension_eq, accounted⟩
  | cons path later ih =>
      rcases loading_of_loadAll loads with ⟨after, hloading, hlater⟩
      exact
        ih hlater (hloading.extension_eq.trans extension_eq)
          (hloading.accounted extension_eq accounted).1

/-- Loads of some files and then of others succeed one after the other. -/
theorem loadAll_append
    {earlier later : List String}
    (loads : set.loadAll disk (earlier ++ later) = (final, .ok ())) :
    ∃ middle,
      set.loadAll disk earlier = (middle, .ok ()) ∧
        middle.loadAll disk later = (final, .ok ()) := by
  induction earlier generalizing set with
  | nil =>
      exact ⟨set, rfl, loads⟩
  | cons path rest ih =>
      rcases loading_of_loadAll loads with ⟨after, hloading, hlater⟩
      rcases ih hlater with ⟨middle, hmiddle, hfinal⟩
      refine ⟨middle, ?_, hfinal⟩
      rw [loadAll, hloading.load_eq]
      exact hmiddle

end Loads

/-! ## Files that were asked for -/

/-- Each file that was asked for is a file of the set. It declares the package of the set, unless it
had been opened before it was asked for, and a file of the set imports it. -/
theorem package_of_ofPaths
    {disk : Disk}
    {earlier later : List String}
    {path : String}
    {set : FileSet}
    (loads : ofPaths disk (earlier ++ path :: later) = .ok set) :
    ∃ before place file,
      empty.loadAll disk earlier = (before, .ok ()) ∧
        disk.Denotes defaultExtension disk.home path place ∧
        file ∈ set.files ∧
        file.StandsAt disk place ∧
        (set.package = some file.package ∨
          place ∈ before.loaded ∧
            ∃ importer ∈ before.files,
              importer.ImportsFile disk defaultExtension place) := by
  rcases loadAll_append (ofPaths_eq_ok_iff.1 loads) with ⟨before, hearlier, hrest⟩
  rcases loading_of_loadAll hrest with ⟨after, hloading, hlater⟩
  have hnone : ∀ place ∈ empty.loaded, Accounted disk defaultExtension empty place := by
    intro place hmember
    cases hmember
  rcases accounted_of_loadAll hearlier rfl hnone with ⟨hextension, hbefore⟩
  have hconsistent := (loadAll_consistent disk earlier Consistent.empty).1
  rw [hearlier] at hconsistent
  rcases hloading.consistent hconsistent with ⟨hconsistentAfter, hpackage⟩
  have hpackageLater := (loadAll_consistent disk later hconsistentAfter).2
  rcases loadAll_grows disk after later with ⟨_, hgrownLater⟩
  rw [hlater] at hpackageLater hgrownLater
  have hlast := hgrownLater.files_subset
  rcases hloading.grows with ⟨_, hgrown⟩
  rcases hloading.accounted hextension hbefore with
    ⟨_, place, hdenotes, hmarked | ⟨file, hfile, hstands, hroot⟩⟩
  · rcases hbefore place hmarked with ⟨file, hfile, hstands, hreason⟩
    refine
      ⟨before, place, file, hearlier, hdenotes, hlast (hgrown.files_subset hfile), hstands, ?_⟩
    rcases hreason with hroot | himported
    · exact Or.inl (hpackageLater _ (hpackage _ hroot))
    · exact Or.inr ⟨hmarked, himported⟩
  · exact
      ⟨before, place, file, hearlier, hdenotes, hlast hfile, hstands,
        Or.inl (hpackageLater _ hroot)⟩

/-! ## Two packages in one set -/

/-- A file of one package that imports a file of another. -/
def uncheckedDisk : Disk :=
  Pair.disk "package p;import \"b\";" "package q;"

namespace Unchecked

/-- The two files, as they are read from the disk. -/
structure Read (a b : SourceFile) : Prop where
  first : SourceFile.openAt uncheckedDisk "a.yarp" = .ok a
  second : SourceFile.openAt uncheckedDisk "b.yarp" = .ok b
  path : a.path = some "a.yarp"
  bare : a.IsBare "p" ["b"]
  bareToo : b.IsBare "q" []

theorem exists_read : ∃ a b, Read a b := by
  have hfirst : uncheckedDisk.HoldsBare ["a.yarp"] "p" ["b"] :=
    Disk.holdsBare_of_text "package p;import \"b\";" rfl (by decide +kernel)
  have hsecond : uncheckedDisk.HoldsBare ["b.yarp"] "q" [] :=
    Disk.holdsBare_of_text "package q;" rfl (by decide +kernel)
  rcases SourceFile.exists_openAt_of_holdsBare (Pair.locate_first _ _) hfirst with
    ⟨a, ha, hpath, hbare⟩
  rcases SourceFile.exists_openAt_of_holdsBare (Pair.locate_second _ _) hsecond with
    ⟨b, hb, _, hbareToo⟩
  exact ⟨a, b, ha, hb, hpath, hbare, hbareToo⟩

section Orders

variable {a b : SourceFile} (read : Read a b)

include read

/-- The first file brings in the second. -/
theorem load_first :
    ∃ set,
      empty.load uncheckedDisk "a.yarp" = (set, .ok ()) ∧
        set.loaded = [["b.yarp"], ["a.yarp"]] ∧
        set.package = some "p" ∧ set.files = [b, a] := by
  have hruns :
      ∀ set : FileSet, set.extension = defaultExtension → set.loaded = [["a.yarp"]] →
        Runs uncheckedDisk (.file a) set
          (({ set with loaded := [["b.yarp"], ["a.yarp"]] }.append b).append a) (.ok ()) := by
    intro set hextension hloaded
    refine .registered ?_ (register_of_bare _ read.bare.unnamed)
    rw [read.bare.imports_eq]
    exact
      .added (Pair.open_second read.path read.second hextension hloaded)
        (.of_bare _ read.bareToo) (.done a _)
  have hrun := hruns { empty with package := some a.package, loaded := [["a.yarp"]] } rfl rfl
  exact
    ⟨_, Loading.load_eq (.added (Pair.open_first read.first) rfl hrun), rfl,
      congrArg some read.bare.package_eq, rfl⟩

theorem load_second :
    ∃ set,
      empty.load uncheckedDisk "b.yarp" = (set, .ok ()) ∧
        set.loaded = [["b.yarp"]] ∧ set.package = some "q" := by
  have hopened :
      empty.openFile uncheckedDisk "b.yarp" =
        ({ empty with loaded := [["b.yarp"]] }, .ok (some b)) :=
    openFile_of_located (Pair.locate_second _ _) rfl (by simp [empty]) read.second
  have hrun (set : FileSet) : Runs uncheckedDisk (.file b) set (set.append b) (.ok ()) :=
    .of_bare set read.bareToo
  exact
    ⟨_, Loading.load_eq (.added hopened rfl (hrun _)), rfl, congrArg some read.bareToo.package_eq⟩

/-- After the first file the second is passed over. -/
theorem ofPaths_first :
    ∃ set,
      ofPaths uncheckedDisk ["a.yarp", "b.yarp"] = .ok set ∧
        set.package = some "p" ∧ set.files = [b, a] := by
  rcases load_first read with ⟨set, hfirst, hloaded, hpackage, hfiles⟩
  have hlocated : uncheckedDisk.locate "b.yarp" = .ok ["b.yarp"] := Pair.locate_second _ _
  have hpassed : set.openFile uncheckedDisk "b.yarp" = (set, .ok none) :=
    openFile_of_mem (resolve_of_file _ hlocated rfl) hlocated (by rw [hloaded]; decide)
  refine ⟨set, ofPaths_eq_ok_iff.2 ?_, hpackage, hfiles⟩
  rw [loadAll, hfirst]
  dsimp only
  rw [loadAll, Loading.load_eq (.known hpassed)]
  rfl

/-- After the second file the first is refused. -/
theorem ofPaths_second :
    ofPaths uncheckedDisk ["b.yarp", "a.yarp"] = .error (.mixedPackages "q" a) := by
  rcases load_second read with ⟨set, hsecond, hloaded, hpackage⟩
  have hlocated : uncheckedDisk.locate "a.yarp" = .ok ["a.yarp"] := Pair.locate_first _ _
  have hopened :=
    openFile_of_located hlocated rfl (by rw [hloaded]; decide) read.first
  have hrefused :
      accept { set with loaded := ["a.yarp"] :: set.loaded } a =
        .error (.mixedPackages "q" a) := by
    unfold accept
    dsimp only
    rw [hpackage]
    exact if_neg (by rw [read.bare.package_eq]; decide)
  unfold ofPaths
  rw [loadAll, hsecond]
  dsimp only
  rw [loadAll, Loading.load_eq (.mixed hopened hrefused)]

end Orders

end Unchecked

/-- A file that was asked for may declare another package than the set, if it has been brought in
before. In the other order the same files are refused. -/
theorem not_package_of_ofPaths :
    ∃ set file importer,
      ofPaths uncheckedDisk ["a.yarp", "b.yarp"] = .ok set ∧
        set.package = some "p" ∧
        SourceFile.openAt uncheckedDisk "b.yarp" = .ok file ∧
        file ∈ set.files ∧
        file.package = "q" ∧
        ofPaths uncheckedDisk ["b.yarp", "a.yarp"] = .error (.mixedPackages "q" importer) := by
  rcases Unchecked.exists_read with ⟨a, b, hread⟩
  rcases Unchecked.ofPaths_first hread with ⟨set, hset, hpackage, hfiles⟩
  refine
    ⟨set, b, a, hset, hpackage, hread.second, ?_, hread.bareToo.package_eq,
      Unchecked.ofPaths_second hread⟩
  rw [hfiles]
  exact List.mem_cons_self

theorem package_of_ofPaths_uncheckedDisk :
    ∃ set,
      ofPaths uncheckedDisk (["a.yarp"] ++ "b.yarp" :: []) = .ok set ∧
        set.package = some "p" ∧
        ∃ before place file,
          empty.loadAll uncheckedDisk ["a.yarp"] = (before, .ok ()) ∧
            uncheckedDisk.Denotes defaultExtension uncheckedDisk.home "b.yarp" place ∧
            file ∈ set.files ∧
            file.StandsAt uncheckedDisk place ∧
            (set.package = some file.package ∨
              place ∈ before.loaded ∧
                ∃ importer ∈ before.files,
                  importer.ImportsFile uncheckedDisk defaultExtension place) := by
  rcases Unchecked.exists_read with ⟨a, b, hread⟩
  rcases Unchecked.ofPaths_first hread with ⟨set, hset, hpackage, _⟩
  exact ⟨set, hset, hpackage, package_of_ofPaths hset⟩

end FileSet
end InterfaceSchema
