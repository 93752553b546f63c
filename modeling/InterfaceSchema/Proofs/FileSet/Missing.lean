import InterfaceSchema.Proofs.FileSet.Unresolved
import InterfaceSchema.Proofs.Schema.Statements

/-!
# Missing imports

Where a load comes to an import that leads to nothing, the error points at the import statement, and
all that was to be read before it has been read.

* `FileSet.Reads.propagates`: the call of `SourceFile.openAt` that fails is the one that ends a run.
* `FileSet.ComesTo`: the imports of a file before one of them lead to files that have been opened.
* `FileSet.CallMisses.missedIn`: the file that has a missing import was opened by the same call.
* `FileSet.lacksImport_of_run`: what is known when a new set cannot be loaded for want of a file.
-/

namespace InterfaceSchema
namespace FileSet

/-! ## Calls that fail -/

section Failing

variable {disk : Disk} {set final : FileSet} {result : Except LoadError Unit}
variable {calls : List Opening}

/-- Opening a file for a set returns what the call of `SourceFile.openAt` does. -/
theorem result_of_mem_openings
    {after : FileSet}
    {path : String}
    {returned : Except LoadError (Option SourceFile)}
    {opening : Opening}
    (opened : set.openFile disk path = (after, returned))
    (member : opening ∈ set.openings disk path) :
    opening.disk = disk ∧
      (∃ place, opening.place = .ok place) ∧ returned = opening.result.map some := by
  unfold openings at member
  rcases opening?_cases opened with
    ⟨hnone, _, _⟩ | ⟨found, place, hfound, hdisk, hplace, _, _, hreturned⟩
  · rw [hnone] at member
    cases member
  · rw [hfound, Option.toList_some, List.mem_singleton] at member
    rw [member]
    exact ⟨hdisk, ⟨place, hplace⟩, hreturned⟩

/-- A call of `SourceFile.openAt` in a run reads from the disk of the run, and if it fails, then the
run fails with its error. -/
def Propagates (disk : Disk) (result : Except LoadError Unit) (opening : Opening) : Prop :=
  opening.disk = disk ∧
    ∀ error, opening.result = .error error → error.kind ≠ .notFound ∧ result = .error error

theorem propagates_of_opened
    {after : FileSet}
    {path : String}
    {found : Option SourceFile}
    (opened : set.openFile disk path = (after, .ok found)) :
    ∀ opening ∈ set.openings disk path, Propagates disk result opening := by
  intro opening hmember
  rcases result_of_mem_openings opened hmember with ⟨hdisk, _, hreturned⟩
  refine ⟨hdisk, ?_⟩
  intro error hfails
  rw [hfails] at hreturned
  cases hreturned

theorem propagates_of_openFile
    {after : FileSet}
    {path : String}
    {error : LoadError}
    (fails : set.openFile disk path = (after, .error error))
    (same : error.kind ≠ .notFound → result = .error error) :
    ∀ opening ∈ set.openings disk path, Propagates disk result opening := by
  intro opening hmember
  rcases result_of_mem_openings fails hmember with ⟨hdisk, ⟨place, hplace⟩, hreturned⟩
  refine ⟨hdisk, ?_⟩
  intro cause hcause
  have hkind := kind_of_openAt hplace hcause
  rw [hcause] at hreturned
  cases hreturned
  exact ⟨hkind, same hkind⟩

/-- The calls of a run that succeeds succeed, whatever comes after them. -/
theorem propagates_of_succeeds
    (calm : ∀ opening ∈ calls, Propagates disk (.ok ()) opening) :
    ∀ opening ∈ calls, Propagates disk result opening := by
  intro opening hmember
  rcases calm opening hmember with ⟨hdisk, hnone⟩
  refine ⟨hdisk, ?_⟩
  intro error hfails
  cases (hnone error hfails).2

/-- The call of `SourceFile.openAt` that fails is the one that ends the run. -/
theorem Reads.propagates
    {task : Task}
    (reads : Reads disk task set final result calls) :
    ∀ opening ∈ calls, Propagates disk result opening := by
  induction reads with
  | done importer set =>
      simp
  | @unopened importer set after path error later fails =>
      -- The import changes an error only if nothing is found, and then no file is opened.
      refine propagates_of_openFile fails ?_
      intro hkind
      rw [LoadError.atImport_eq_self _ _ hkind]
  | known passed rest ih =>
      exact List.forall_mem_append.2 ⟨propagates_of_opened passed, ih⟩
  | failed later opened inner ih =>
      exact List.forall_mem_append.2 ⟨propagates_of_opened opened, ih⟩
  | added opened inner rest ihFile ihLater =>
      refine List.forall_mem_append.2 ⟨List.forall_mem_append.2 ⟨?_, ?_⟩, ihLater⟩
      · exact propagates_of_opened opened
      · exact propagates_of_succeeds ihFile
  | stopped inner ih =>
      exact ih
  | refused inner refuses ih =>
      exact propagates_of_succeeds ih
  | registered inner accepts ih =>
      exact ih

theorem LoadReads.propagates
    {path : String}
    (reads : LoadReads disk set path final result calls) :
    ∀ opening ∈ calls, Propagates disk result opening := by
  cases reads with
  | unopened fails =>
      exact propagates_of_openFile fails fun _ => rfl
  | known passed =>
      exact propagates_of_opened passed
  | mixed opened refuses =>
      exact propagates_of_opened opened
  | added opened accepts inner =>
      exact List.forall_mem_append.2 ⟨propagates_of_opened opened, inner.propagates⟩

theorem CallReads.propagates
    {call : Call}
    (reads : CallReads disk call set final result calls) :
    ∀ opening ∈ calls, Propagates disk result opening := by
  induction reads with
  | load reads =>
      exact reads.propagates
  | none set =>
      simp
  | stopped later reads =>
      exact reads.propagates
  | more reads rest ih =>
      exact List.forall_mem_append.2 ⟨propagates_of_succeeds reads.propagates, ih⟩

end Failing

/-! ## The file with the missing import -/

/-- The imports of a file before the one of a path lead to files whose places are marked. -/
def ComesTo
    (disk : Disk)
    (extension : String)
    (set : FileSet)
    (importer : SourceFile)
    (path : String)
    (paths : List String) : Prop :=
  ∃ earlier later,
    paths = earlier ++ path :: later ∧
      ∀ other ∈ earlier,
        ∃ found place,
          resolve disk extension (Path.beside importer.directory other) = .ok found ∧
            disk.locate found = .ok place ∧ place ∈ set.loaded

/-- The file that has the missing import was opened by one of some calls, and its imports before the
missing one lead to files whose places are marked. -/
structure MissedIn
    (disk : Disk)
    (extension : String)
    (miss : Miss)
    (set : FileSet)
    (calls : List Opening) : Prop where
  opening : ⟨disk, miss.importer.name⟩ ∈ calls
  opened : SourceFile.openAt disk miss.importer.name = .ok miss.importer
  comesTo : ComesTo disk extension set miss.importer miss.path miss.importer.schema.imports

/-- The file whose imports a task adds, and the paths of these. -/
def Task.imported : Task → SourceFile × List String
  | .imports importer paths => (importer, paths)
  | .file opened => (opened, opened.schema.imports)

section Coming

variable {disk : Disk} {extension : String} {miss : Miss} {set after final : FileSet}
variable {calls : List Opening} {importer file : SourceFile} {path : String}

/-- Where a file has been opened or passed over, its place is marked. -/
theorem marked_of_openFile
    {found : Option SourceFile}
    (opened : set.openFile disk path = (after, .ok found)) :
    ∃ name place,
      resolve disk set.extension path = .ok name ∧
        disk.locate name = .ok place ∧ place ∈ after.loaded := by
  cases hresolved : resolve disk set.extension path with
  | error error =>
      rw [openFile_of_error hresolved] at opened
      cases opened
  | ok name =>
      rcases denotes_of_resolve hresolved with ⟨place, hlocated, _⟩
      refine ⟨name, place, rfl, hlocated, ?_⟩
      by_cases hknown : place ∈ set.loaded
      · rw [openFile_of_mem hresolved hlocated hknown] at opened
        cases opened
        exact hknown
      · rw [openFile_of_not_mem hresolved hlocated hknown] at opened
        cases congrArg Prod.fst opened
        exact List.mem_cons_self

/-- A file that is opened for a set was opened by the one call that this makes. -/
theorem mem_openings_of_openFile
    (opened : set.openFile disk path = (after, .ok (some file))) :
    ⟨disk, file.name⟩ ∈ set.openings disk path ∧
      SourceFile.openAt disk file.name = .ok file := by
  unfold openings
  rcases opening?_cases opened with
    ⟨_, _, hother⟩ | ⟨opening, place, hopening, rfl, _, _, _, hresult⟩
  · exact absurd rfl (hother file)
  · cases hread : opening.result with
    | error error =>
        rw [hread] at hresult
        cases hresult
    | ok other =>
        rw [hread] at hresult
        cases hresult
        rcases SourceFile.openAt_eq_ok hread with ⟨_, _, _, _, hname, _⟩
        rw [hopening, hname]
        exact ⟨List.mem_singleton_self opening, hread⟩

theorem ComesTo.cons
    {found : Option SourceFile}
    {other : String}
    {paths : List String}
    (opened : set.openFile disk (Path.beside importer.directory other) = (after, .ok found))
    (extension_eq : set.extension = extension)
    (kept : after.loaded ⊆ final.loaded)
    (comesTo : ComesTo disk extension final importer path paths) :
    ComesTo disk extension final importer path (other :: paths) := by
  rcases comesTo with ⟨earlier, later, rfl, hmarked⟩
  refine ⟨other :: earlier, later, rfl, ?_⟩
  intro imported himported
  rcases List.mem_cons.1 himported with rfl | hearlier
  · rcases marked_of_openFile opened with ⟨name, place, hresolved, hlocated, hplace⟩
    rw [extension_eq] at hresolved
    exact ⟨name, place, hresolved, hlocated, kept hplace⟩
  · exact hmarked imported hearlier

theorem MissedIn.behind
    (missedIn : MissedIn disk extension miss set calls)
    (others : List Opening) :
    MissedIn disk extension miss set (others ++ calls) :=
  ⟨List.mem_append_right others missedIn.opening, missedIn.opened, missedIn.comesTo⟩

/-- What is said of a file that is opened is said with the call that opens it. -/
theorem MissedIn.of_opened
    (opened : set.openFile disk path = (after, .ok (some file)))
    (missed :
      (∃ paths,
          (file, file.schema.imports) = (miss.importer, paths) ∧
            ComesTo disk extension final miss.importer miss.path paths) ∨
        MissedIn disk extension miss final calls) :
    MissedIn disk extension miss final (set.openings disk path ++ calls) := by
  rcases missed with ⟨paths, hsame, hcomes⟩ | hmissed
  · rcases mem_openings_of_openFile opened with ⟨hmember, hread⟩
    rcases Prod.mk.inj hsame with ⟨rfl, rfl⟩
    exact ⟨List.mem_append_left calls hmember, hread, hcomes⟩
  · exact hmissed.behind _

/-- A run comes to the missing import in the file of its task, or in a file that it opens. The
induction goes along the run, and the imports that it has passed are marked. -/
theorem Misses.missedIn
    {task : Task}
    (misses : Misses disk miss task set final calls)
    (extension_eq : set.extension = extension) :
    (∃ paths,
        task.imported = (miss.importer, paths) ∧
          ComesTo disk extension final miss.importer miss.path paths) ∨
      MissedIn disk extension miss final calls := by
  induction misses with
  | here later unresolved =>
      exact Or.inl ⟨_, rfl, [], later, rfl, by simp⟩
  | @known importer set after final path later calls passed rest ih =>
      have hextension := (fields_of_openFile passed).1.trans extension_eq
      rcases ih hextension with ⟨paths, hsame, hcomes⟩ | hmissed
      · rcases Prod.mk.inj hsame with ⟨rfl, rfl⟩
        exact Or.inl ⟨_, rfl, hcomes.cons passed extension_eq rest.reads.spends.loaded.subset⟩
      · exact Or.inr (hmissed.behind _)
  | inside later opened inner ih =>
      -- Should the import be one of the file just opened, then the call is the one that opened it.
      have hextension := (fields_of_openFile opened).1.trans extension_eq
      exact Or.inr (.of_opened opened (ih hextension))
  | @behind importer file set after middle final path later calls others opened inner rest ih =>
      have hopened := openedFrom_of_openFile opened
      have hafter := (fields_of_openFile opened).1.trans extension_eq
      have hmiddle := (inner.runs.fields_eq hopened).2.trans hafter
      rcases ih hmiddle with ⟨paths, hsame, hcomes⟩ | hmissed
      · rcases Prod.mk.inj hsame with ⟨rfl, rfl⟩
        have hkept := inner.spends.loaded.trans rest.reads.spends.loaded
        exact Or.inl ⟨_, rfl, hcomes.cons opened extension_eq hkept.subset⟩
      · exact Or.inr (hmissed.behind _)
  | file inner ih =>
      exact ih extension_eq

theorem LoadMisses.missedIn
    (misses : LoadMisses disk miss set path final calls)
    (extension_eq : set.extension = extension) :
    MissedIn disk extension miss final calls := by
  cases misses with
  | added opened accepts inner =>
      have hextension := (fields_of_accept accepts).1.trans (fields_of_openFile opened).1
      exact .of_opened opened (inner.missedIn (hextension.trans extension_eq))

/-- A call comes to a missing import in a file that it has opened. -/
theorem CallMisses.missedIn
    {call : Call}
    (misses : CallMisses disk miss call set final calls)
    (extension_eq : set.extension = extension) :
    MissedIn disk extension miss final calls := by
  induction misses with
  | load misses =>
      exact misses.missedIn extension_eq
  | stopped later misses =>
      exact misses.missedIn extension_eq
  | more reads rest ih =>
      exact (ih (reads.extension_eq.trans extension_eq)).behind _

end Coming

/-! ## Loads of new sets -/

/-- The file with a missing import was opened by the calls of a load, and nothing is there for the
import. The error points at the import statement, the only one with this clean path. Each statement
before it leads to a file that was opened without an error. -/
structure LacksImport
    (disk : Disk)
    (extension : String)
    (calls : List Opening)
    (importer : SourceFile)
    (path : String) : Prop where
  opening : ⟨disk, importer.name⟩ ∈ calls
  opened : SourceFile.openAt disk importer.name = .ok importer
  noFile :
    disk.isFile (Path.beside importer.directory path) = false ∧
      disk.isFile (Path.beside importer.directory path ++ "." ++ extension) = false
  statement :
    ∃ before statement after,
      importer.schema.statements = before ++ statement :: after ∧
        Path.clean statement.path = path ∧
        (∀ other ∈ before ++ after, Path.clean other.path ≠ path) ∧
        (LoadError.importNotFound path importer).labels =
          [⟨"imported here", statement.location.span⟩] ∧
        Shows importer.source.toList statement.location "import".toList ";".toList ∧
        ∀ other ∈ before,
          other.location.span.stop ≤ statement.location.span.start ∧
            ∃ found opening file,
              resolve disk extension
                  (Path.beside importer.directory (Path.clean other.path)) = .ok found ∧
                opening ∈ calls ∧
                opening.disk = disk ∧
                opening.place = disk.locate found ∧ opening.result = .ok file

section Lacking

variable {disk : Disk} {extension : String} {final : FileSet} {calls : List Opening}

/-- What a load of a new set marks was opened by it. -/
theorem CallReads.mem_of_loaded
    {call : Call}
    {result : Except LoadError Unit}
    {place : Place}
    (reads : CallReads disk call (empty.withExtension extension) final result calls)
    (marked : place ∈ final.loaded) :
    ∃ opening ∈ calls, opening.place = .ok place := by
  have hempty : Ledger [] (empty.withExtension extension) [] :=
    ⟨Ledger.empty.marked, Ledger.empty.distinct, Ledger.empty.files⟩
  have hledger := reads.ledger hempty
  rw [List.nil_append] at hledger
  have hmember : (.ok place) ∈ calls.map Opening.place := by
    rw [hledger.marked]
    exact List.mem_map_of_mem (List.mem_reverse.2 marked)
  exact List.mem_map.1 hmember

/-- A load of a new set that ends for want of a file has opened all that it has marked. -/
theorem CallReads.exists_opened
    {call : Call}
    {error : LoadError}
    {place : Place}
    (reads : CallReads disk call (empty.withExtension extension) final (.error error) calls)
    (marked : place ∈ final.loaded)
    (missing : error.kind = .notFound) :
    ∃ opening file,
      opening ∈ calls ∧
        opening.disk = disk ∧ opening.place = .ok place ∧ opening.result = .ok file := by
  rcases reads.mem_of_loaded marked with ⟨opening, hopening, hplace⟩
  rcases reads.propagates opening hopening with ⟨hdisk, hfails⟩
  cases hread : opening.result with
  | ok file =>
      exact ⟨opening, file, hopening, hdisk, hplace, hread⟩
  | error cause =>
      rcases hfails cause hread with ⟨hfound, hsame⟩
      cases hsame
      exact absurd missing hfound

theorem labels_importNotFound
    {importer : SourceFile}
    {path : String}
    {location : Location}
    (located : importer.schema.importLocation? path = some location) :
    (LoadError.importNotFound path importer).labels = [⟨"imported here", location.span⟩] := by
  simp only [LoadError.labels, LoadError.site?, located]

theorem CallMisses.lacksImport
    {call : Call}
    {importer : SourceFile}
    {path : String}
    (misses :
      CallMisses disk (.ofMissing importer path) call (empty.withExtension extension) final
        calls) :
    LacksImport disk extension calls importer path := by
  have hmissed := misses.missedIn rfl
  have hopened : SourceFile.openAt disk importer.name = .ok importer := hmissed.opened
  have hcomes : ComesTo disk extension final importer path importer.schema.imports :=
    hmissed.comesTo
  rcases SourceFile.openAt_eq_ok hopened with ⟨_, _, _, hparsed, _, _⟩
  have himports := Schema.imports_of_parse hparsed
  rcases hcomes with ⟨earlier, later, hsplit, hmarked⟩
  rcases himports.exists_statement hsplit with
    ⟨before, statement, after, hstatements, rfl, hpath, honly, hordered⟩
  have hmember : statement ∈ importer.schema.statements := by
    rw [hstatements]
    exact List.mem_append_right before List.mem_cons_self
  have hlocation := himports.located statement hmember
  rw [hpath] at hlocation
  refine
    ⟨hmissed.opening, hopened, misses.unresolved.noFile, before, statement, after,
      hstatements, hpath, honly, labels_importNotFound hlocation,
      himports.shows statement hmember, ?_⟩
  intro other hother
  refine ⟨hordered other hother, ?_⟩
  rcases hmarked _ (List.mem_map_of_mem hother) with ⟨found, place, hresolved, hlocated, hplace⟩
  rcases misses.reads.exists_opened hplace rfl with ⟨opening, file, hopening, hdisk, hat, hread⟩
  exact ⟨found, opening, file, hresolved, hopening, hdisk, hat.trans hlocated.symm, hread⟩

/-- Whatever is loaded into a new set, if the load fails for want of a file, then either a path that
was asked for leads to nothing, or an import of a file that the load has opened. In the second case
the error names that file and points at the import statement. -/
theorem lacksImport_of_run
    {disk : Disk}
    {extension : String}
    {call : Call}
    {final : FileSet}
    {error : LoadError}
    (fails : call.run (empty.withExtension extension) disk = (final, .error error)) :
    (∃ calls, CallReads disk call (empty.withExtension extension) final (.error error) calls) ∧
      ∀ calls,
        CallReads disk call (empty.withExtension extension) final (.error error) calls →
          (∀ path importer,
              error = .importNotFound path importer →
                error.file = importer.name ∧ LacksImport disk extension calls importer path) ∧
            ∀ path,
              error = .notFound path →
                path ∈ call.paths ∧
                  disk.locate path = .error .notFound ∧
                  disk.isFile (path ++ "." ++ extension) = false := by
  constructor
  · rcases Call.exists_reads call (empty.withExtension extension) disk with ⟨calls, hreads⟩
    rw [fails] at hreads
    exact ⟨calls, hreads⟩
  · intro calls hreads
    constructor
    · rintro path importer rfl
      rcases hreads.misses rfl rfl with ⟨_, _, hroot, _⟩ | ⟨other, imported, hsame, hmisses⟩
      · cases hroot
      · cases hsame
        exact ⟨rfl, hmisses.lacksImport⟩
    · rintro path rfl
      rcases hreads.misses rfl rfl with ⟨root, hmember, hsame, hunresolved⟩ | ⟨_, _, himport, _⟩
      · cases hsame
        cases hunresolved with
        | missing located noFile =>
            exact ⟨hmember, located, noFile⟩
      · cases himport

theorem lacksImport_of_run_lackingDisk :
    (∃ final importer calls,
        (Call.load "a.yarp").run (empty.withExtension "yarp") lackingDisk =
            (final, .error (.importNotFound "c" importer)) ∧
          LacksImport lackingDisk "yarp" calls importer "c") ∧
      ∃ final,
        (Call.load "c").run (empty.withExtension "yarp") lackingDisk =
            (final, .error (.notFound "c")) ∧
          lackingDisk.locate "c" = .error .notFound := by
  constructor
  · rcases exists_load_lackingDisk with ⟨final, importer, hload⟩
    have hrun :
        (Call.load "a.yarp").run (empty.withExtension "yarp") lackingDisk =
          (final, .error (.importNotFound "c" importer)) :=
      hload
    rcases lacksImport_of_run hrun with ⟨⟨calls, hreads⟩, hall⟩
    exact ⟨final, importer, calls, hrun, ((hall calls hreads).1 "c" importer rfl).2⟩
  · have hopens :
        (empty.withExtension "yarp").openFile lackingDisk "c" =
          (empty.withExtension "yarp", .error (.notFound "c")) :=
      openFile_of_error (Pair.resolve_third _ _)
    have hrun :
        (Call.load "c").run (empty.withExtension "yarp") lackingDisk =
          (empty.withExtension "yarp", .error (.notFound "c")) :=
      Loading.load_eq (.unopened hopens)
    rcases lacksImport_of_run hrun with ⟨⟨calls, hreads⟩, hall⟩
    exact ⟨_, hrun, ((hall calls hreads).2 "c" rfl).2.1⟩

end Lacking

end FileSet
end InterfaceSchema
