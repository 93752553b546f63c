import InterfaceSchema.Proofs.Failures.WellFormed
import InterfaceSchema.Proofs.FileSet.Resolution
import InterfaceSchema.Proofs.FileSet.Unresolved
import InterfaceSchema.Proofs.Schema.Statements
import InterfaceSchema.Proofs.Text.BytePosition

/-!
# Printed positions

An error in one of the files of a set points at a declaration of this file. The position that is
printed for it counts bytes, while the declaration has one that counts characters.

* `LoadError.Concerns`: the declaration that an error is about.
* `LoadError.Concerns.site?_eq`: the error points at this declaration.
* `FileSet.exists_concerns_of_run`: every error with a place in a file is about a declaration.
* `FileSet.printed_of_run`: which position is printed, and where it is the declaration's own.
-/

namespace InterfaceSchema

/-- A declaration of a file is what an error is about: the import that is not found, the clause that
names another package, or the second definition of a name. -/
inductive LoadError.Concerns : LoadError → SourceFile → Declaration → Prop
  | importing
      {importer : SourceFile}
      {statement : Import}
      (stated : .importing statement ∈ importer.schema.declarations) :
      Concerns (.importNotFound (Path.clean statement.path) importer) importer
        (.importing statement)
  | package
      {file : SourceFile}
      {clause : Package}
      (expected : String)
      (stated : .package clause ∈ file.schema.declarations) :
      Concerns (.mixedPackages expected file) file (.package clause)
  | message
      {file : SourceFile}
      {message : Message}
      (first : String)
      (stated : .message message ∈ file.schema.declarations) :
      Concerns (.duplicateMessage (QualifiedName.join file.package message.name) first file) file
        (.message message)
  | service
      {file : SourceFile}
      {service : Service}
      (first : String)
      (stated : .service service ∈ file.schema.declarations) :
      Concerns (.duplicateService service.name first file) file (.service service)

/-! ## The declaration that an error is about -/

section Declarations

variable {name text : String} {schema : Schema} (parsed : Schema.parse name text = .ok schema)

include parsed

/-- There is one package clause. -/
theorem Schema.exists_clause_of_parse :
    ∃ clause,
      schema.packageLocation? = some clause.location ∧
        ∀ other, .package other ∈ schema.declarations ↔ other = clause := by
  have htext := mapError_eq_ok_iff.1 parsed
  rcases exists_scanText_of_ofText htext with ⟨lexemes, hlexemes⟩
  rcases (ofText_eq_ok_iff hlexemes).1 htext with ⟨declarations, hspelled, _, rfl⟩
  rcases exists_laid_of_scanText hlexemes with ⟨front, last, stop, rfl, _, _⟩
  rcases exists_clause_of_spelled hspelled ⟨0, 0⟩ with ⟨clause, hlocation, honly⟩
  refine ⟨clause, hlocation, ?_⟩
  intro other
  have hfilter :
      .package other ∈ declarations.filter (Cause.repeats (.duplicatePackage ⟨0, 0⟩)) ↔
        .package other ∈ declarations :=
    ⟨fun hmember => (List.mem_filter.1 hmember).1, fun hmember => List.mem_filter.2 ⟨hmember, rfl⟩⟩
  rw [declarations_ofDeclarations, ← hfilter, honly, List.mem_singleton, Declaration.package.injEq]

/-- A message or service is found by its name. -/
theorem Schema.declarationLocation?_of_parse
    {declaration : Declaration}
    {shown : String}
    (stated : declaration ∈ schema.declarations)
    (named : declaration.name? = some shown) :
    schema.declarationLocation? shown = some declaration.location := by
  have htext := mapError_eq_ok_iff.1 parsed
  rcases exists_scanText_of_ofText htext with ⟨lexemes, hlexemes⟩
  rcases (ofText_eq_ok_iff hlexemes).1 htext with ⟨declarations, _, hdistinct, rfl⟩
  have hnames := hdistinct.names
  rw [← declarations_ofDeclarations declarations] at hnames
  exact
    (declarationLocation?_eq_some_iff (ofDeclarations_faithful declarations) hnames).2
      ⟨declaration, ⟨stated, named⟩, rfl⟩

/-- A declaration begins with a word, at the position that counting from the start of the text
gives. -/
theorem Declaration.exists_start
    {declaration : Declaration}
    (stated : declaration ∈ schema.declarations) :
    ∃ before c behind,
      text.toList = before ++ c :: behind ∧
        c ≠ '\n' ∧
        declaration.location.span.start = byteLength before ∧
        declaration.location.start = Position.after before := by
  have hshows := (nested_of_parse parsed).shows (List.mem_map_of_mem stated)
  rw [Declaration.location_site] at hshows
  have hword :
      declaration.site.outline.opening.toList ≠ [] ∧
        '\n' ∉ declaration.site.outline.opening.toList := by
    cases declaration with
    | package clause =>
        exact (by decide : "package".toList ≠ [] ∧ '\n' ∉ "package".toList)
    | importing statement =>
        exact (by decide : "import".toList ≠ [] ∧ '\n' ∉ "import".toList)
    | message message =>
        exact (by decide : "message".toList ≠ [] ∧ '\n' ∉ "message".toList)
    | service service =>
        exact (by decide : "service".toList ≠ [] ∧ '\n' ∉ "service".toList)
  rcases List.exists_cons_of_ne_nil hword.1 with ⟨c, rest, hopening⟩
  rcases hshows with ⟨before, slice, behind, hcovers, _, ⟨more, rfl⟩, _⟩
  have hc : c ≠ '\n' := by
    rintro rfl
    exact hword.2 (by rw [hopening]; exact List.mem_cons_self)
  refine ⟨before, c, rest ++ more ++ behind, ?_, hc, hcovers.cuts.start, ?_⟩
  · rw [hcovers.cuts.whole, hopening]
    simp
  · rw [hcovers.start, Position.after_eq]

end Declarations

/-- An error points at the declaration that it is about. -/
theorem LoadError.Concerns.site?_eq
    {disk : Disk}
    {error : LoadError}
    {file : SourceFile}
    {declaration : Declaration}
    (concerns : error.Concerns file declaration)
    (opened : file.OpenedFrom disk) :
    declaration ∈ file.schema.declarations ∧
      ∃ remark, error.site? = some (file, remark, some declaration.location) := by
  rcases opened with ⟨path, hopened⟩
  rcases SourceFile.openAt_eq_ok hopened with ⟨_, _, _, hparsed, _, _⟩
  cases concerns with
  | importing stated =>
      have hlocated :=
        (Schema.imports_of_parse hparsed).located _ (Schema.mem_statements.2 stated)
      refine ⟨stated, "imported here", ?_⟩
      simp only [site?, hlocated, Declaration.location]
  | package expected stated =>
      rcases Schema.exists_clause_of_parse hparsed with ⟨clause, hlocated, honly⟩
      cases (honly _).1 stated
      refine ⟨stated, "package declared here", ?_⟩
      simp only [site?, hlocated, Declaration.location]
  | @message _ message first stated =>
      have hlocated := Schema.declarationLocation?_of_parse hparsed stated rfl
      have hbare : '.' ∉ message.name.toList :=
        Schema.dotless_of_ofText (mapError_eq_ok_iff.1 hparsed) _ stated _ rfl
      refine ⟨stated, "defined again here", ?_⟩
      simp only [site?, QualifiedName.split_join _ hbare, hlocated]
  | service first stated =>
      have hlocated := Schema.declarationLocation?_of_parse hparsed stated rfl
      refine ⟨stated, "defined again here", ?_⟩
      simp only [site?, hlocated]

namespace FileSet

/-! ## Errors with a place -/

/-- An error points into no file, or it is about a declaration of a file of the disk. -/
def IsPlaced (disk : Disk) (error : LoadError) : Prop :=
  error.site? = none ∨
    ∃ file declaration, file.OpenedFrom disk ∧ error.Concerns file declaration

/-- The file of a task was read from the disk, and the imports to add are imports of this file. -/
def Task.Own (disk : Disk) : Task → Prop
  | .imports importer paths => importer.OpenedFrom disk ∧ paths ⊆ importer.schema.imports
  | .file opened => opened.OpenedFrom disk

section Placing

variable {disk : Disk} {set final : FileSet} {error : LoadError} {chain : List String}

theorem site?_of_openAt
    {path : String}
    (fails : SourceFile.openAt disk path = .error error) :
    error.site? = none := by
  unfold SourceFile.openAt at fails
  split at fails
  · cases fails
    rfl
  · cases fails
    rfl
  · split at fails
    · cases fails
      rfl
    · split at fails
      · cases fails
        rfl
      · cases fails

/-- A file that cannot be opened has no text to point into. -/
theorem site?_of_openFile
    {after : FileSet}
    {path : String}
    (fails : set.openFile disk path = (after, .error error)) :
    error.site? = none := by
  rcases openFile_error_cases fails with hresolved | ⟨found, _, hfault | hread⟩
  · cases resolve_eq_error_iff.1 hresolved <;> rfl
  · rcases hfault with ⟨fault, _, rfl⟩
    rfl
  · rcases hread with ⟨_, _, _, hread⟩
    exact site?_of_openAt hread

/-- An import that is not found is an error of the file that has it. -/
theorem isPlaced_atImport
    {importer : SourceFile}
    {path : String}
    (opened : importer.OpenedFrom disk)
    (imported : path ∈ importer.schema.imports)
    (unplaced : error.site? = none) :
    IsPlaced disk (error.atImport importer path) := by
  cases error with
  | notFound other =>
      have hopened := opened
      rcases hopened with ⟨name, hopened⟩
      rcases SourceFile.openAt_eq_ok hopened with ⟨_, _, _, hparsed, _, _⟩
      rw [(Schema.imports_of_parse hparsed).paths] at imported
      rcases List.mem_map.1 imported with ⟨statement, hstatement, rfl⟩
      exact Or.inr ⟨importer, _, opened, .importing (Schema.mem_statements.1 hstatement)⟩
  | _ =>
      exact Or.inl unplaced

theorem isPlaced_of_register
    {file : SourceFile}
    (opened : file.OpenedFrom disk)
    (refuses : set.register file = .error error) :
    IsPlaced disk error := by
  rcases exists_repeated_of_register refuses with
    ⟨message, first, hstated, rfl⟩ | ⟨service, first, hstated, rfl⟩
  · exact Or.inr ⟨file, _, opened, .message first hstated⟩
  · exact Or.inr ⟨file, _, opened, .service first hstated⟩

theorem isPlaced_of_accept
    {file : SourceFile}
    (opened : file.OpenedFrom disk)
    (refuses : set.accept file = .error error) :
    IsPlaced disk error := by
  rcases exists_mixed_of_accept refuses with ⟨expected, rfl⟩
  have hopened := opened
  rcases hopened with ⟨name, hopened⟩
  rcases SourceFile.openAt_eq_ok hopened with ⟨_, _, _, hparsed, _, _⟩
  rcases Schema.exists_clause_of_parse hparsed with ⟨clause, _, honly⟩
  exact Or.inr ⟨file, _, opened, .package expected ((honly clause).2 rfl)⟩

/-- A run that fails does so with an error that is placed. -/
theorem Unwinds.isPlaced
    {task : Task}
    (unwinds : Unwinds disk task set final error chain)
    (own : task.Own disk) :
    IsPlaced disk error := by
  induction unwinds with
  | unopened later fails =>
      exact isPlaced_atImport own.1 (own.2 List.mem_cons_self) (site?_of_openFile fails)
  | known passed rest ih =>
      exact ih ⟨own.1, fun _ hmember => own.2 (List.mem_cons_of_mem _ hmember)⟩
  | failed later opened inner ih =>
      exact ih (openedFrom_of_openFile opened)
  | added opened inner rest ih =>
      exact ih ⟨own.1, fun _ hmember => own.2 (List.mem_cons_of_mem _ hmember)⟩
  | stopped inner ih =>
      exact ih ⟨own, List.Subset.refl _⟩
  | refused inner refuses =>
      exact isPlaced_of_register own refuses

theorem LoadUnwinds.isPlaced
    {path : String}
    (unwinds : LoadUnwinds disk set path final error chain) :
    IsPlaced disk error := by
  cases unwinds with
  | unopened fails =>
      exact Or.inl (site?_of_openFile fails)
  | mixed opened refuses =>
      exact isPlaced_of_accept (openedFrom_of_openFile opened) refuses
  | added opened accepts inner =>
      exact inner.isPlaced (openedFrom_of_openFile opened)

theorem isPlaced_of_run
    {call : Call}
    (fails : call.run set disk = (final, .error error)) :
    IsPlaced disk error := by
  rcases Call.exists_unwinds fails with ⟨chain, hunwinds⟩
  cases hunwinds with
  | load hfails =>
      exact hfails.isPlaced
  | loadAll later succeeds hfails =>
      exact hfails.isPlaced

end Placing

/-! ## The position that is printed -/

/-- The text of an error with a place. -/
theorem describe_of_site
    {error : LoadError}
    {file : SourceFile}
    {declaration : Declaration}
    {remark : String}
    (concerns : error.Concerns file declaration)
    (site : error.site? = some (file, remark, some declaration.location)) :
    error.labels = [⟨remark, declaration.location.span⟩] ∧
      error.describe =
        file.name ++ ":" ++
            (bytePosition file.source.toList declaration.location.span.start).display ++
          ": " ++ error.message := by
  cases concerns <;>
    simp only [LoadError.labels, LoadError.describe, site, and_self]

/-- An error that points into the text of a file points at the declaration that it is about. The
position it is printed with counts bytes, and is that of the declaration just if no carriage return
before the declaration stands alone, and every character before it on its line has one byte. -/
theorem printed_of_run
    {disk : Disk}
    {set final : FileSet}
    {call : Call}
    {error : LoadError}
    (fails : call.run set disk = (final, .error error)) :
    error.site? = none ∨
      ∃ file declaration remark before behind,
        file.OpenedFrom disk ∧
          error.Concerns file declaration ∧
          error.labels = [⟨remark, declaration.location.span⟩] ∧
          file.source.toList = before ++ behind ∧
          declaration.location.span.start = byteLength before ∧
          declaration.location.start = Position.after before ∧
          error.describe =
            file.name ++ ":" ++
                (bytePosition file.source.toList declaration.location.span.start).display ++
              ": " ++ error.message ∧
          (bytePosition file.source.toList declaration.location.span.start =
              declaration.location.start ↔
            loneReturns before = 0 ∧ ∀ c ∈ Position.lastLine before, c.utf8Size = 1) := by
  rcases isPlaced_of_run fails with hnone | ⟨file, declaration, hopened, hconcerns⟩
  · exact Or.inl hnone
  rcases hconcerns.site?_eq hopened with ⟨hstated, remark, hsite⟩
  rcases describe_of_site hconcerns hsite with ⟨hlabels, hdescribe⟩
  have hread := hopened
  rcases hread with ⟨path, hread⟩
  rcases SourceFile.openAt_eq_ok hread with ⟨_, _, _, hparsed, _, _⟩
  rcases Declaration.exists_start hparsed hstated with
    ⟨before, c, behind, htext, hc, hstart, hposition⟩
  refine
    Or.inr
      ⟨file, declaration, remark, before, c :: behind, hopened, hconcerns, hlabels, htext, hstart,
        hposition, hdescribe, ?_⟩
  rw [htext, hstart, hposition]
  exact bytePosition_eq_after_iff behind hc before

theorem printed_of_run_lackingDisk :
    ∃ final importer,
      (Call.load "a.yarp").run empty lackingDisk =
          (final, .error (.importNotFound "c" importer)) ∧
        ∃ file declaration remark before behind,
          file.OpenedFrom lackingDisk ∧
            (LoadError.importNotFound "c" importer).Concerns file declaration ∧
            (LoadError.importNotFound "c" importer).labels =
              [⟨remark, declaration.location.span⟩] ∧
            file.source.toList = before ++ behind ∧
            declaration.location.span.start = byteLength before ∧
            declaration.location.start = Position.after before ∧
            (LoadError.importNotFound "c" importer).describe =
              file.name ++ ":" ++
                  (bytePosition file.source.toList declaration.location.span.start).display ++
                ": " ++ (LoadError.importNotFound "c" importer).message ∧
            (bytePosition file.source.toList declaration.location.span.start =
                declaration.location.start ↔
              loneReturns before = 0 ∧ ∀ c ∈ Position.lastLine before, c.utf8Size = 1) := by
  rcases exists_load_lackingDisk with ⟨final, importer, hload⟩
  have hrun :
      (Call.load "a.yarp").run empty lackingDisk =
        (final, .error (.importNotFound "c" importer)) :=
    hload
  rcases printed_of_run hrun with hnone | hplaced
  · cases hnone
  · exact ⟨final, importer, hrun, hplaced⟩

/-! ## Positions that differ -/

/-- A file holds the text that its bytes encode. -/
theorem source_of_openAt
    {disk : Disk}
    {path text : String}
    {place : Place}
    {file : SourceFile}
    (located : disk.locate path = .ok place)
    (found : disk.get? place = some (.file text.toUTF8))
    (opened : SourceFile.openAt disk path = .ok file) :
    file.source = text := by
  rcases SourceFile.openAt_eq_ok opened with ⟨bytes, hread, hdecoded, _, _, _⟩
  have hbytes : disk.read path = .ok text.toUTF8 := by
    unfold Disk.read
    rw [located]
    dsimp only
    rw [found]
  have hsame : String.fromUTF8? text.toUTF8 = some text := dif_pos text.isValidUTF8
  rw [hbytes, Except.ok.injEq] at hread
  rw [← hread, hsame, Option.some.injEq] at hdecoded
  exact hdecoded.symm

/-- The load of a file with a given text fails for want of a file that it imports. The error is
printed with one position, and the import statement has another. -/
def PrintsFor (text : String) (printed recorded : Position) : Prop :=
  ∃ final importer statement,
    (Call.load "a.yarp").run empty (Pair.disk text "package p;") =
        (final, .error (.importNotFound "c" importer)) ∧
      importer.source = text ∧
      (LoadError.importNotFound "c" importer).Concerns importer (.importing statement) ∧
      statement.location.start = recorded ∧
      (LoadError.importNotFound "c" importer).describe =
        "a.yarp:" ++ printed.display ++ ": import 'c' not found (imported by 'a.yarp')"

theorem printsFor_of_text
    {text : String}
    {printed : Position}
    {statement : Import}
    (holds : (Pair.disk text "package p;").HoldsBare ["a.yarp"] "p" ["b", "c"])
    (reads :
      ((Schema.parse "a.yarp" text).toOption.bind fun schema => schema.statements.getLast?) =
        some statement)
    (path : statement.path = "c")
    (prints : bytePosition text.toList statement.location.span.start = printed) :
    PrintsFor text printed statement.location.start := by
  have hsecond : (Pair.disk text "package p;").HoldsBare ["b.yarp"] "p" [] :=
    Disk.holdsBare_of_text "package p;" rfl (by decide +kernel)
  rcases Pair.exists_load holds hsecond with ⟨final, importer, hload, hopened⟩
  have hfound :
      (Pair.disk text "package p;").get? ["a.yarp"] = some (.file text.toUTF8) :=
    rfl
  have hsource : importer.source = text :=
    source_of_openAt (Pair.locate_first text "package p;") hfound hopened
  rcases SourceFile.openAt_eq_ok hopened with ⟨_, _, _, hparsed, hname, _⟩
  rw [hsource] at hparsed
  rw [hparsed] at reads
  have hstated : .importing statement ∈ importer.schema.declarations :=
    Schema.mem_statements.1 (List.mem_of_getLast? reads)
  have hconcerns := LoadError.Concerns.importing hstated
  have hclean : Path.clean "c" = "c" := by decide +kernel
  rw [path, hclean] at hconcerns
  rcases hconcerns.site?_eq ⟨_, hopened⟩ with ⟨_, remark, hsite⟩
  refine ⟨final, importer, statement, hload, hsource, hconcerns, rfl, ?_⟩
  rw [(describe_of_site hconcerns hsite).2, hsource, hname]
  have hlocation : (Declaration.importing statement).location = statement.location := rfl
  have hmessage :
      (LoadError.importNotFound "c" importer).message =
        "import 'c' not found (imported by 'a.yarp')" := by
    have hwording :
        (LoadError.importNotFound "c" importer).message =
          "import '" ++ "c" ++ "' not found (imported by '" ++ importer.name ++ "')" :=
      rfl
    rw [hwording, hname]
    decide +kernel
  have hopening : "a.yarp" ++ ":" = "a.yarp:" := by decide +kernel
  have hclosing :
      ": " ++ "import 'c' not found (imported by 'a.yarp')" =
        ": import 'c' not found (imported by 'a.yarp')" := by
    decide +kernel
  rw [hlocation, prints, hmessage, hopening, String.append_assoc, hclosing]

/-- A file with a carriage return before an import. -/
def returnedText : String :=
  "package p;import \"b\";\rimport \"c\";"

/-- A file with a character of two bytes before an import on the same line. -/
def accentedText : String :=
  "package p;import \"é/../b\";import \"c\";"

/-- For either file the error is printed with a position that its import statement does not have. -/
theorem not_printed_of_run :
    PrintsFor returnedText ⟨2, 1⟩ ⟨1, 23⟩ ∧ PrintsFor accentedText ⟨1, 28⟩ ⟨1, 27⟩ := by
  have hreturned :
      ((Schema.parse "a.yarp" returnedText).toOption.bind fun schema =>
          schema.statements.getLast?) =
        some ⟨⟨⟨1, 23⟩, ⟨1, 34⟩, ⟨22, 33⟩⟩, "c"⟩ := by
    decide +kernel
  have haccented :
      ((Schema.parse "a.yarp" accentedText).toOption.bind fun schema =>
          schema.statements.getLast?) =
        some ⟨⟨⟨1, 27⟩, ⟨1, 38⟩, ⟨27, 38⟩⟩, "c"⟩ := by
    decide +kernel
  constructor
  · exact
      printsFor_of_text (Disk.holdsBare_of_text returnedText rfl (by decide +kernel)) hreturned rfl
        (by decide +kernel)
  · exact
      printsFor_of_text (Disk.holdsBare_of_text accentedText rfl (by decide +kernel)) haccented rfl
        (by decide +kernel)

end FileSet
end InterfaceSchema
