import InterfaceSchema.Proofs.Failures.Repetition
import InterfaceSchema.Proofs.Notes.Attached
import InterfaceSchema.Proofs.Path.Clean
import InterfaceSchema.Proofs.Schema.Statements

/-!
# Imports that mean the same

An import is refused as a repetition just if its path means the same as that of an import before it.

* `OpeningPhrase`: a package clause and imports, with nothing else behind them.
* `Schema.ofLexemes_of_sameMeaning`: an import that means the same as one of these is refused.
* `Schema.exists_sameMeaning_of_ofLexemes`: only such an import is.
* `clean_decides_meaning`: clean paths as normal forms, and what this says about imports.
-/

namespace InterfaceSchema

/-- A package clause and imports, with trivia before and between them. -/
inductive OpeningPhrase : List Lexeme → Package → List Import → Prop
  | mk
      {leading clauseLexemes importLexemes : List Lexeme}
      {clause : Package}
      {statements : List Import}
      {margin : Margin}
      (idle : ∀ lexeme ∈ leading, lexeme.IsIdle)
      (packaged : PackagePhrase clauseLexemes clause)
      (imported : ImportBlock .clear importLexemes statements margin) :
      OpeningPhrase (leading ++ (clauseLexemes ++ importLexemes)) clause statements

theorem OpeningPhrase.schemaPhrase
    {lexemes : List Lexeme}
    {clause : Package}
    {statements : List Import}
    (opening : OpeningPhrase lexemes clause statements)
    (stop : Location) :
    SchemaPhrase (lexemes ++ [⟨.eof, stop⟩]) (.package clause :: statements.map .importing) := by
  cases opening with
  | @mk leading clauseLexemes importLexemes clause statements margin idle packaged imported =>
      simpa using SchemaPhrase.mk stop idle packaged imported (.nil margin)

/-- A list is cut in one way only at the element with a given key, if the keys are distinct. -/
theorem append_cons_inj_of_key
    {α β : Type}
    {key : α → β}
    {first second behind later : List α}
    {one other : α}
    (distinct : ((first ++ one :: behind).map key).Nodup)
    (same : first ++ one :: behind = second ++ other :: later)
    (keys : key one = key other) :
    first = second ∧ one = other ∧ behind = later := by
  rw [List.map_append, List.map_cons, List.nodup_middle, ← List.map_append, keys] at distinct
  have hother : other ∉ first ++ behind := fun hmember =>
    (List.nodup_cons.1 distinct).1 (List.mem_map_of_mem hmember)
  rw [List.mem_append, not_or] at hother
  exact (List.append_cons_inj_of_notMem hother.1 hother.2).1 same

namespace Grammar

/-- An import whose clean path the schema has is refused. -/
theorem imports_of_known
    {schema : Schema}
    {cursor : Cursor}
    {path : String}
    {start place stop first : Location}
    {rest : List Lexeme}
    (known : schema.importLocation? (Path.clean path) = some first)
    (ahead :
      cursor.ahead =
        ⟨.importWord, start⟩ :: ⟨.stringLiteral path, place⟩ :: ⟨.semicolon, stop⟩ :: rest) :
    imports schema cursor =
      .error ⟨.duplicateImport path first.span, (start.through stop).span⟩ := by
  rcases Cursor.exists_take? ahead with ⟨word, hword, rfl⟩
  have hcovers := (Cursor.take?_covers (by simp [Token.importWord]) hword).detach
  have hnone : cursor.trivia? = none :=
    Cursor.trivia?_eq_none ahead (by simp [Token.importWord]) (by simp [Token.importWord])
  rcases (Cursor.select_reads .importPath rfl).andThen_complete hcovers
      [⟨.stringLiteral path, place⟩] _ (path, place)
      ⟨_, Token.stringLiteral?_eq_some_iff.2 rfl, rfl⟩ trivial ahead with
    ⟨literal, hliteral, hpath, hliteralCovers⟩
  rcases (Cursor.expect_reads (by simp)).andThen_complete hliteralCovers
      [⟨.semicolon, stop⟩] rest stop rfl trivial ahead with
    ⟨close, hclose, rfl, _⟩
  have hrefused :
      importing schema word.detach =
        .error ⟨.duplicateImport path first.span, (word.value.through close.value).span⟩ := by
    simp only [importing, hliteral, hclose, hpath, known, bind, Except.bind]
    rfl
  rw [imports, hnone, hword]
  simp only [hrefused, bind, Except.bind]

end Grammar

/-! ## Behind a package clause and imports -/

theorem importPaths_opening (clause : Package) (statements : List Import) :
    importPaths (.package clause :: statements.map .importing) =
      statements.map fun statement => Path.clean statement.path := by
  unfold importPaths
  rw [List.filterMap_cons_none rfl, List.filterMap_map, ← List.filterMap_eq_map]
  rfl

section Opening

variable {before rest : List Lexeme} {clause : Package} {statements : List Import}
variable {path : String} {start place stop : Location}
variable
  (apart : statements.Pairwise fun one other => ¬ Path.SameMeaning one.path other.path)

include apart

/-- Imports that mean different things can stand in one text. -/
theorem distinct_opening : Schema.Distinct (.package clause :: statements.map .importing) where
  names := by
    rw [declaredNames_opening]
    exact List.nodup_nil
  imports := by
    rw [importPaths_opening, List.Nodup, List.pairwise_map]
    refine apart.imp ?_
    intro one other hother hsame
    exact hother (Path.clean_eq_iff.1 hsame)

/-- An import is found by every path that means the same as its own. -/
theorem importLocation?_opening_eq_some_iff {first : Location} :
    (Schema.ofDeclarations (.package clause :: statements.map .importing)).importLocation?
        (Path.clean path) = some first ↔
      ∃ statement ∈ statements,
        Path.SameMeaning statement.path path ∧ statement.location = first := by
  have hdistinct : (importPaths (.package clause :: statements.map .importing)).Nodup :=
    (distinct_opening apart).imports
  have hnoItems : ∀ item ∈ ([] : List Declaration), item.IsNamed := by simp
  have hstatements :
      (Schema.ofDeclarations
        (.package clause :: (statements.map .importing ++ []))).statements = statements :=
    Schema.statements_ofDeclarations hnoItems
  rw [List.append_nil] at hstatements
  rw [← Schema.declarations_ofDeclarations (.package clause :: _)] at hdistinct
  rw [Schema.importLocation?_eq_some_iff hdistinct, hstatements]
  rw [Schema.declarations_ofDeclarations, importPaths_opening] at hdistinct
  simp only [filter_map_eq_singleton_iff hdistinct, Path.clean_eq_iff, and_assoc]

variable (opening : OpeningPhrase before clause statements)

include opening

/-- Behind imports, one that means the same as one of them is refused. -/
theorem Schema.ofLexemes_of_sameMeaning
    (eof : Location)
    {statement : Import}
    (member : statement ∈ statements)
    (same : Path.SameMeaning statement.path path) :
    ofLexemes eof
        (before ++
          ⟨.importWord, start⟩ :: ⟨.stringLiteral path, place⟩ :: ⟨.semicolon, stop⟩ :: rest) =
      .error
        ⟨.duplicateImport path statement.location.span, (start.through stop).span⟩ := by
  cases opening with
  | @mk leading clauseLexemes importLexemes clause statements margin idle packaged imported =>
      have hknown :
          (ofDeclarations (.package clause :: statements.map .importing)).importLocation?
            (Path.clean path) = some statement.location :=
        (importLocation?_opening_eq_some_iff apart).2 ⟨statement, member, same, rfl⟩
      rcases exists_ofLexemes_imports eof idle packaged imported (distinct_opening apart).imports
          rfl with
        ⟨after, hafter, hrest, _⟩
      rw [Grammar.imports_of_known hknown hrest] at hafter
      rw [List.append_assoc, List.append_assoc, hafter]
      rfl

/-- An import that is refused as a repetition means the same as one before it. -/
theorem Schema.exists_sameMeaning_of_ofLexemes
    {eof : Location}
    {first : Span}
    (starts :
      ((before ++
          ⟨.importWord, start⟩ :: ⟨.stringLiteral path, place⟩ :: ⟨.semicolon, stop⟩ ::
            rest).map fun lexeme => lexeme.location.span.start).Nodup)
    (fails :
      ofLexemes eof
          (before ++
            ⟨.importWord, start⟩ :: ⟨.stringLiteral path, place⟩ :: ⟨.semicolon, stop⟩ :: rest) =
        .error ⟨.duplicateImport path first, (start.through stop).span⟩) :
    ∃ statement ∈ statements,
      Path.SameMeaning statement.path path ∧ statement.location.span = first := by
  rcases ofLexemes_fails fails with
    hlocal | ⟨front, rest', declarations, hsplit, hphrase, hdistinct, hrepeats⟩
  · cases hlocal
  generalize hfailure :
    (⟨.duplicateImport path first, (start.through stop).span⟩ : Failure) = failure at hrepeats
  cases hrepeats with
  | package other later known =>
      cases hfailure
  | name start' place' later opens known =>
      cases hfailure
  | @importing path' first' start' place' stop' later known =>
      rw [Failure.mk.injEq, Cause.duplicateImport.injEq] at hfailure
      rcases hfailure with ⟨⟨rfl, rfl⟩, hspan⟩
      -- The failure shows where its import begins, and no other lexeme begins there.
      have hstart : start.span.start = start'.span.start :=
        congrArg (fun span => span.start) hspan
      rcases append_cons_inj_of_key starts hsplit hstart with ⟨rfl, _⟩
      have hread :
          ofLexemes eof (before ++ [⟨.eof, eof⟩]) =
            .ok (ofDeclarations (.package clause :: statements.map .importing)) :=
        ofLexemes_complete (opening.schemaPhrase eof) (distinct_opening apart)
      rw [ofLexemes_complete (hphrase eof) hdistinct, Except.ok.injEq] at hread
      rw [hread] at known
      rcases (importLocation?_opening_eq_some_iff apart).1 known with
        ⟨statement, hmember, hsame, hlocation⟩
      exact ⟨statement, hmember, hsame, congrArg Location.span hlocation⟩

end Opening

/-! ## Texts -/

/-- The imports of one text mean different things. -/
theorem Schema.statements_apart
    {file text : String}
    {schema : Schema}
    (parsed : parse file text = .ok schema) :
    schema.statements.Pairwise fun one other => ¬ Path.SameMeaning one.path other.path := by
  have himports := imports_of_parse parsed
  have hdistinct := himports.distinct
  rw [himports.paths, List.Nodup, List.pairwise_map] at hdistinct
  refine hdistinct.imp ?_
  intro one other hother hsame
  exact hother (Path.clean_eq_iff.2 hsame)

/-- Reading a text whose lexemes are known fails just as reading these does. -/
theorem exists_parse_error_iff
    {file text : String}
    {lexemes : List Lexeme}
    {cause : Cause}
    {span : Span}
    (scanned : scan file text = .ok lexemes) :
    (∃ error, Schema.parse file text = .error error ∧ error.cause = cause ∧ error.span = span) ↔
      Schema.ofLexemes
          ((LineIndex.ofText text.toList).locate
            ⟨byteLength text.toList, byteLength text.toList⟩) lexemes =
        .error ⟨cause, span⟩ := by
  have hscanned := mapError_eq_ok_iff.1 scanned
  simp only [Schema.parse, Schema.ofText, hscanned, mapError_eq_error_iff, bind, Except.bind]
  constructor
  · rintro ⟨_, ⟨failure, hfails, rfl⟩, rfl, rfl⟩
    exact hfails
  · intro hfails
    exact ⟨_, ⟨_, hfails, rfl⟩, rfl, rfl⟩

/-- Clean paths decide whether two paths mean the same: each path has one clean form, which cleaning
leaves as it is, and the clean form of a path read from a directory depends on the clean forms of
both only. So the imports of one text mean different things, and one behind others is refused just
if it means the same as one of them. -/
theorem clean_decides_meaning :
    (∀ path other, Path.clean path = Path.clean other ↔ Path.SameMeaning path other) ∧
      (∀ path, Path.clean (Path.clean path) = Path.clean path) ∧
      (∀ path,
        Path.clean path ≠ "" ∧
          (Path.clean path = "." ∨
            Path.clean path = "/" ∨
            Path.IsNormal (Path.isRooted (Path.clean path))
              (Path.componentsBelow (Path.clean path)))) ∧
      (∀ directory path,
        directory ≠ "" →
          Path.isRooted path = false →
          Path.clean (directory ++ "/" ++ path) =
            Path.clean (Path.clean directory ++ "/" ++ Path.clean path)) ∧
      (∀ file text schema,
        Schema.parse file text = .ok schema →
          schema.statements.Pairwise fun one other => ¬ Path.SameMeaning one.path other.path) ∧
      ∀ file text before clause statements path start place stop rest first,
        scan file text =
            .ok
              (before ++
                ⟨.importWord, start⟩ :: ⟨.stringLiteral path, place⟩ :: ⟨.semicolon, stop⟩ ::
                  rest) →
          OpeningPhrase before clause statements →
          (statements.Pairwise fun one other => ¬ Path.SameMeaning one.path other.path) →
          ((∃ error,
              Schema.parse file text = .error error ∧
                error.cause = .duplicateImport path first ∧
                error.span = (start.through stop).span) ↔
            ∃ statement ∈ statements,
              Path.SameMeaning statement.path path ∧ statement.location.span = first) := by
  refine
    ⟨fun _ _ => Path.clean_eq_iff, Path.clean_clean,
      fun path => ⟨Path.clean_ne_empty path, Path.isNormal_clean path⟩,
      fun _ _ => Path.clean_append_slash, fun _ _ _ => Schema.statements_apart, ?_⟩
  intro file text before clause statements path start place stop rest first hscanned hopening hapart
  rw [exists_parse_error_iff hscanned]
  constructor
  · intro hfails
    have hstarts := scanText_starts (mapError_eq_ok_iff.1 hscanned)
    refine Schema.exists_sameMeaning_of_ofLexemes hapart hopening ?_ hfails
    rw [List.Nodup, List.pairwise_map]
    exact hstarts.imp Nat.ne_of_lt
  · rintro ⟨statement, hmember, hsame, rfl⟩
    exact Schema.ofLexemes_of_sameMeaning hapart hopening _ hmember hsame

/-- Two imports that mean the same. -/
def doubledText : String :=
  "package p;import \"b/../c\";import \"./c\";"

/-- What stands before the second import of `doubledText`. -/
def doubledOpening : List Lexeme :=
  [⟨.packageWord, ⟨⟨1, 1⟩, ⟨1, 8⟩, ⟨0, 7⟩⟩⟩, ⟨.ident "p", ⟨⟨1, 9⟩, ⟨1, 10⟩, ⟨8, 9⟩⟩⟩,
    ⟨.semicolon, ⟨⟨1, 10⟩, ⟨1, 11⟩, ⟨9, 10⟩⟩⟩, ⟨.importWord, ⟨⟨1, 11⟩, ⟨1, 17⟩, ⟨10, 16⟩⟩⟩,
    ⟨.stringLiteral "b/../c", ⟨⟨1, 18⟩, ⟨1, 26⟩, ⟨17, 25⟩⟩⟩,
    ⟨.semicolon, ⟨⟨1, 26⟩, ⟨1, 27⟩, ⟨25, 26⟩⟩⟩]

theorem openingPhrase_doubledOpening :
    OpeningPhrase doubledOpening ⟨⟨⟨1, 1⟩, ⟨1, 11⟩, ⟨0, 10⟩⟩, "p"⟩
      [⟨⟨⟨1, 11⟩, ⟨1, 27⟩, ⟨10, 26⟩⟩, "b/../c"⟩] := by
  have hname : DottedName [⟨.ident "p", ⟨⟨1, 9⟩, ⟨1, 10⟩, ⟨8, 9⟩⟩⟩] "p" :=
    .mk "p" ⟨⟨1, 9⟩, ⟨1, 10⟩, ⟨8, 9⟩⟩ .nil
  have hpackaged :=
    PackagePhrase.mk ⟨⟨1, 1⟩, ⟨1, 8⟩, ⟨0, 7⟩⟩ ⟨⟨1, 10⟩, ⟨1, 11⟩, ⟨9, 10⟩⟩ hname
  have hidle : ∀ lexeme ∈ ([] : List Lexeme), lexeme.IsIdle := by simp
  exact
    .mk hidle hpackaged
      (.importing "b/../c" ⟨⟨1, 11⟩, ⟨1, 17⟩, ⟨10, 16⟩⟩ ⟨⟨1, 18⟩, ⟨1, 26⟩, ⟨17, 25⟩⟩
        ⟨⟨1, 26⟩, ⟨1, 27⟩, ⟨25, 26⟩⟩ (.nil .clear))

theorem clean_decides_meaning_doubledText :
    (Path.clean "b/../c" = "c" ∧ Path.SameMeaning "b/../c" "./c") ∧
      Path.clean "a/./../b" = Path.clean (Path.clean "a/." ++ "/" ++ Path.clean "../b") ∧
      (∃ schema,
        Schema.parse "a.yarp" "package p;import \"b/../c\";import \"../c\";" = .ok schema ∧
          schema.statements.Pairwise fun one other =>
            ¬ Path.SameMeaning one.path other.path) ∧
      ∃ error,
        Schema.parse "a.yarp" doubledText = .error error ∧
          error.cause = .duplicateImport "./c" ⟨10, 26⟩ ∧ error.span = ⟨26, 39⟩ := by
  rcases clean_decides_meaning with ⟨hmeaning, _, _, hjoin, hapart, hrefused⟩
  have hsame : Path.SameMeaning "b/../c" "./c" := (hmeaning _ _).1 (by decide +kernel)
  have hparses :
      (Schema.parse "a.yarp" "package p;import \"b/../c\";import \"../c\";").isOk = true := by
    decide +kernel
  rcases exists_eq_ok_of_isOk hparses with ⟨schema, hschema⟩
  have hscanned :
      scan "a.yarp" doubledText =
        .ok
          (doubledOpening ++
            [⟨.importWord, ⟨⟨1, 27⟩, ⟨1, 33⟩, ⟨26, 32⟩⟩⟩,
              ⟨.stringLiteral "./c", ⟨⟨1, 34⟩, ⟨1, 39⟩, ⟨33, 38⟩⟩⟩,
              ⟨.semicolon, ⟨⟨1, 39⟩, ⟨1, 40⟩, ⟨38, 39⟩⟩⟩,
              ⟨.eof, ⟨⟨1, 40⟩, ⟨1, 40⟩, ⟨39, 39⟩⟩⟩]) := by
    decide +kernel
  refine
    ⟨⟨by decide +kernel, hsame⟩, hjoin "a/." "../b" (by decide) (by decide +kernel),
      ⟨schema, hschema, hapart _ _ _ hschema⟩, ?_⟩
  have hsecond := hrefused _ _ _ _ _ _ _ _ _ _ ⟨10, 26⟩ hscanned openingPhrase_doubledOpening
    (List.pairwise_singleton _ _)
  exact hsecond.2 ⟨_, List.mem_singleton_self _, hsame, rfl⟩

end InterfaceSchema
