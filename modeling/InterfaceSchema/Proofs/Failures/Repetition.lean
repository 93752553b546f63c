import InterfaceSchema.Proofs.Agreement.Schema

/-!
# Failures at a repetition

Most failures depend on a few tokens. The others are found at a package clause, an import or a name
that comes for the second time, and point to what was read before.

* `Repeats`: what is ahead repeats something that a schema has, and a failure says so.
* `Grammar.importing_error`, `Grammar.declaration_error`: one import or declaration.
* `Grammar.imports_error`, `Grammar.declarations_error`: what comes before the repetition.
* `Schema.ofLexemes_fails`: the failures of the reader of schemas.
-/

namespace InterfaceSchema

theorem bind_eq_error_iff
    {ε α β : Type}
    {first : Except ε α}
    {next : α → Except ε β}
    {failure : ε} :
    (first >>= next) = .error failure ↔
      first = .error failure ∨ ∃ value, first = .ok value ∧ next value = .error failure := by
  cases first with
  | error other =>
      simp [bind, Except.bind]
  | ok value =>
      simp [bind, Except.bind]

theorem Advance.andThen_eq_error_iff
    {α β : Type}
    {cursor : Cursor}
    {first : Advance cursor α}
    {read : (after : Cursor) → Except Failure (Advance after β)}
    {failure : Failure} :
    first.andThen read = .error failure ↔ read first.after = .error failure := by
  unfold andThen
  cases read first.after <;> simp [Except.map]

namespace Pairing

/-- The places of the lexemes ahead of a cursor, and of the end of the text, each with itself. -/
def within (cursor : Cursor) : Pairing := fun token place other =>
  place = other ∧ ((⟨token, place⟩ : Lexeme) ∈ cursor.ahead ∨ token = .eof ∧ place = cursor.eof)

theorem within_cursors (cursor : Cursor) : (within cursor).Cursors cursor cursor where
  previous := rfl
  ahead := by
    rw [List.forall₂_same]
    intro lexeme hmember
    exact ⟨rfl, rfl, Or.inl hmember⟩
  eof := ⟨rfl, Or.inr ⟨rfl, rfl⟩⟩
  pending := rfl

/-- A reader that decides by tokens alone fails for a local cause. -/
theorem Keeps.isLocal
    {α : Type}
    {cursor : Cursor}
    {failure : Failure}
    {holds : α → α → Prop}
    {read : (cursor : Cursor) → Except Failure (Advance cursor α)}
    (keeps : (within cursor).Keeps holds read)
    (fails : read cursor = .error failure) :
    failure.cause.IsLocal := by
  have hagree := keeps cursor cursor (within_cursors cursor)
  rw [fails] at hagree
  cases hagree with
  | error failures =>
      exact failures.isLocal

end Pairing

open Pairing

/-- What is ahead begins with something that a schema has. The failure is found there, and points to
what the schema has. -/
inductive Repeats (schema : Schema) : List Lexeme → Failure → Prop
  | package
      {first : Location}
      (place : Location)
      (later : List Lexeme)
      (known : schema.packageLocation? = some first) :
      Repeats schema (⟨.packageWord, place⟩ :: later)
        ⟨.duplicatePackage first.span, place.span⟩
  | importing
      {path : String}
      {first : Location}
      (start place stop : Location)
      (later : List Lexeme)
      (known : schema.importLocation? (Path.clean path) = some first) :
      Repeats schema
        (⟨.importWord, start⟩ :: ⟨.stringLiteral path, place⟩ :: ⟨.semicolon, stop⟩ :: later)
        ⟨.duplicateImport path first.span, (start.through stop).span⟩
  | name
      {token : Token}
      {name : String}
      {first : Location}
      (start place : Location)
      (later : List Lexeme)
      (opens : token = .messageWord ∨ token = .serviceWord)
      (known : schema.declarationLocation? name = some first) :
      Repeats schema (⟨token, start⟩ :: ⟨.ident name, place⟩ :: later)
        ⟨.duplicateName name first.span, place.span⟩

namespace Grammar

variable {schema : Schema} {cursor : Cursor} {failure : Failure}

/-! ## Messages and services -/

theorem newName_error
    {expected : Expected}
    (fails : newName schema expected cursor = .error failure) :
    failure.cause.IsLocal ∨
      ∃ name place later first,
        cursor.ahead = ⟨.ident name, place⟩ :: later ∧
          schema.declarationLocation? name = some first ∧
          failure = ⟨.duplicateName name first.span, place.span⟩ := by
  unfold newName at fails
  rcases bind_eq_error_iff.1 fails with hname | ⟨name, hname, hknown⟩
  · exact Or.inl ((ident_keeps expected).isLocal hname)
  · rcases (Cursor.ident_reads expected).sound hname with ⟨_, rfl, hcovers⟩
    split at hknown
    · next first hfirst =>
      cases hknown
      exact Or.inr ⟨_, _, _, first, hcovers.ahead, hfirst, rfl⟩
    · cases hknown

section Bodies

variable {word : Advance cursor Location} {notes : Notes}

/-- A name and a body between braces fail for a local cause or at the name. -/
theorem namedBody_error
    {α β : Type}
    {item : Item α}
    {unplaced : α → α}
    {expected : Expected}
    {finish : Advance cursor String → Advance cursor (List α × Location) → Advance cursor β}
    (keeps :
      ∀ pairing : Pairing, pairing.Keeps (fun value twin => unplaced value = unplaced twin) item)
    (fails :
      (do
          let name ← word.detach.andThen (newName schema expected)
          let opening ← name.andThen fun after => after.expect .leftBrace
          let body ← opening.andThen (block item)
          .ok (finish name body)) =
        .error failure) :
    failure.cause.IsLocal ∨ newName schema expected word.detach.after = .error failure := by
  rcases bind_eq_error_iff.1 fails with hname | ⟨name, _, hfails⟩
  · exact Or.inr (Advance.andThen_eq_error_iff.1 hname)
  rcases bind_eq_error_iff.1 hfails with hopening | ⟨opening, _, hfails⟩
  · exact Or.inl ((expect_keeps .leftBrace).isLocal (Advance.andThen_eq_error_iff.1 hopening))
  rcases bind_eq_error_iff.1 hfails with hbody | ⟨body, _, hfails⟩
  · exact Or.inl ((block_keeps (keeps _)).isLocal (Advance.andThen_eq_error_iff.1 hbody))
  · cases hfails

/-- A message or a service whose name cannot be new fails there. -/
theorem repeats_of_newName
    {token : Token}
    {expected : Expected}
    (opens : token = .messageWord ∨ token = .serviceWord)
    (found : cursor.take? token = some word)
    (fails :
      failure.cause.IsLocal ∨ newName schema expected word.detach.after = .error failure) :
    failure.cause.IsLocal ∨ Repeats schema cursor.ahead failure := by
  rcases fails with hlocal | hname
  · exact Or.inl hlocal
  rcases newName_error hname with hlocal | ⟨name, place, later, first, hahead, hknown, rfl⟩
  · exact Or.inl hlocal
  · have hwhole : cursor.ahead = ⟨token, word.value⟩ :: ⟨.ident name, place⟩ :: later := by
      rw [← hahead]
      exact Cursor.take?_ahead found
    rw [hwhole]
    exact Or.inr (.name word.value place later opens hknown)

end Bodies

theorem misplaced_error (schema : Schema) (cursor : Cursor) :
    (misplaced schema cursor).cause.IsLocal ∨
      Repeats schema cursor.ahead (misplaced schema cursor) := by
  have hunexpected : (cursor.unexpected .declaration).cause.IsLocal :=
    ((within_cursors cursor).unexpected .declaration).isLocal
  unfold misplaced
  dsimp only
  split
  · exact Or.inl trivial
  · split
    · next hword =>
      split
      · next first hfirst =>
        have hmore : cursor.peek.token ≠ .eof := by simp [hword, Token.packageWord]
        rcases Cursor.exists_ahead_eq_peek hmore with ⟨rest, hahead⟩
        have hpeek : cursor.peek = ⟨.packageWord, cursor.peek.location⟩ := by rw [← hword]
        rw [hahead, hpeek]
        exact Or.inr (.package cursor.peek.location rest hfirst)
      · exact Or.inl hunexpected
    · exact Or.inl hunexpected

theorem declaration_error (fails : declaration schema cursor = .error failure) :
    failure.cause.IsLocal ∨ Repeats schema cursor.ahead failure := by
  unfold declaration at fails
  split at fails
  · next word hword =>
    rcases bind_eq_error_iff.1 fails with hmessage | ⟨_, _, hfails⟩
    · exact repeats_of_newName (Or.inl rfl) hword
        (namedBody_error (fun _ => member_keeps) hmessage)
    · cases hfails
  · split at fails
    · next word hword =>
      rcases bind_eq_error_iff.1 fails with hservice | ⟨_, _, hfails⟩
      · exact repeats_of_newName (Or.inr rfl) hword
          (namedBody_error (fun _ => method_keeps) hservice)
      · cases hfails
    · cases fails
      exact misplaced_error schema cursor

/-- What stands between items fails for a local cause. -/
theorem entry_error
    {α : Type}
    {item : Item α}
    (fails : entry item cursor = .error failure) :
    failure.cause.IsLocal ∨ item cursor = .error failure := by
  unfold entry at fails
  split at fails
  · cases fails
  split at fails
  · next name hname =>
    rcases bind_eq_error_iff.1 fails with hrest | ⟨_, _, hfails⟩
    · rcases ((within_cursors cursor).select? Token.atName?).of_some hname with
        ⟨twin, htwin, hboth⟩
      rw [hname, Option.some.injEq] at htwin
      subst htwin
      have hagree := annotationRest_agrees hboth
      rw [hrest] at hagree
      cases hagree with
      | error failures =>
          exact Or.inl failures.isLocal
    · cases hfails
  · rcases bind_eq_error_iff.1 fails with hitem | ⟨_, _, hfails⟩
    · exact Or.inr hitem
    · cases hfails

/-- The declarations before a repetition are read. -/
theorem declarations_error
    (faithful : schema.Faithful)
    (distinct : (declaredNames schema.declarations).Nodup)
    (fails : declarations schema cursor = .error failure) :
    failure.cause.IsLocal ∨
      ∃ body items rest,
        Entries DeclarationPhrase cursor.margin body items ∧
          cursor.ahead = body ++ rest ∧
          (declaredNames (items.foldl Schema.push schema).declarations).Nodup ∧
          Repeats (items.foldl Schema.push schema) rest failure := by
  induction schema, cursor using declarations.induct with
  | case1 schema cursor hend =>
      rw [declarations, if_pos hend] at fails
      cases fails
  | case2 schema cursor hmore ih =>
      rw [declarations, if_neg hmore] at fails
      rcases bind_eq_error_iff.1 fails with hentry | ⟨found, hfound, hlater⟩
      · rcases entry_error hentry with hlocal | hitem
        · exact Or.inl hlocal
        · refine (declaration_error hitem).imp_right fun hrepeats => ?_
          exact ⟨[], [], cursor.ahead, .nil _, rfl, distinct, hrepeats⟩
      have hrest := ih found
      rcases entry_sound (declaration_reads faithful) hfound with
        ⟨taken, next, hfiller, hvalue, hcovers⟩ |
          ⟨taken, declared, ⟨hspelled, hadmitted⟩, hvalue, hcovers⟩
      · rw [hvalue] at hrest hlater
        refine (hrest faithful distinct hlater).imp_right ?_
        rintro ⟨body, items, rest, hentries, hahead, hdistinct, hrepeats⟩
        rw [hcovers.margin] at hentries
        refine ⟨taken ++ body, items, rest, .filler hfiller hentries, ?_, hdistinct, hrepeats⟩
        rw [hcovers.ahead, hahead, List.append_assoc]
      · rw [hvalue] at hrest hlater
        have hextended := Schema.nodup_declaredNames_push_iff.2 ⟨distinct, hadmitted⟩
        refine (hrest (Schema.push_faithful faithful declared) hextended hlater).imp_right ?_
        rintro ⟨body, items, rest, hentries, hahead, hdistinct, hrepeats⟩
        rw [hcovers.margin] at hentries
        refine
          ⟨taken ++ body, declared :: items, rest, .item hspelled hentries, ?_, hdistinct,
            hrepeats⟩
        rw [hcovers.ahead, hahead, List.append_assoc]

/-! ## Imports -/

theorem importing_error
    {word : Advance cursor Location}
    (covers : word.Covers [⟨.importWord, word.value⟩] .clear)
    (fails : importing schema word = .error failure) :
    failure.cause.IsLocal ∨ Repeats schema cursor.ahead failure := by
  unfold importing at fails
  rcases bind_eq_error_iff.1 fails with hpath | ⟨path, hpath, hfails⟩
  · exact Or.inl ((select_keeps _ _).isLocal (Advance.andThen_eq_error_iff.1 hpath))
  rcases bind_eq_error_iff.1 hfails with hclose | ⟨close, hclose, hfails⟩
  · exact Or.inl ((expect_keeps _).isLocal (Advance.andThen_eq_error_iff.1 hclose))
  rcases (Cursor.select_reads .importPath rfl).andThen_sound covers hpath with
    ⟨_, ⟨token, htoken, rfl⟩, hpathCovers⟩
  rw [Token.stringLiteral?_eq_some_iff] at htoken
  subst htoken
  rcases (Cursor.expect_reads (by simp)).andThen_sound hpathCovers hclose with
    ⟨_, rfl, hcovers⟩
  dsimp only at hfails
  split at hfails
  · next first hfirst =>
    cases hfails
    rw [hcovers.ahead]
    exact Or.inr (.importing word.value path.value.2 close.value _ hfirst)
  · cases hfails

/-- The imports before a repetition are read. -/
theorem imports_error
    (distinct : (importPaths schema.declarations).Nodup)
    (fails : imports schema cursor = .error failure) :
    failure.cause.IsLocal ∨
      ∃ taken statements last rest,
        ImportBlock cursor.margin taken statements last ∧
          cursor.ahead = taken ++ rest ∧
          (importPaths
            ((statements.map Declaration.importing).foldl Schema.push schema).declarations).Nodup ∧
          Repeats ((statements.map Declaration.importing).foldl Schema.push schema) rest
            failure := by
  induction schema, cursor using imports.induct with
  | case1 schema cursor passed hpassed ih =>
      rw [imports, hpassed] at fails
      rcases Cursor.trivia?_sound hpassed with ⟨lexemes, next, htrivia, hcovers⟩
      refine (ih distinct fails).imp_right ?_
      rintro ⟨taken, statements, last, rest, hblock, hahead, hdistinct, hrepeats⟩
      rw [hcovers.margin] at hblock
      refine
        ⟨lexemes ++ taken, statements, last, rest, .trivia htrivia hblock, ?_, hdistinct, hrepeats⟩
      rw [hcovers.ahead, hahead, List.append_assoc]
  | case2 schema cursor hnone hnoImport =>
      rw [imports, hnone, hnoImport] at fails
      cases fails
  | case3 schema cursor hnone word hword ih =>
      rw [imports, hnone, hword] at fails
      have hwordCovers := (Cursor.take?_covers (by simp [Token.importWord]) hword).detach
      rcases bind_eq_error_iff.1 fails with hstatement | ⟨statement, hstatement, hlater⟩
      · refine (importing_error hwordCovers hstatement).imp_right fun hrepeats => ?_
        exact ⟨[], [], _, cursor.ahead, .nil _, rfl, distinct, hrepeats⟩
      rcases importing_sound hwordCovers hstatement with
        ⟨path, place, stop, hvalue, hfresh, hcovers⟩
      have hextended :
          (importPaths (schema.push (.importing statement.value)).declarations).Nodup := by
        rw [Schema.nodup_importPaths_push_importing_iff, hvalue]
        exact ⟨distinct, hfresh⟩
      refine (ih statement hextended hlater).imp_right ?_
      rintro ⟨taken, statements, last, rest, hblock, hahead, hdistinct, hrepeats⟩
      rw [hcovers.margin] at hblock
      rw [hvalue] at hdistinct hrepeats
      refine
        ⟨_, _, last, rest, .importing path word.value place stop hblock, ?_, hdistinct, hrepeats⟩
      rw [hcovers.ahead, hahead]
      rfl

end Grammar

/-! ## Whole schemas -/

/-- A failure to read a schema has a local cause, or it is found at a repetition behind lexemes that
are a schema. -/
theorem Schema.ofLexemes_fails
    {eof : Location}
    {lexemes : List Lexeme}
    {failure : Failure}
    (fails : ofLexemes eof lexemes = .error failure) :
    failure.cause.IsLocal ∨
      ∃ before rest declarations,
        lexemes = before ++ rest ∧
          (∀ stop, SchemaPhrase (before ++ [⟨.eof, stop⟩]) declarations) ∧
          Distinct declarations ∧
          Repeats (ofDeclarations declarations) rest failure := by
  unfold ofLexemes at fails
  dsimp only at fails
  rcases Grammar.skipTrivia_sound (Cursor.start eof lexemes) with ⟨leading, hidle, hleading⟩
  have hlexemes : lexemes = leading ++ (Grammar.skipTrivia (Cursor.start eof lexemes)).ahead :=
    hleading
  rcases bind_eq_error_iff.1 fails with hclause | ⟨clause, hclause, hfails⟩
  · exact Or.inl (package_keeps.isLocal hclause)
  rcases Grammar.package_reads.sound hclause with ⟨clauseLexemes, hpackaged, hclauseCovers⟩
  rw [Grammar.skipTrivia_pending rfl] at hclauseCovers
  have hmargin : clause.after.margin = .clear := hclauseCovers.margin
  have hdeclared (statements : List Import) :
      (statements.map Declaration.importing).foldl push (empty.push (.package clause.value)) =
        ofDeclarations (.package clause.value :: statements.map .importing) :=
    rfl
  have hnoNames (statements : List Import) :
      (declaredNames (.package clause.value :: statements.map .importing)).Nodup := by
    rw [declaredNames_opening]
    exact List.nodup_nil
  have hstartPaths : (importPaths (empty.push (.package clause.value)).declarations).Nodup :=
    List.nodup_nil
  rcases bind_eq_error_iff.1 hfails with himports | ⟨⟨imported, after⟩, himports, hdeclarations⟩
  · refine (Grammar.imports_error hstartPaths himports).imp_right ?_
    rintro ⟨taken, statements, last, rest, hblock, hahead, hpaths, hrepeats⟩
    rw [hmargin] at hblock
    rw [hdeclared] at hrepeats hpaths
    rw [declarations_ofDeclarations] at hpaths
    refine
      ⟨leading ++ (clauseLexemes ++ taken), rest, _, ?_, ?_, ⟨hnoNames statements, hpaths⟩,
        hrepeats⟩
    · rw [hlexemes, hclauseCovers.ahead, hahead]
      simp
    · intro stop
      simpa using SchemaPhrase.mk stop hidle hpackaged hblock (.nil last)
  · rcases Grammar.imports_sound hstartPaths himports with
      ⟨taken, statements, hblock, hahead, hpaths, rfl⟩
    rw [hmargin] at hblock
    rw [hdeclared] at hdeclarations hpaths
    have hnames := hnoNames statements
    rw [← declarations_ofDeclarations (.package clause.value :: _)] at hnames
    refine
      (Grammar.declarations_error (ofDeclarations_faithful _) hnames hdeclarations).imp_right ?_
    rintro ⟨body, items, rest, hentries, hlater, hall, hrepeats⟩
    rw [← ofDeclarations_append] at hall hrepeats
    rw [declarations_ofDeclarations] at hall hpaths
    refine ⟨leading ++ (clauseLexemes ++ (taken ++ body)), rest, _, ?_, ?_, ⟨hall, ?_⟩, hrepeats⟩
    · rw [hlexemes, hclauseCovers.ahead, hahead, hlater]
      simp
    · intro stop
      simpa using SchemaPhrase.mk stop hidle hpackaged hblock hentries
    · rw [importPaths_append, hentries.importPaths_eq_nil, List.append_nil]
      exact hpaths

end InterfaceSchema
