import InterfaceSchema.Proofs.Reading.Declaration

/-!
# Reading a schema

The reader of schema texts is exact. The steps are:

* `Grammar.package_reads`: the package clause.
* `Grammar.imports_sound`, `Grammar.exists_imports_behind`, `Grammar.imports_eq_of_endsImports`: the
  imports up to the first lexeme that is neither trivia nor an import.
* `Entries.splitTrivia`: trivia behind the last import may be counted with the imports.
* `Schema.exists_ofLexemes_imports`, `Schema.exists_ofLexemes_behind`: what the reader goes on with
  behind the package clause and imports.
* `Schema.ofLexemes_sound`, `Schema.ofLexemes_complete`: a whole schema.
-/

namespace InterfaceSchema

namespace Grammar

/-! ## Before the package clause -/

theorem exists_trivia?
    {cursor : Cursor}
    {lexeme : Lexeme}
    {rest : List Lexeme}
    (idle : lexeme.IsIdle)
    (ahead : cursor.ahead = lexeme :: rest) :
    ∃ passed, cursor.trivia? = some passed := by
  rcases lexeme with ⟨token, place⟩
  rcases idle with rfl | ⟨text, rfl⟩
  · rcases Cursor.trivia?_complete (.newline cursor.margin place) ahead with ⟨passed, hpassed, _⟩
    exact ⟨passed, hpassed⟩
  · rcases Cursor.trivia?_complete (.comment cursor.margin text place) ahead with
      ⟨passed, hpassed, _⟩
    exact ⟨passed, hpassed⟩

theorem skipTrivia_sound (cursor : Cursor) :
    ∃ leading,
      (∀ lexeme ∈ leading, lexeme.IsIdle) ∧
        cursor.ahead = leading ++ (skipTrivia cursor).ahead := by
  induction cursor using skipTrivia.induct with
  | case1 cursor passed hpassed ih =>
      rcases Cursor.trivia?_sound hpassed with ⟨taken, next, htrivia, hcovers⟩
      rcases htrivia.singleton with ⟨lexeme, rfl, hidle⟩
      rcases ih with ⟨leading, hleading, hahead⟩
      refine ⟨lexeme :: leading, ?_, ?_⟩
      · intro other hother
        rcases List.mem_cons.1 hother with rfl | hmember
        · exact hidle
        · exact hleading other hmember
      · rw [skipTrivia, hpassed, hcovers.ahead, List.singleton_append, List.cons_append]
        exact congrArg (lexeme :: ·) hahead
  | case2 cursor hnone =>
      refine ⟨[], by simp, ?_⟩
      rw [skipTrivia, hnone]
      rfl

theorem skipTrivia_complete
    {cursor : Cursor}
    {leading rest : List Lexeme}
    {lexeme : Lexeme}
    (idle : ∀ other ∈ leading, other.IsIdle)
    (busy : ¬ lexeme.IsIdle)
    (ahead : cursor.ahead = leading ++ lexeme :: rest) :
    (skipTrivia cursor).ahead = lexeme :: rest := by
  induction cursor using skipTrivia.induct generalizing leading with
  | case1 cursor passed hpassed ih =>
      rw [skipTrivia, hpassed]
      rcases Cursor.trivia?_sound hpassed with ⟨taken, next, htrivia, hcovers⟩
      rcases htrivia.singleton with ⟨other, rfl, hidle⟩
      cases leading with
      | nil =>
          rcases hcovers.head_eq ahead with ⟨hsame, _⟩
          rw [hsame] at hidle
          exact absurd hidle busy
      | cons first leading =>
          rcases hcovers.head_eq ahead with ⟨_, hrest⟩
          refine ih ?_ hrest
          intro other hother
          exact idle other (List.mem_cons_of_mem _ hother)
  | case2 cursor hnone =>
      rw [skipTrivia, hnone]
      cases leading with
      | nil =>
          exact ahead
      | cons first leading =>
          rcases exists_trivia? (idle first (by simp)) ahead with ⟨passed, hpassed⟩
          rw [hnone] at hpassed
          simp at hpassed

theorem skipTrivia_pending
    {cursor : Cursor}
    (idle : cursor.pending = Notes.none) :
    (skipTrivia cursor).pending = Notes.none := by
  induction cursor using skipTrivia.induct with
  | case1 cursor passed hpassed ih =>
      rw [skipTrivia, hpassed]
      exact ih rfl
  | case2 cursor hnone =>
      rw [skipTrivia, hnone]
      exact idle

/-- Reading the package clause. -/
theorem package_reads :
    Reads package (fun _ => PackagePhrase) id Anything where
  sound := by
    intro cursor advance hsucceeds
    simp only [package, bind_eq_ok_iff, Except.ok.injEq] at hsucceeds
    rcases hsucceeds with ⟨word, hword, name, hname, close, hclose, rfl⟩
    rcases (Cursor.expect_reads (by simp [Token.packageWord])).sound hword with
      ⟨_, rfl, hwordCovers⟩
    rcases (dottedName_reads .packageName).andThen_sound hwordCovers hname with
      ⟨taken, hspelled, hnameCovers⟩
    rcases (Cursor.expect_reads (by simp)).andThen_sound hnameCovers hclose with
      ⟨_, rfl, hcovers⟩
    refine ⟨_, .mk word.value close.value hspelled, ?_⟩
    simpa using hcovers.map _
  complete := by
    intro cursor taken rest value hspelled _ hahead
    cases hspelled with
    | @mk inner name start stop spelled =>
        have hlexemes :
            cursor.ahead =
              [⟨.packageWord, start⟩] ++ (inner ++ ([⟨.semicolon, stop⟩] ++ rest)) := by
          simpa using hahead
        rcases (Cursor.expect_reads (by simp [Token.packageWord])).complete _ _ start rfl trivial
            hlexemes with
          ⟨first, hfirst, hstart, hfirstCovers⟩
        rcases (dottedName_reads .packageName).andThen_complete hfirstCovers _ _ _ spelled
            (noToken_cons (by simp)) hlexemes with
          ⟨second, hsecond, hname, hsecondCovers⟩
        rcases (Cursor.expect_reads (by simp)).andThen_complete hsecondCovers
            [⟨.semicolon, stop⟩] rest stop rfl trivial (by simpa using hlexemes) with
          ⟨third, hthird, hstop, hthirdCovers⟩
        have hcovers :
            third.Covers (⟨.packageWord, start⟩ :: (inner ++ [⟨.semicolon, stop⟩]))
              ⟨false, cursor.pending⟩ := by
          simpa using hthirdCovers
        refine
          ⟨third.map fun place => ⟨first.value.through place, second.value⟩, ?_, ?_,
            hcovers.map _⟩
        · simp only [package, bind_eq_ok_iff]
          exact ⟨first, hfirst, second, hsecond, third, hthird, rfl⟩
        · simp [hstart, hname, hstop]

/-! ## Imports -/

section Imports

variable {schema : Schema} {cursor : Cursor} {word : Advance cursor Location}

theorem importing_sound
    (covers : word.Covers [⟨.importWord, word.value⟩] .clear)
    {result : Advance cursor Import}
    (succeeds : importing schema word = .ok result) :
    ∃ path place stop,
      result.value = ⟨word.value.through stop, path⟩ ∧
        Path.clean path ∉ importPaths schema.declarations ∧
        result.Covers
          [⟨.importWord, word.value⟩, ⟨.stringLiteral path, place⟩, ⟨.semicolon, stop⟩]
          .clear := by
  simp only [importing, bind_eq_ok_iff] at succeeds
  rcases succeeds with ⟨path, hpath, close, hclose, hnew⟩
  rcases (Cursor.select_reads .importPath rfl).andThen_sound covers hpath with
    ⟨_, ⟨token, htoken, rfl⟩, hpathCovers⟩
  rw [Token.stringLiteral?_eq_some_iff] at htoken
  subst htoken
  rcases (Cursor.expect_reads (by simp)).andThen_sound hpathCovers hclose with
    ⟨_, rfl, hcovers⟩
  split at hnew
  · simp at hnew
  · next hnone =>
    simp only [Except.ok.injEq] at hnew
    subst hnew
    rw [Schema.importLocation?_eq_none_iff] at hnone
    exact ⟨path.value.1, path.value.2, close.value, rfl, hnone, hcovers.map _⟩

theorem importing_complete
    (covers : word.Covers [⟨.importWord, word.value⟩] .clear)
    {path : String}
    {place stop : Location}
    {rest : List Lexeme}
    (fresh : Path.clean path ∉ importPaths schema.declarations)
    (ahead :
      cursor.ahead =
        ⟨.importWord, word.value⟩ :: ⟨.stringLiteral path, place⟩ :: ⟨.semicolon, stop⟩ ::
          rest) :
    ∃ result,
      importing schema word = .ok result ∧
        result.value = ⟨word.value.through stop, path⟩ ∧
        result.after.ahead = rest ∧ result.after.margin = .clear := by
  rcases (Cursor.select_reads .importPath rfl).andThen_complete covers
      [⟨.stringLiteral path, place⟩] _ (path, place)
      ⟨_, Token.stringLiteral?_eq_some_iff.2 rfl, rfl⟩ trivial ahead with
    ⟨first, hfirst, hpath, hfirstCovers⟩
  rcases (Cursor.expect_reads (by simp)).andThen_complete hfirstCovers
      [⟨.semicolon, stop⟩] rest stop rfl trivial ahead with
    ⟨second, hsecond, hstop, hsecondCovers⟩
  rw [← Schema.importLocation?_eq_none_iff] at fresh
  refine
    ⟨second.map fun _ => ⟨word.value.through second.value, first.value.1⟩, ?_, ?_, ?_,
      hsecondCovers.margin⟩
  · simp only [importing, bind_eq_ok_iff]
    refine ⟨first, hfirst, second, hsecond, ?_⟩
    simp only [hpath, fresh]
  · simp [hpath, hstop]
  · exact hsecondCovers.rest_eq ahead

end Imports

theorem imports_sound
    {schema final : Schema}
    {cursor after : Cursor}
    (distinct : (importPaths schema.declarations).Nodup)
    (succeeds : imports schema cursor = .ok (final, after)) :
    ∃ taken statements,
      ImportBlock cursor.margin taken statements after.margin ∧
        cursor.ahead = taken ++ after.ahead ∧
        (importPaths final.declarations).Nodup ∧
        final = (statements.map Declaration.importing).foldl Schema.push schema := by
  induction schema, cursor using imports.induct with
  | case1 schema cursor passed hpassed ih =>
      rw [imports, hpassed] at succeeds
      rcases Cursor.trivia?_sound hpassed with ⟨lexemes, next, htrivia, hcovers⟩
      rcases ih distinct succeeds with ⟨taken, statements, hblock, hahead, hdistinct, hfinal⟩
      rw [hcovers.margin] at hblock
      refine ⟨lexemes ++ taken, statements, .trivia htrivia hblock, ?_, hdistinct, hfinal⟩
      rw [hcovers.ahead, hahead, List.append_assoc]
  | case2 schema cursor hnone hnoImport =>
      rw [imports, hnone, hnoImport] at succeeds
      simp only [Except.ok.injEq, Prod.mk.injEq] at succeeds
      rcases succeeds with ⟨rfl, rfl⟩
      exact ⟨[], [], .nil _, rfl, distinct, rfl⟩
  | case3 schema cursor hnone word hword ih =>
      rw [imports, hnone, hword] at succeeds
      simp only [bind_eq_ok_iff] at succeeds
      rcases succeeds with ⟨statement, hstatement, hlater⟩
      have hwordCovers := Cursor.take?_covers (by simp [Token.importWord]) hword
      rcases importing_sound hwordCovers.detach hstatement with
        ⟨path, place, stop, hvalue, hfresh, hcovers⟩
      have hextended :
          (importPaths (schema.push (.importing statement.value)).declarations).Nodup := by
        rw [Schema.nodup_importPaths_push_importing_iff, hvalue]
        exact ⟨distinct, hfresh⟩
      rcases ih statement hextended hlater with
        ⟨taken, statements, hblock, hahead, hdistinct, hfinal⟩
      rw [hcovers.margin] at hblock
      rw [hvalue] at hfinal
      refine
        ⟨_, _, .importing path word.value place stop hblock, ?_, hdistinct, hfinal⟩
      rw [hcovers.ahead, hahead]
      rfl

/-- Behind imports the reader of imports goes on with these in its schema. -/
theorem exists_imports_behind
    {schema : Schema}
    {cursor : Cursor}
    {margin last : Margin}
    {taken rest : List Lexeme}
    {statements : List Import}
    (block : ImportBlock margin taken statements last)
    (distinct :
      (importPaths
        ((statements.map Declaration.importing).foldl Schema.push schema).declarations).Nodup)
    (stands : cursor.margin = margin)
    (ahead : cursor.ahead = taken ++ rest) :
    ∃ after,
      imports schema cursor =
          imports ((statements.map Declaration.importing).foldl Schema.push schema) after ∧
        after.ahead = rest ∧ after.margin = last := by
  induction block generalizing cursor schema with
  | nil margin =>
      exact ⟨cursor, rfl, ahead, stands⟩
  | @trivia margin next last lexemes more statements passed later ih =>
      subst stands
      rw [List.append_assoc] at ahead
      rcases Cursor.trivia?_complete passed ahead with ⟨result, hresult, hcovers⟩
      rcases ih distinct hcovers.margin (hcovers.rest_eq ahead) with
        ⟨after, hafter, hrest, hmargin⟩
      refine ⟨after, ?_, hrest, hmargin⟩
      rw [imports, hresult]
      exact hafter
  | @importing margin last more statements path start place stop later ih =>
      rcases Cursor.exists_take? ahead with ⟨word, hword, rfl⟩
      have hwordCovers := Cursor.take?_covers (by simp [Token.importWord]) hword
      have hnone : cursor.trivia? = none :=
        Cursor.trivia?_eq_none ahead (by simp [Token.importWord]) (by simp [Token.importWord])
      rw [List.map_cons, List.foldl_cons] at distinct
      have hextended := Schema.nodup_importPaths_of_foldl_push distinct
      rw [Schema.nodup_importPaths_push_importing_iff] at hextended
      rcases importing_complete hwordCovers.detach hextended.2 ahead with
        ⟨statement, hstatement, hvalue, hrest, hmargin⟩
      rcases ih distinct hmargin hrest with ⟨after, hafter, hlast, hlastMargin⟩
      refine ⟨after, ?_, hlast, hlastMargin⟩
      rw [imports, hnone, hword]
      simp only [hstatement, bind, Except.bind]
      rw [hvalue]
      exact hafter

/-- What follows is neither trivia nor an import. -/
def EndsImports (rest : List Lexeme) : Prop :=
  ∃ lexeme more, rest = lexeme :: more ∧ ¬ lexeme.IsIdle ∧ lexeme.token ≠ .importWord

theorem imports_eq_of_endsImports
    {cursor : Cursor}
    (schema : Schema)
    (stops : EndsImports cursor.ahead) :
    imports schema cursor = .ok (schema, cursor) := by
  rcases stops with ⟨lexeme, more, hahead, hbusy, hother⟩
  have hnone : cursor.trivia? = none :=
    Cursor.trivia?_eq_none hahead (fun hnewline => hbusy (Or.inl hnewline))
      (fun text hcomment => hbusy (Or.inr ⟨text, hcomment⟩))
  have hnoImport : cursor.take? .importWord = none := by
    rw [Cursor.take?_eq_none_iff, hahead]
    exact noToken_cons hother
  rw [imports, hnone, hnoImport]

end Grammar

/-! ## From the imports to the declarations -/

theorem ImportBlock.append
    {margin middle last : Margin}
    {first second : List Lexeme}
    {imports later : List Import}
    (block : ImportBlock margin first imports middle)
    (rest : ImportBlock middle second later last) :
    ImportBlock margin (first ++ second) (imports ++ later) last := by
  induction block with
  | nil margin =>
      exact rest
  | trivia passed _ ih =>
      rw [List.append_assoc]
      exact .trivia passed (ih rest)
  | importing path start place stop _ ih =>
      exact .importing path start place stop (ih rest)

theorem DeclarationPhrase.endsImports
    {notes : Notes}
    {taken : List Lexeme}
    {declared : Declaration}
    (spelled : DeclarationPhrase notes taken declared)
    (rest : List Lexeme) :
    Grammar.EndsImports (taken ++ rest) := by
  cases spelled with
  | message spelled =>
      cases spelled
      exact ⟨_, _, rfl, by simp [Lexeme.IsIdle, Token.messageWord], by
        simp [Token.messageWord, Token.importWord]⟩
  | service spelled =>
      cases spelled
      exact ⟨_, _, rfl, by simp [Lexeme.IsIdle, Token.serviceWord], by
        simp [Token.serviceWord, Token.importWord]⟩

/-- The trivia before the first annotation or declaration may be counted with the imports. -/
theorem Entries.splitTrivia
    {margin : Margin}
    {body behind : List Lexeme}
    {items : List Declaration}
    (entries : Entries DeclarationPhrase margin body items)
    (stops : Grammar.EndsImports behind) :
    ∃ idle rest next,
      body = idle ++ rest ∧
        ImportBlock margin idle [] next ∧
        Entries DeclarationPhrase next rest items ∧ Grammar.EndsImports (rest ++ behind) := by
  induction entries with
  | nil margin =>
      exact ⟨[], [], margin, rfl, .nil margin, .nil margin, stops⟩
  | @filler margin next taken body items passed later ih =>
      cases passed with
      | trivia passed =>
          rcases ih with ⟨idle, rest, last, rfl, hblock, hentries, hstops⟩
          refine ⟨taken ++ idle, rest, last, ?_, .trivia passed hblock, hentries, hstops⟩
          rw [List.append_assoc]
      | noted _ marked =>
          refine
            ⟨[], taken ++ body, margin, rfl, .nil margin,
              .filler (.noted margin marked) later, ?_⟩
          rcases marked.opens with ⟨name, place, more, rfl⟩
          refine ⟨_, _, rfl, ?_, ?_⟩
          · simp [Lexeme.IsIdle]
          · simp [Token.importWord]
  | @item margin taken body declared items spelled later ih =>
      refine ⟨[], taken ++ body, margin, rfl, .nil margin, .item spelled later, ?_⟩
      rw [List.append_assoc]
      exact spelled.endsImports _

theorem DeclarationPhrase.importPath?_eq_none
    {notes : Notes}
    {taken : List Lexeme}
    {declared : Declaration}
    (spelled : DeclarationPhrase notes taken declared) :
    declared.importPath? = none := by
  cases spelled with
  | message spelled =>
      rfl
  | service spelled =>
      rfl

theorem Entries.importPaths_eq_nil
    {margin : Margin}
    {body : List Lexeme}
    {items : List Declaration}
    (entries : Entries DeclarationPhrase margin body items) :
    importPaths items = [] := by
  induction entries with
  | nil margin =>
      rfl
  | filler passed later ih =>
      exact ih
  | item spelled later ih =>
      unfold importPaths
      rw [List.filterMap_cons, spelled.importPath?_eq_none]
      exact ih

/-- A text has one end, so what is left where no lexeme is taken for the end is just the end. -/
theorem NoEnd.rest_eq
    {front taken rest : List Lexeme}
    {stop : Location}
    (whole : NoEnd front)
    (part : NoEnd taken)
    (ends : Grammar.AtEnd rest)
    (same : front ++ [⟨.eof, stop⟩] = taken ++ rest) :
    rest = [⟨.eof, stop⟩] := by
  rcases List.append_eq_append_iff.1 same with ⟨more, htaken, hend⟩ | ⟨more, hfront, hrest⟩
  · cases more with
    | nil =>
        simpa using hend.symm
    | cons lexeme more =>
        simp only [List.cons_append, List.cons.injEq] at hend
        have hmember : (⟨.eof, stop⟩ : Lexeme) ∈ taken := by
          rw [htaken, ← hend.1]
          simp
        exact absurd rfl (part _ hmember)
  · cases more with
    | nil =>
        simpa using hrest
    | cons lexeme more =>
        have hmember : lexeme ∈ front := by
          rw [hfront]
          simp
        rcases ends with hnil | ⟨place, later, hlater⟩
        · rw [hnil] at hrest
          simp at hrest
        · rw [hlater] at hrest
          simp only [List.cons_append, List.cons.injEq] at hrest
          have hother := whole lexeme hmember
          rw [← hrest.1] at hother
          exact absurd rfl hother

namespace Schema

/-! ## Whole schemas -/

/-- The conditions on the declarations of one text: no two have the same name, and no two import
the same file by path. -/
structure Distinct (declarations : List Declaration) : Prop where
  names : (declaredNames declarations).Nodup
  imports : (importPaths declarations).Nodup

theorem ofLexemes_sound
    {eof stop : Location}
    {lexemes front : List Lexeme}
    {schema : Schema}
    (whole : lexemes = front ++ [⟨.eof, stop⟩])
    (inside : NoEnd front)
    (succeeds : ofLexemes eof lexemes = .ok schema) :
    ∃ declarations,
      SchemaPhrase lexemes declarations ∧
        Distinct declarations ∧ schema = ofDeclarations declarations := by
  simp only [ofLexemes, bind_eq_ok_iff] at succeeds
  rcases succeeds with ⟨clause, hclause, ⟨imported, after⟩, himports, hdeclarations⟩
  rcases Grammar.skipTrivia_sound (Cursor.start eof lexemes) with ⟨leading, hidle, hleading⟩
  rcases Grammar.package_reads.sound hclause with ⟨clauseLexemes, hpackaged, hclauseCovers⟩
  rw [Grammar.skipTrivia_pending rfl] at hclauseCovers
  have hstartPaths : (importPaths (empty.push (.package clause.value)).declarations).Nodup :=
    List.nodup_nil
  rcases Grammar.imports_sound hstartPaths himports with
    ⟨importLexemes, statements, hblock, himportAhead, himportDistinct, himported⟩
  have hfaithful : imported.Faithful := by
    rw [himported]
    exact ofDeclarations_faithful (.package clause.value :: statements.map .importing)
  have hnames : declaredNames imported.declarations = [] := by
    rw [himported, declarations_foldl_push, declaredNames_append, declaredNames_importing]
    rfl
  rcases Grammar.declarations_sound hfaithful (by simp [hnames]) hdeclarations with
    ⟨body, items, rest, hentries, hbodyAhead, hend, hdistinct, hschema⟩
  rw [hclauseCovers.margin] at hblock
  have hlexemes :
      lexemes = (leading ++ (clauseLexemes ++ (importLexemes ++ body))) ++ rest := by
    have hstart : (Cursor.start eof lexemes).ahead = lexemes := rfl
    rw [← hstart, hleading, hclauseCovers.ahead, himportAhead, hbodyAhead]
    simp
  have hinside : NoEnd (leading ++ (clauseLexemes ++ (importLexemes ++ body))) := by
    simp only [noEnd_append]
    refine ⟨?_, hpackaged.ended.noEnd, hblock.noEnd, hentries.noEnd DeclarationPhrase.noEnd⟩
    intro lexeme hmember
    rcases hidle lexeme hmember with hnewline | ⟨text, hcomment⟩
    · rw [hnewline]
      simp
    · rw [hcomment]
      simp
  have hrest : rest = [⟨.eof, stop⟩] :=
    NoEnd.rest_eq inside hinside hend (whole.symm.trans hlexemes)
  have hall :
      schema = ofDeclarations (.package clause.value :: (statements.map .importing ++ items)) := by
    rw [hschema, himported, ← List.foldl_append]
    rfl
  refine ⟨_, ?_, ?_, hall⟩
  · have hphrase := SchemaPhrase.mk stop hidle hpackaged hblock hentries
    have hsame :
        leading ++ (clauseLexemes ++ (importLexemes ++ (body ++ [⟨.eof, stop⟩]))) = lexemes := by
      rw [hlexemes, hrest]
      simp
    rw [hsame] at hphrase
    exact hphrase
  · constructor
    · rw [hall, declarations_ofDeclarations] at hdistinct
      exact hdistinct
    · rw [himported, declarations_foldl_push, declarations_push] at himportDistinct
      rw [← List.cons_append, importPaths_append, hentries.importPaths_eq_nil, List.append_nil]
      exact himportDistinct

/-- Behind a package clause and imports the reader looks for more imports, with these in its
schema. -/
theorem exists_ofLexemes_imports
    (eof : Location)
    {lexemes leading clauseLexemes importLexemes rest : List Lexeme}
    {clause : Package}
    {statements : List Import}
    {margin : Margin}
    (idle : ∀ lexeme ∈ leading, lexeme.IsIdle)
    (packaged : PackagePhrase clauseLexemes clause)
    (imported : ImportBlock .clear importLexemes statements margin)
    (distinct : (importPaths (.package clause :: statements.map .importing)).Nodup)
    (whole : lexemes = leading ++ (clauseLexemes ++ (importLexemes ++ rest))) :
    ∃ after,
      ofLexemes eof lexemes =
          (Grammar.imports (ofDeclarations (.package clause :: statements.map .importing)) after >>=
            fun found => Grammar.declarations found.1 found.2) ∧
        after.ahead = rest ∧ after.margin = margin := by
  have hstart :
      (Grammar.skipTrivia (Cursor.start eof lexemes)).ahead =
        clauseLexemes ++ (importLexemes ++ rest) := by
    rcases packaged.opens with ⟨start, more, rfl⟩
    refine Grammar.skipTrivia_complete idle (by simp [Lexeme.IsIdle, Token.packageWord]) ?_
    rw [whole]
    simp [Cursor.start]
  rcases Grammar.package_reads.complete _ _ clause packaged trivial hstart with
    ⟨first, hfirst, rfl, hfirstCovers⟩
  rw [Grammar.skipTrivia_pending rfl] at hfirstCovers
  have himportPaths :
      (importPaths
        ((statements.map Declaration.importing).foldl push
          (empty.push (.package first.value))).declarations).Nodup := by
    rw [declarations_foldl_push]
    exact distinct
  rcases Grammar.exists_imports_behind imported himportPaths hfirstCovers.margin
      (hfirstCovers.rest_eq hstart) with
    ⟨after, hafter, hrest, hmargin⟩
  refine ⟨after, ?_, hrest, hmargin⟩
  simp only [ofLexemes, hfirst, bind, Except.bind, hafter]
  rfl

/-- Behind the imports the reader goes on with the package and the imports as its schema. -/
theorem exists_ofLexemes_behind
    (eof : Location)
    {lexemes leading clauseLexemes importLexemes rest : List Lexeme}
    {clause : Package}
    {statements : List Import}
    {margin : Margin}
    (idle : ∀ lexeme ∈ leading, lexeme.IsIdle)
    (packaged : PackagePhrase clauseLexemes clause)
    (imported : ImportBlock .clear importLexemes statements margin)
    (distinct : (importPaths (.package clause :: statements.map .importing)).Nodup)
    (stops : Grammar.EndsImports rest)
    (whole : lexemes = leading ++ (clauseLexemes ++ (importLexemes ++ rest))) :
    ∃ after,
      ofLexemes eof lexemes =
          Grammar.declarations
            (ofDeclarations (.package clause :: statements.map .importing)) after ∧
        after.ahead = rest ∧ after.margin = margin := by
  rcases exists_ofLexemes_imports eof idle packaged imported distinct whole with
    ⟨after, hafter, rfl, hmargin⟩
  refine ⟨after, ?_, rfl, hmargin⟩
  rw [hafter, Grammar.imports_eq_of_endsImports _ stops]
  rfl

theorem ofLexemes_complete
    {eof : Location}
    {lexemes : List Lexeme}
    {declarations : List Declaration}
    (spelled : SchemaPhrase lexemes declarations)
    (distinct : Distinct declarations) :
    ofLexemes eof lexemes = .ok (ofDeclarations declarations) := by
  cases spelled with
  | @mk leading clauseLexemes importLexemes body clause statements margin items stop idle packaged
      imported entries =>
      have hend : Grammar.EndsImports [⟨.eof, stop⟩] :=
        ⟨_, _, rfl, by simp [Lexeme.IsIdle], by simp [Token.importWord]⟩
      rcases entries.splitTrivia hend with ⟨trailing, rest, next, rfl, htrailing, hentries, hstops⟩
      have hblock := imported.append htrailing
      rw [List.append_nil] at hblock
      have himportPaths : (importPaths (.package clause :: statements.map .importing)).Nodup := by
        have hall := distinct.imports
        rw [← List.cons_append, importPaths_append, List.nodup_append] at hall
        exact hall.1
      rcases exists_ofLexemes_behind eof idle packaged hblock himportPaths hstops rfl with
        ⟨after, hafter, hrest, hmargin⟩
      have hfaithful := ofDeclarations_faithful (.package clause :: statements.map .importing)
      have hnames :
          (declaredNames
            (items.foldl push
              (ofDeclarations
                (.package clause :: statements.map .importing))).declarations).Nodup := by
        rw [← ofDeclarations_append, declarations_ofDeclarations]
        exact distinct.names
      have hlast := Grammar.declarations_complete hfaithful hentries hnames hmargin hrest
      rw [← ofDeclarations_append, ← hafter] at hlast
      simpa using hlast

end Schema
end InterfaceSchema
