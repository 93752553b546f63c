import InterfaceSchema.Grammar.Schema
import InterfaceSchema.Proofs.Progress.Items
import InterfaceSchema.Proofs.Schema.Table
import InterfaceSchema.Proofs.Unplaced.Node

/-!
# Progress of the grammar

The reader by number of whole schemas follows the one of cursors, from the first lexeme to the end
of the text.

* `IsPackaged`: behind the package clause, every schema that is read knows its place, so that a
  second clause is never refused without one.
* `schema_progress`: reading ends, gets on in each round, stays inside the text, and succeeds only
  at its end.
-/

namespace InterfaceSchema
namespace Numbered

variable {page : Page} {desk : Desk} {cursor : Cursor}

/-! ## Before the declarations -/

section Opening

/-- What the loop before the package clause has to come to. It keeps no notes, of which none wait
before it. -/
def LeadingGoal
    (page : Page)
    (_ : Unit)
    (here : Cursor)
    (result : Except Stop Unit × Desk) : Prop :=
  here.pending = Notes.none →
    ∃ desk, result = (.ok (), desk) ∧ Stands page desk (Grammar.skipTrivia here)

/-- What passes a line feed or a comment and drops all notes is one lexeme further. -/
theorem exists_trivia?_detach
    {next : Advance cursor Lexeme}
    (found : cursor.next? = some next)
    (idle : isIdle next.value.token = true) :
    ∃ passed,
      cursor.trivia? = some passed ∧
        passed.detach.after = { next.after with pending := Notes.none } := by
  unfold Cursor.trivia?
  simp only [found]
  cases htoken : next.value.token with
  | newline => exact ⟨_, rfl, rfl⟩
  | comment text => exact ⟨_, rfl, rfl⟩
  | _ => simp [htoken, isIdle] at idle

theorem leadingRound_steps : Steps page (fun _ => True) (LeadingGoal page) leadingRound := by
  intro state desk cursor _ hstands
  unfold leadingRound
  rw [run_bind_of_ok hstands.run_peek]
  by_cases hidle : isIdle cursor.peek.token = true
  · have hmore := ne_eof_of_isIdle hidle
    obtain ⟨next, hnext, hvalue, hmoved⟩ := hstands.exists_next
    rw [if_pos hidle, run_bind_of_ok (hstands.run_bump hmore)]
    refine .goesOn (hmoved hmore) next.shorter trivial ?_
    intro result hgoal hpending
    have hkept : next.after.pending = Notes.none := by
      rw [(hmoved hmore).pending, ← hpending, hstands.pending]
      rfl
    obtain ⟨passed, hpassed, hafter⟩ := exists_trivia?_detach hnext (hvalue ▸ hidle)
    rw [← hkept] at hafter
    rw [Grammar.skipTrivia, hpassed]
    simp only [hafter]
    exact hgoal hkept
  · rw [if_neg hidle]
    refine .ends fun _ => ⟨desk, rfl, ?_⟩
    rw [Grammar.skipTrivia, trivia?_eq_none hstands (by simpa using hidle)]
    exact hstands

theorem package_follows : Follows page Grammar.package package := by
  intro desk cursor hstands
  refine (expect_follows (by simp [Token.packageWord]) desk cursor hstands).bind ?_
  rintro word _ _ ⟨rfl, hword⟩
  refine (Matches.andThen word (dottedName_follows .packageName) hword).bind ?_
  rintro name _ _ ⟨rfl, hname⟩
  refine (Matches.andThen name (expect_follows (by simp)) hname).bind ?_
  rintro close _ _ ⟨rfl, hclose⟩
  exact .ok ⟨rfl, hclose⟩

/-- An import is followed from behind its first word. -/
theorem importing_follows
    (schema : Schema)
    (word : Advance cursor Location)
    (stands : Stands page desk word.after) :
    Matches page (Arrives page) (Grammar.importing schema word)
      (run (importing schema word.value) page.sheet desk) := by
  refine (Matches.andThen word (select_follows .importPath rfl) stands).bind ?_
  rintro path _ _ ⟨rfl, hpath⟩
  refine (Matches.andThen path (expect_follows (by simp)) hpath).bind ?_
  rintro close _ _ ⟨rfl, hclose⟩
  dsimp only
  cases schema.importLocation? (Path.clean path.value.1) with
  | some first => exact .error hclose.sound
  | none => exact .ok ⟨rfl, hclose⟩

/-- A schema that has a package clause. -/
def IsPackaged (schema : Schema) : Prop :=
  ∃ clause, schema.packageLocation? = some clause

theorem isPackaged_package (clause : Package) :
    IsPackaged (Schema.empty.push (.package clause)) :=
  ⟨clause.location, rfl⟩

theorem IsPackaged.push
    {schema : Schema}
    (packaged : IsPackaged schema)
    (declaration : Declaration) :
    IsPackaged (schema.push declaration) := by
  obtain ⟨clause, hclause⟩ := packaged
  exact ⟨clause, Schema.packageLocation?_push hclause declaration⟩

/-- What the loop of imports has to come to behind a schema. -/
def ImportsGoal
    (page : Page)
    (schema : Schema)
    (here : Cursor)
    (result : Except Stop Schema × Desk) : Prop :=
  Matches page
    (fun value found desk => value.1 = found ∧ IsPackaged found ∧ Stands page desk value.2)
    (Grammar.imports schema here) result

theorem importRound_steps : Steps page IsPackaged (ImportsGoal page) importRound := by
  intro schema desk cursor hpackaged hstands
  unfold importRound
  rw [run_bind_of_ok hstands.run_peek]
  by_cases hidle : isIdle cursor.peek.token = true
  · obtain ⟨passed, after, htrivia, hrun, hpassed⟩ := exists_trivia hstands hidle
    rw [if_pos hidle, run_bind_of_ok hrun]
    refine .goesOn hpassed passed.shorter hpackaged ?_
    intro result hgoal
    rw [ImportsGoal, Grammar.imports, htrivia]
    exact hgoal
  · have hnothing := trivia?_eq_none hstands (by simpa using hidle)
    rw [if_neg hidle]
    refine hstands.take (by simp [Token.importWord]) ?_ ?_
    · intro word after hword harrives
      have hdetached : Stands page _ word.detach.after := harrives.stands.withPending Notes.none
      rw [run_setWaiting_bind, ← harrives.value]
      refine (importing_follows schema word.detach hdetached).run_bind ?_ ?_
      · intro failure last himport hsound
        refine .fails ?_
        rw [ImportsGoal, Grammar.imports, hnothing]
        simp only [hword, himport]
        exact .error hsound
      · rintro statement _ last himport ⟨rfl, hstatement⟩
        refine .goesOn hstatement statement.shorter (hpackaged.push _) ?_
        intro result hgoal
        rw [ImportsGoal, Grammar.imports, hnothing]
        simp only [hword, himport]
        exact hgoal
    · intro hnone _
      refine .ends ?_
      rw [ImportsGoal, Grammar.imports, hnothing]
      simp only [hnone]
      exact .ok ⟨rfl, hpackaged, hstands⟩

end Opening

/-! ## Declarations -/

section Declarations

variable {schema : Schema}

theorem newName_follows (schema : Schema) (expected : Expected) :
    Follows page (Grammar.newName schema expected) (newName schema expected) := by
  intro desk cursor hstands
  refine (ident_follows expected desk cursor hstands).bind ?_
  rintro name _ _ ⟨rfl, hname⟩
  cases schema.declarationLocation? name.value.1 with
  | some first => exact .error hname.sound
  | none => exact .ok ⟨rfl, hname⟩

/-- The name and the body of a message or service, if they are read behind its first word. -/
def bodyBehind
    {α : Type}
    (schema : Schema)
    (expected : Expected)
    (item : Grammar.Item α)
    (word : Advance cursor Location) :
    Except Failure (Advance cursor (String × List α × Location)) := do
  let name ← word.detach.andThen (Grammar.newName schema expected)
  let opening ← name.andThen fun after => after.expect .leftBrace
  let body ← opening.andThen (Grammar.block item)
  .ok (body.detach.map fun found => (name.value, found))

theorem namedBody_follows
    {α : Type}
    {item : Grammar.Item α}
    {reader : Reader α}
    (follows : Follows page item reader)
    (expected : Expected)
    (word : Advance cursor Location)
    (stands : Stands page desk word.after) :
    Matches page (Arrives page) (bodyBehind schema expected item word)
      (run (namedBody schema expected reader) page.sheet desk) := by
  unfold namedBody
  rw [run_setWaiting_bind]
  have hdetached : Stands page _ word.detach.after := stands.withPending Notes.none
  refine (Matches.andThen _ (newName_follows schema expected) hdetached).bind ?_
  rintro name _ _ ⟨rfl, hname⟩
  refine (Matches.andThen name (expect_follows (by simp)) hname).bind ?_
  rintro opening _ _ ⟨_, hopening⟩
  refine (Matches.andThen opening (block_follows follows) hopening).bind ?_
  rintro body _ _ ⟨rfl, hbody⟩
  rw [run_setWaiting_bind]
  exact .ok ⟨rfl, hbody.withPending _⟩

theorem message_eq (schema : Schema) (notes : Notes) (word : Advance cursor Location) :
    Grammar.message schema notes word = (do
      let body ← bodyBehind schema .messageName Grammar.member word
      .ok (body.map fun (name, members, close) =>
        { location := word.value.through close
          name := name
          notes := notes
          members := members })) := by
  simp only [Grammar.message, bodyBehind, bind_assoc]
  rfl

theorem service_eq (schema : Schema) (notes : Notes) (word : Advance cursor Location) :
    Grammar.service schema notes word = (do
      let body ← bodyBehind schema .serviceName Grammar.method word
      .ok (body.map fun (name, methods, close) =>
        { location := word.value.through close
          name := name
          notes := notes
          methods := methods })) := by
  simp only [Grammar.service, bodyBehind, bind_assoc]
  rfl

/-- A schema with a package clause refuses alike what is out of place. -/
theorem misplaced_follows
    {α β : Type}
    {holds : α → β → Desk → Prop}
    (packaged : IsPackaged schema)
    (stands : Stands page desk cursor) :
    Matches page holds (.error (Grammar.misplaced schema cursor))
      (run (misplaced schema) page.sheet desk) := by
  obtain ⟨clause, hclause⟩ := packaged
  unfold misplaced Grammar.misplaced
  rw [run_bind_of_ok stands.run_peek]
  by_cases himport : cursor.peek.token = .importWord
  · simp only [if_pos himport]
    exact .error stands.sound
  · by_cases hpackage : cursor.peek.token = .packageWord
    · simp only [if_neg himport, if_pos hpackage, hclause]
      exact .error stands.sound
    · simp only [if_neg himport, if_neg hpackage, stands.run_unexpected]
      exact .error stands.sound

theorem declaration_follows (packaged : IsPackaged schema) :
    Follows page (Grammar.declaration schema) (declaration schema) := by
  intro desk cursor hstands
  unfold declaration Grammar.declaration
  rw [run_waiting_bind, ← hstands.pending, run_bind_of_ok hstands.run_peek]
  refine hstands.take (by simp [Token.messageWord]) ?_ ?_
  · intro word after hword harrives
    simp only [hword, message_eq, bind_assoc, ← harrives.value]
    refine (namedBody_follows member_follows .messageName word harrives.stands).bind ?_
    rintro body _ _ ⟨rfl, hbody⟩
    exact .ok ⟨rfl, hbody⟩
  · intro hnone _
    simp only [hnone]
    refine hstands.take (by simp [Token.serviceWord]) ?_ ?_
    · intro word after hword harrives
      simp only [hword, service_eq, bind_assoc, ← harrives.value]
      refine (namedBody_follows method_follows .serviceName word harrives.stands).bind ?_
      rintro body _ _ ⟨rfl, hbody⟩
      exact .ok ⟨rfl, hbody⟩
    · intro hother _
      simp only [hother]
      exact misplaced_follows packaged hstands

/-- What the loop of declarations has to come to behind a schema: it ends at the last lexeme. -/
def DeclarationsGoal
    (page : Page)
    (schema : Schema)
    (here : Cursor)
    (result : Except Stop Schema × Desk) : Prop :=
  Matches page
    (fun value found desk => value = found ∧ desk.Sound page.last ∧ desk.number = page.last)
    (Grammar.declarations schema here) result

theorem declarationRound_steps :
    Steps page IsPackaged (DeclarationsGoal page) declarationRound := by
  intro schema desk cursor hpackaged hstands
  unfold declarationRound
  rw [run_bind_of_ok hstands.run_peek]
  by_cases hend : cursor.peek.token = .eof
  · rw [if_pos hend]
    refine .ends ?_
    rw [DeclarationsGoal, Grammar.declarations, if_pos hend]
    exact .ok ⟨rfl, hstands.sound, hstands.eof_iff.1 hend⟩
  · rw [if_neg hend]
    have hentry := entry_follows (declaration_follows hpackaged) desk cursor hstands
    refine hentry.run_bind ?_ ?_
    · intro failure after hfailure hsound
      refine .fails ?_
      rw [DeclarationsGoal, Grammar.declarations, if_neg hend, hfailure]
      exact .error hsound
    · rintro found _ after hfound ⟨rfl, harrived⟩
      have hkept : IsPackaged (found.value.elim schema schema.push) := by
        cases found.value with
        | none => exact hpackaged
        | some declaration => exact hpackaged.push declaration
      refine .goesOn harrived found.shorter hkept ?_
      intro result hgoal
      rw [DeclarationsGoal, Grammar.declarations, if_neg hend, hfound]
      exact hgoal

end Declarations

/-! ## The whole schema -/

theorem schema_follows (page : Page) :
    Matches page
      (fun value found desk => value = found ∧ desk.Sound page.last ∧ desk.number = page.last)
      (Schema.ofLexemes page.eof page.sheet.lexemes)
      (run schema page.sheet Desk.start) := by
  have hleading : LeadingGoal page () _ _ :=
    loop_follows leadingRound_steps trivial (stands_start page)
  obtain ⟨desk, hresult, hstands⟩ := hleading rfl
  unfold schema Schema.ofLexemes
  rw [run_bind_of_ok hresult]
  refine (package_follows desk _ hstands).bind ?_
  rintro clause _ behind ⟨rfl, hbehind⟩
  have himports : ImportsGoal page _ clause.after _ :=
    loop_follows importRound_steps (isPackaged_package clause.value) hbehind
  refine Matches.bind himports ?_
  rintro ⟨imported, rest⟩ _ last ⟨rfl, hpackaged, hlast⟩
  exact loop_follows declarationRound_steps hpackaged hlast

/-- Reading the lexemes of a whole text by number comes to just what the grammar makes of them: it
always ends, and is never led astray. Whether it succeeds or fails, its record is sound, so that it
went one lexeme further at a time, never past the end of the text, looked back only at lexemes that
are there, and got on in each round of each loop and on the way into each type. If it succeeds, it
has come to the end of the text. -/
theorem schema_progress
    (eof : Location)
    {lexemes front : List Lexeme}
    {stop : Location}
    (whole : lexemes = front ++ [⟨.eof, stop⟩])
    (inside : NoEnd front) :
    ∃ desk,
      run schema ⟨lexemes, eof⟩ Desk.start =
          ((Schema.ofLexemes eof lexemes).mapError .failure, desk) ∧
        desk.Sound front.length ∧
        ∀ schema, Schema.ofLexemes eof lexemes = .ok schema → desk.number = front.length := by
  subst whole
  have hmatches := schema_follows ⟨front, stop, eof, inside⟩
  simp only [Page.sheet, Page.last] at hmatches
  generalize Schema.ofLexemes eof _ = outcome at hmatches ⊢
  generalize run schema _ Desk.start = result at hmatches ⊢
  cases hmatches with
  | ok related =>
      obtain ⟨rfl, hsound, hend⟩ := related
      exact ⟨_, rfl, hsound, fun _ _ => hend⟩
  | error sound =>
      exact ⟨_, rfl, sound, fun _ hfailed => by simp at hfailed⟩

/-- A dotted package, an empty line, a comment and an annotation with a list, and a message with an
array inside a map and a group. -/
def sampleFront : List Lexeme :=
  [.newline, .packageWord, .ident "geo", .dot, .ident "maps", .semicolon, .newline, .newline,
    .comment "roads", .newline,
    .atName "old", .leftParen, .ident "by", .number 2, .comma, .rightParen, .newline,
    .messageWord, .ident "Road", .leftBrace, .newline,
    .ident "ways", .mapWord, .leftAngle, .ident "string", .comma,
    .arrayWord, .leftAngle, .ident "base", .dot, .ident "Way", .rightAngle, .rightAngle,
    .equals, .number 1, .semicolon,
    .oneofWord, .leftBrace, .ident "name", .ident "string", .equals, .number 2, .semicolon,
    .rightBrace, .equals, .number 3, .semicolon, .rightBrace].map fun token => ⟨token, .nowhere⟩

theorem schema_progress_sample :
    NoEnd sampleFront ∧
      ∃ schema desk,
        Schema.ofLexemes .nowhere (sampleFront ++ [⟨.eof, .nowhere⟩]) = .ok schema ∧
          run Numbered.schema ⟨sampleFront ++ [⟨.eof, .nowhere⟩], .nowhere⟩ Desk.start =
            (.ok schema, desk) ∧
          desk.Sound 48 ∧ desk.number = 48 := by
  have hinside : NoEnd sampleFront := by
    unfold NoEnd
    decide
  have hreads :
      (run schema ⟨sampleFront ++ [⟨.eof, .nowhere⟩], .nowhere⟩ Desk.start).1.toOption.isSome := by
    decide +kernel
  obtain ⟨desk, hrun, hsound, hend⟩ := schema_progress .nowhere rfl hinside
  rw [hrun] at hreads
  cases hread : Schema.ofLexemes .nowhere (sampleFront ++ [⟨.eof, .nowhere⟩]) with
  | error failure =>
      rw [hread] at hreads
      exact absurd hreads Bool.false_ne_true
  | ok schema =>
      rw [hread] at hrun
      exact ⟨hinside, schema, desk, rfl, hrun, hsound, hend schema hread⟩

end Numbered
end InterfaceSchema
