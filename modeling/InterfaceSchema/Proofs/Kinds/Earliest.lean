import InterfaceSchema.Proofs.Kinds.Declarations
import InterfaceSchema.Proofs.Notes.Attached

/-!
# Failures at the earliest token

A schema text is refused at the first token that the grammar does not allow there: what stands
before the token can be completed to a text of the grammar, and what includes it cannot. A text that
ends too early can be completed as a whole, and so can one up to a name or an import that repeats
another; what such a text declares before is free of repetitions.

* `Kinds.ofLexemes_error`: the steps put together, for any lexemes.
* `EarliestFailure`: the kinds of failures, and what each says about the text.
* `Schema.earliest_of_ofLexemes`: every failure of the reader of schemas is one of them.
-/

open scoped Computability

namespace InterfaceSchema
namespace Kinds

open Grammar

section Whole

variable {cursor : Cursor} {K L : Language Kind}

theorem skipTrivia_leads (opens : Opens IsName K) :
    Leads cursor (trivia∗ * K) (skipTrivia cursor) K := by
  induction cursor using skipTrivia.induct with
  | case1 cursor passed hpassed ih =>
      rcases trivia?_ahead hpassed with ⟨lexeme, hahead, hidle⟩
      have hgoesOn (later : List Kind) :
          lexeme.kind :: later ∈ trivia∗ * K ↔ later ∈ trivia∗ * K := by
        conv_lhs => rw [kstar_mul_eq]
        rw [Language.mem_add]
        constructor
        · rintro (hother | htrivia)
          · rcases opens.allowed hother with ⟨name, hname⟩
            rw [hname] at hidle
            simp [IsIdle] at hidle
          · exact (cons_mem_among_mul.1 htrivia).2
        · intro hlater
          exact Or.inr (cons_mem_among_mul.2 ⟨hidle, hlater⟩)
      rw [skipTrivia, hpassed]
      exact (Leads.first hahead hgoesOn).trans ih
  | case2 cursor hnone =>
      rw [skipTrivia, hnone, kstar_mul_eq]
      exact .left opens_among.mul (not_meets_of_trivia? hnone)

theorem package_tells [Possible K] : Tells (Grammar.package cursor) (package * K) K := by
  unfold package
  rw [mul_assoc, mul_assoc]
  unfold Grammar.package
  refine .bind (expect_tells (by rfl)) ?_
  intro word hword
  refine .bind (.andThen hword (dottedName_tells .packageName ?_)) ?_
  · exact opens_one.mul.not_begins (by simp)
  intro name hname
  refine .bind (.andThen hname (expect_tells (by rfl))) ?_
  intro close hclose
  exact .ok hclose

end Whole

/-! ## Up to a repetition -/

section Repetitions

variable {leading clauseLexemes importLexemes body : List Lexeme}

/-- A schema is cut as its rule says. -/
theorem append_mem_schema
    {statements items : List Kind}
    (idle : kinds leading ∈ trivia∗)
    (packaged : kinds clauseLexemes ∈ package)
    (imported : statements ∈ (trivia + importing)∗)
    (filled : items ∈ entries declaration) :
    kinds leading ++ (kinds clauseLexemes ++ (statements ++ (items ++ [.eof]))) ∈ schema := by
  have hdeclarations : items ++ [.eof] ∈ declarations :=
    Language.append_mem_mul filled (mem_one.2 rfl)
  have himports : statements ++ (items ++ [.eof]) ∈ imports :=
    Language.append_mem_mul imported hdeclarations
  exact Language.append_mem_mul idle (Language.append_mem_mul packaged himports)

theorem empty_mem_block (item : Language Kind) : [.leftBrace, .rightBrace] ∈ block item := by
  have hclosed : [] ++ [.rightBrace] ∈ entries item * one .rightBrace :=
    Language.append_mem_mul (Language.nil_mem_kstar _) (mem_one.2 rfl)
  exact cons_mem_one_mul.2 ⟨rfl, hclosed⟩

/-- A message or service may have any name, and an empty body. -/
theorem empty_mem_declaration
    {word : Lexeme}
    (opens : OpensDeclaration word)
    (name : String) :
    [word.kind, .ident name, .leftBrace, .rightBrace] ∈ declaration := by
  rcases word with ⟨token, place⟩
  rcases opens with (htoken : token = .messageWord) | (htoken : token = .serviceWord)
  · subst htoken
    have hbody : .ident name :: _ ∈ Kinds.name * block member :=
      ident_cons_mem_named_mul.2 ⟨trivial, empty_mem_block member⟩
    exact Or.inl (cons_mem_one_mul.2 ⟨rfl, hbody⟩)
  · subst htoken
    have hbody : .ident name :: _ ∈ Kinds.name * block method :=
      ident_cons_mem_named_mul.2 ⟨trivial, empty_mem_block method⟩
    exact Or.inr (cons_mem_one_mul.2 ⟨rfl, hbody⟩)

theorem begins_schema_of_name
    {word : Lexeme}
    {name : String}
    {place : Location}
    (idle : kinds leading ∈ trivia∗)
    (packaged : kinds clauseLexemes ∈ package)
    (imported : kinds importLexemes ∈ (trivia + importing)∗)
    (filled : kinds body ∈ entries declaration)
    (opens : OpensDeclaration word) :
    Begins schema
      (kinds (leading ++ (clauseLexemes ++ (importLexemes ++ body)) ++
        [word, ⟨.ident name, place⟩])) := by
  have hbody := append_mem_kstar_of_mem filled (Or.inr (empty_mem_declaration opens name))
  refine ⟨[.leftBrace, .rightBrace, .eof], ?_⟩
  simpa [Lexeme.kind, Token.kind] using append_mem_schema idle packaged imported hbody

theorem begins_schema_of_import
    {start place stop : Location}
    {path : String}
    (idle : kinds leading ∈ trivia∗)
    (packaged : kinds clauseLexemes ∈ package)
    (imported : kinds importLexemes ∈ (trivia + importing)∗) :
    Begins schema
      (kinds (leading ++ (clauseLexemes ++ importLexemes) ++
        [⟨.importWord, start⟩, ⟨.stringLiteral path, place⟩, ⟨.semicolon, stop⟩])) := by
  have hstatement : [.ident "import", .stringLiteral, .semicolon] ∈ importing :=
    cons_mem_one_mul.2 ⟨rfl, cons_mem_one_mul.2 ⟨rfl, mem_one.2 rfl⟩⟩
  have himports := append_mem_kstar_of_mem imported (Or.inr hstatement)
  have hnone : [] ∈ entries declaration := Language.nil_mem_kstar _
  refine ⟨[.eof], ?_⟩
  simpa [Lexeme.kind, Token.kind, Token.importWord] using
    append_mem_schema idle packaged himports hnone

end Repetitions

end Kinds

/-- A message or service begins with a name that one of the declarations before it has. The text up
to the name can be completed, and what stands before the message or service is whole but for its
end. -/
def RepeatedName (lexemes : List Lexeme) (name : String) (span : Span) : Prop :=
  ∃ before word place rest declarations,
    lexemes = before ++ word :: ⟨.ident name, place⟩ :: rest ∧
      Kinds.OpensDeclaration word ∧
      place.span = span ∧
      Kinds.Begins Kinds.schema (kinds (before ++ [word, ⟨.ident name, place⟩])) ∧
      (∀ stop, SchemaPhrase (before ++ [⟨.eof, stop⟩]) declarations) ∧
      Schema.Distinct declarations ∧
      name ∈ declaredNames declarations

/-- An import has the clean path of one before it. The text up to its end can be completed, and what
stands before it is whole but for its end. -/
def RepeatedImport (lexemes : List Lexeme) (path : String) (span : Span) : Prop :=
  ∃ before start place stop rest declarations,
    lexemes =
        before ++ ⟨.importWord, start⟩ :: ⟨.stringLiteral path, place⟩ :: ⟨.semicolon, stop⟩ ::
          rest ∧
      (start.through stop).span = span ∧
      Kinds.Begins Kinds.schema
        (kinds (before ++
          [⟨.importWord, start⟩, ⟨.stringLiteral path, place⟩, ⟨.semicolon, stop⟩])) ∧
      (∀ eof, SchemaPhrase (before ++ [⟨.eof, eof⟩]) declarations) ∧
      Schema.Distinct declarations ∧
      Path.clean path ∈ importPaths declarations

/-- What a failure to read a schema says about the text: the first token that the grammar does not
allow, the end of a text that goes on, or a repetition in a text that is fine before it. -/
inductive EarliestFailure (lexemes : List Lexeme) (failure : Failure) : Prop
  | refused
      (index : Nat)
      (lexeme : Lexeme)
      (cause : failure.cause.IsRefusal)
      (found : lexemes[index]? = some lexeme)
      (place : lexeme.location.span = failure.span)
      (alone :
        ∀ other twin,
          lexemes[other]? = some twin → twin.location.span = failure.span → other = index)
      (begun : Kinds.Begins Kinds.schema (kinds (lexemes.take index)))
      (refuses : ¬ Kinds.Begins Kinds.schema (kinds (lexemes.take (index + 1))))
  | ended
      (front : List Lexeme)
      (stop : Location)
      (expected : Expected)
      (cause : failure.cause = .unexpectedEnd expected)
      (whole : lexemes = front ++ [⟨.eof, stop⟩])
      (begun : Kinds.Begins Kinds.schema (kinds front))
  | repeatedName
      (name : String)
      (first : Span)
      (cause : failure.cause = .duplicateName name first)
      (repeats : RepeatedName lexemes name failure.span)
  | repeatedImport
      (path : String)
      (first : Span)
      (cause : failure.cause = .duplicateImport path first)
      (repeats : RepeatedImport lexemes path failure.span)

/-- Lexemes that end where the text ends and not before, each at a place of its own. -/
structure Delimited (lexemes : List Lexeme) : Prop where
  ended : ∃ front stop, lexemes = front ++ [⟨.eof, stop⟩] ∧ NoEnd front
  apart : (lexemes.map fun lexeme => lexeme.location.span).Nodup

namespace Schema

section Parts

variable
  {leading clauseLexemes importLexemes ahead : List Lexeme}
  {clause : Package}
  {statements : List Import}
  {margin : Margin}
  {failure : Failure}

/-- Imports behind trivia and a package clause that stop at one whose path is taken. -/
theorem repeatedImport_of_stops
    (idle : ∀ lexeme ∈ leading, lexeme.IsIdle)
    (packaged : PackagePhrase clauseLexemes clause)
    (stops : Kinds.StopsAtImport (empty.push (.package clause)) .clear ahead failure) :
    ∃ path first,
      failure.cause = .duplicateImport path first ∧
        RepeatedImport (leading ++ (clauseLexemes ++ ahead)) path failure.span := by
  rcases stops with
    ⟨importLexemes, rest, statements, last, path, start, stop, first, hblock, rfl, hdistinct,
      ⟨hknown, place, later, rfl⟩, rfl⟩
  have hdeclared :
      ((statements.map Declaration.importing).foldl push
          (empty.push (.package clause))).declarations =
        .package clause :: statements.map .importing := by
    rw [declarations_foldl_push, declarations_push]
    rfl
  have hidle := Kinds.idle_iff.1 idle
  have hpackaged := (Kinds.packagePhrase_spells clauseLexemes).1 ⟨clause, packaged⟩
  have himported := (Kinds.importBlock_spells _ _).1 ⟨statements, last, hblock⟩
  refine ⟨path, first, rfl, leading ++ (clauseLexemes ++ importLexemes), start, place, stop, later,
    _, by simp, rfl, ?_, ?_, ⟨?_, hdistinct⟩, ?_⟩
  · exact Kinds.begins_schema_of_import hidle hpackaged himported
  · intro eof
    rw [hdeclared]
    simpa using SchemaPhrase.mk eof idle packaged hblock (.nil last)
  · rw [hdeclared, declaredNames_opening]
    exact List.nodup_nil
  · by_contra hfresh
    exact hknown (importLocation?_eq_none_iff.2 hfresh)

/-- Declarations behind trivia, a package clause and imports that stop at one whose name is
taken. -/
theorem repeatedName_of_stops
    (idle : ∀ lexeme ∈ leading, lexeme.IsIdle)
    (packaged : PackagePhrase clauseLexemes clause)
    (imported : ImportBlock .clear importLexemes statements margin)
    (distinct : (importPaths (.package clause :: statements.map .importing)).Nodup)
    (stops :
      Kinds.StopsAtName (ofDeclarations (.package clause :: statements.map .importing)) margin
        ahead failure) :
    ∃ name first,
      failure.cause = .duplicateName name first ∧
        RepeatedName (leading ++ (clauseLexemes ++ (importLexemes ++ ahead))) name
          failure.span := by
  rcases stops with
    ⟨body, rest, items, name, place, first, hentries, rfl, hnames,
      ⟨hknown, word, later, rfl, hword⟩, rfl⟩
  have hdeclared :
      items.foldl push (ofDeclarations (.package clause :: statements.map .importing)) =
        ofDeclarations (.package clause :: (statements.map .importing ++ items)) := by
    simp [ofDeclarations]
  rw [hdeclared] at hknown hnames
  have hidle := Kinds.idle_iff.1 idle
  have hpackaged := (Kinds.packagePhrase_spells clauseLexemes).1 ⟨clause, packaged⟩
  have himported := (Kinds.importBlock_spells _ _).1 ⟨statements, margin, imported⟩
  have hfilled :=
    (Kinds.entries_spells Kinds.declarationPhrase_spells margin body).1 ⟨items, hentries⟩
  rw [declarations_ofDeclarations] at hnames
  refine ⟨name, first, rfl, leading ++ (clauseLexemes ++ (importLexemes ++ body)), word, place,
    later, .package clause :: (statements.map .importing ++ items), by simp, hword, rfl, ?_, ?_,
    ⟨hnames, ?_⟩, ?_⟩
  · exact Kinds.begins_schema_of_name hidle hpackaged himported hfilled hword
  · intro stop
    simpa using SchemaPhrase.mk stop idle packaged imported hentries
  · rw [← List.cons_append, importPaths_append, hentries.importPaths_eq_nil, List.append_nil]
    exact distinct
  · by_contra hfresh
    refine hknown ((ofDeclarations_faithful _).declarationLocation?_eq_none_iff.2 ?_)
    rw [declarations_ofDeclarations]
    exact hfresh

end Parts

/-- Lexemes from which no schema is read break the grammar, or repeat an import or a name. -/
theorem ofLexemes_error
    {eof : Location}
    {lexemes : List Lexeme}
    {failure : Failure}
    (fails : ofLexemes eof lexemes = .error failure) :
    Kinds.Breaks Kinds.schema lexemes failure ∨
      (∃ path first,
        failure.cause = .duplicateImport path first ∧
          RepeatedImport lexemes path failure.span) ∨
      ∃ name first,
        failure.cause = .duplicateName name first ∧ RepeatedName lexemes name failure.span := by
  simp only [ofLexemes] at fails
  have hlead : Kinds.Leads (Cursor.start eof lexemes) Kinds.schema _ _ :=
    Kinds.skipTrivia_leads (Kinds.opens_ident "package").mul.mul
  rcases Grammar.skipTrivia_sound (Cursor.start eof lexemes) with ⟨leading, hidle, hleading⟩
  have hlexemes : lexemes = leading ++ (Grammar.skipTrivia (Cursor.start eof lexemes)).ahead :=
    hleading
  cases hclause : Grammar.package (Grammar.skipTrivia (Cursor.start eof lexemes)) with
  | error other =>
      rw [hclause] at fails
      cases fails
      exact Or.inl (hlead.breaks (Kinds.package_tells.breaks hclause))
  | ok clause =>
      have hclauseLeads := hlead.trans (Kinds.package_tells.leads hclause)
      rcases Grammar.package_reads.sound hclause with ⟨clauseLexemes, hpackaged, hclauseCovers⟩
      rw [Grammar.skipTrivia_pending rfl] at hclauseCovers
      have hmargin : clause.after.margin = .clear := hclauseCovers.margin
      have hstartPaths : (importPaths (empty.push (.package clause.value)).declarations).Nodup :=
        List.nodup_nil
      rw [hclause] at fails
      simp only [bind, Except.bind] at fails
      cases himports : Grammar.imports (empty.push (.package clause.value)) clause.after with
      | error other =>
          rw [himports] at fails
          cases fails
          rcases Kinds.imports_error hstartPaths himports with hbreaks | hstops
          · exact Or.inl (hclauseLeads.breaks hbreaks)
          · rw [hmargin] at hstops
            rw [hlexemes, hclauseCovers.ahead]
            exact Or.inr (Or.inl (repeatedImport_of_stops hidle hpackaged hstops))
      | ok result =>
          rcases result with ⟨imported, after⟩
          have himportsLeads := hclauseLeads.trans (Kinds.imports_leads himports)
          rcases Grammar.imports_sound hstartPaths himports with
            ⟨importLexemes, statements, hblock, himportAhead, hpaths, himported⟩
          rw [hmargin] at hblock
          change imported = ofDeclarations (.package clause.value :: statements.map .importing)
            at himported
          subst himported
          rw [declarations_ofDeclarations] at hpaths
          have hnames :
              (declaredNames
                (ofDeclarations
                  (.package clause.value :: statements.map .importing)).declarations).Nodup := by
            rw [declarations_ofDeclarations, declaredNames_opening]
            exact List.nodup_nil
          rw [himports] at fails
          rcases Kinds.declarations_error (ofDeclarations_faithful _) hnames fails with
            hbreaks | hstops
          · exact Or.inl (himportsLeads.breaks hbreaks)
          · rw [hlexemes, hclauseCovers.ahead, himportAhead]
            exact Or.inr (Or.inr (repeatedName_of_stops hidle hpackaged hblock hpaths hstops))

/-- The lexemes of a text are delimited. -/
theorem delimited_of_scanText
    {text : List Char}
    {lexemes : List Lexeme}
    (scanned : scanText text = .ok lexemes) :
    Delimited lexemes where
  ended := scanText_end scanned
  apart := by
    rw [List.Nodup, List.pairwise_map]
    refine (scanText_starts scanned).imp ?_
    intro first second hstarts hsame
    rw [hsame] at hstarts
    exact absurd hstarts (Nat.lt_irrefl _)

/-- A text that breaks at its end can be completed from there. -/
theorem begins_of_ended
    {L : Language Kind}
    {lexemes inner front rest : List Lexeme}
    {stop : Location}
    (whole : lexemes = inner ++ [⟨.eof, stop⟩])
    (inside : NoEnd inner)
    (cut : lexemes = front ++ rest)
    (atEnd : Grammar.AtEnd rest)
    (begun : Kinds.Begins L (kinds front)) :
    Kinds.Begins L (kinds inner) := by
  have hprefix : ∃ more, front = inner ++ more := by
    rw [cut] at whole
    rcases List.append_eq_append_iff.1 whole with ⟨more, hinner, hend⟩ | ⟨more, hfront, _⟩
    · cases more with
      | nil =>
          exact ⟨[], by simpa using hinner.symm⟩
      | cons lexeme more =>
          have hmember : lexeme ∈ inner := by
            rw [hinner]
            simp
          rcases atEnd with hnil | ⟨place, later, hlater⟩
          · rw [hnil] at hend
            simp at hend
          · rw [hlater, List.cons_append, List.cons.injEq] at hend
            have hother := inside lexeme hmember
            rw [← hend.1] at hother
            exact absurd rfl hother
    · exact ⟨more, hfront⟩
  rcases hprefix with ⟨more, rfl⟩
  rcases begun with ⟨later, hlater⟩
  refine ⟨kinds more ++ later, ?_⟩
  rw [← List.append_assoc, ← kinds_append]
  exact hlater

theorem earliest_of_breaks
    {lexemes : List Lexeme}
    {failure : Failure}
    (delimited : Delimited lexemes)
    (breaks : Kinds.Breaks Kinds.schema lexemes failure) :
    EarliestFailure lexemes failure := by
  cases breaks with
  | ended front rest expected cut atEnd cause begun =>
      rcases delimited.ended with ⟨inner, stop, hwhole, hinside⟩
      exact .ended inner stop expected cause hwhole
        (begins_of_ended hwhole hinside cut atEnd begun)
  | refused front rest lexeme cut cause place begun refuses =>
      have hfound : lexemes[front.length]? = some lexeme := by
        simp [cut]
      refine .refused front.length lexeme cause hfound place.symm ?_ ?_ ?_
      · intro other twin htwin hspan
        have hother : other < (lexemes.map fun lexeme => lexeme.location.span).length := by
          rw [List.length_map]
          exact (List.getElem?_eq_some_iff.1 htwin).1
        refine (List.getElem?_inj hother delimited.apart).1 ?_
        rw [List.getElem?_map, List.getElem?_map, htwin, hfound]
        simp [hspan, place]
      · rw [cut, List.take_left]
        exact begun
      · have htake : lexemes.take (front.length + 1) = front ++ [lexeme] := by
          simp [cut, List.take_append]
        rw [htake]
        exact refuses

/-- The lexemes of every text are delimited, and every failure to read a schema from delimited
lexemes is found at the earliest token. -/
theorem earliest_of_ofLexemes :
    (∀ text lexemes, scanText text = .ok lexemes → Delimited lexemes) ∧
      ∀ eof lexemes failure,
        Delimited lexemes →
          ofLexemes eof lexemes = .error failure → EarliestFailure lexemes failure := by
  refine ⟨fun _ _ => delimited_of_scanText, ?_⟩
  intro eof lexemes failure hdelimited hfails
  rcases ofLexemes_error hfails with
    hbreaks | ⟨path, first, hcause, hrepeats⟩ | ⟨name, first, hcause, hrepeats⟩
  · exact earliest_of_breaks hdelimited hbreaks
  · exact .repeatedImport path first hcause hrepeats
  · exact .repeatedName name first hcause hrepeats

/-- A text with a group in a group, behind nested types and an annotation. -/
def nestedText : String :=
  "package a;\n@x(1 y,)\nmessage M \x7b oneof \x7b k map<uint8, array<n.M>> = 1; oneof"

/-- A text in which a service has the name of a message. -/
def repeatedText : String :=
  "package a;\nimport \"b\";\nmessage M \x7b\x7d\n# s\nservice M"

theorem earliest_of_ofLexemes_samples :
    (∃ lexemes,
        scanText nestedText.toList = .ok lexemes ∧
          EarliestFailure lexemes ⟨.nestedOneof, ⟨70, 75⟩⟩) ∧
      ∃ lexemes,
        scanText repeatedText.toList = .ok lexemes ∧
          EarliestFailure lexemes ⟨.duplicateName "M" ⟨23, 35⟩, ⟨48, 49⟩⟩ := by
  have hsample
      {text : List Char}
      {failure : Failure}
      (hscans : (scanText text).isOk = true)
      (hfails : ofText text = .error failure) :
      ∃ lexemes, scanText text = .ok lexemes ∧ EarliestFailure lexemes failure := by
    rcases exists_eq_ok_of_isOk hscans with ⟨lexemes, hlexemes⟩
    have hdelimited := earliest_of_ofLexemes.1 text lexemes hlexemes
    unfold ofText at hfails
    rw [hlexemes] at hfails
    exact ⟨lexemes, hlexemes, earliest_of_ofLexemes.2 _ lexemes failure hdelimited hfails⟩
  exact ⟨hsample (by decide +kernel) (by decide +kernel),
    hsample (by decide +kernel) (by decide +kernel)⟩

end Schema
end InterfaceSchema
