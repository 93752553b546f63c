import InterfaceSchema.Proofs.Failures.Repetition
import InterfaceSchema.Proofs.Locations.Nested
import InterfaceSchema.Proofs.Notes.Attached
import InterfaceSchema.Proofs.Schema.Lookup
import InterfaceSchema.Proofs.Token.Refused

/-!
# Well-formed errors

What an error says about the text it was found in, whatever the text is.

* `Span.FitsIn`: a span begins and ends between characters of a text. Those of lexemes, of failures
  and of everything that they point to do.
* `Cause.repeats`: the declarations that a repetition repeats. `Repeats.exists_first`: there is just
  one, and the failure points to it.
* `ParseError.WellFormed`, `wellFormed_of_parse`: the errors of the parser.
-/

namespace InterfaceSchema

/-! ## Spans -/

/-- A span lies in a text, and begins and ends between two of its characters. -/
structure Span.FitsIn (text : List Char) (span : Span) : Prop where
  ordered : span.start ≤ span.stop
  inside : span.stop ≤ byteLength text
  starts : ∃ before behind, text = before ++ behind ∧ span.start = byteLength before
  stops : ∃ before behind, text = before ++ behind ∧ span.stop = byteLength before

section Spans

variable {text : List Char}

theorem Cuts.fitsIn
    {span : Span}
    {before slice behind : List Char}
    (cuts : Cuts text span before slice behind) :
    span.FitsIn text where
  ordered := by
    rw [cuts.start, cuts.stop, byteLength_append]
    exact Nat.le_add_right _ _
  inside := by
    rw [cuts.whole, cuts.stop, byteLength_append _ behind]
    exact Nat.le_add_right _ _
  starts := ⟨before, slice ++ behind, by rw [cuts.whole, List.append_assoc], cuts.start⟩
  stops := ⟨before ++ slice, behind, cuts.whole, cuts.stop⟩

theorem Shows.fitsIn
    {location : Location}
    {opening closing : List Char}
    (showing : Shows text location opening closing) :
    location.span.FitsIn text := by
  rcases showing with ⟨before, slice, behind, hcovers, _⟩
  exact hcovers.cuts.fitsIn

/-- The end of a text lies in it. -/
theorem Span.fitsIn_end (text : List Char) :
    (⟨byteLength text, byteLength text⟩ : Span).FitsIn text := by
  have hcuts : Cuts text ⟨byteLength text, byteLength text⟩ text [] [] := by
    constructor
    · simp
    · rfl
    · rw [List.append_nil]
  exact hcuts.fitsIn

theorem Span.FitsIn.through
    {first last : Location}
    (fits : first.span.FitsIn text)
    (also : last.span.FitsIn text)
    (ordered : first.span.start ≤ last.span.start) :
    (first.through last).span.FitsIn text :=
  ⟨Nat.le_trans ordered also.ordered, also.inside, fits.starts, also.stops⟩

variable {lexemes : List Lexeme}

/-- Every lexeme of a text lies in it, and the last one at its end. -/
theorem fitsIn_of_scanText
    (scanned : scanText text = .ok lexemes)
    {lexeme : Lexeme}
    (member : lexeme ∈ lexemes) :
    lexeme.location.span.FitsIn text ∧
      (lexeme.token = .eof → lexeme.location.span = ⟨byteLength text, byteLength text⟩) := by
  rcases scanText_eq_ok scanned with ⟨found, hfound, rfl⟩
  rcases List.mem_map.1 member with ⟨piece, hpiece, rfl⟩
  have htiling := tiling_of_pieces hfound
  constructor
  · rcases htiling.exists_cut piece hpiece with ⟨before, slice, behind, hwhole, hspan⟩
    rw [Nat.zero_add, ← byteLength_append] at hspan
    have hcuts : Cuts text piece.span before slice behind := by
      rw [hspan]
      exact ⟨hwhole, rfl, rfl⟩
    exact hcuts.fitsIn
  · intro hend
    rcases htiling.exists_front with ⟨front, rfl, hfront⟩
    rcases List.mem_append.1 hpiece with hinner | hlast
    · exact absurd hend (hfront piece hinner)
    · rw [List.mem_singleton.1 hlast, Nat.zero_add]
      rfl

end Spans

/-! ## Repetitions -/

/-- The causes that point to something before. -/
def Cause.IsRepetition : Cause → Prop
  | duplicatePackage _ | duplicateImport _ _ | duplicateName _ _ => True
  | _ => False

/-- Whether a cause is the repetition of a declaration. -/
def Cause.repeats : Cause → Declaration → Bool
  | duplicatePackage _, .package _ => true
  | duplicateImport path _, .importing statement => Path.clean statement.path = Path.clean path
  | duplicateName name _, .message declared => declared.name = name
  | duplicateName name _, .service declared => declared.name = name
  | _, _ => false

theorem Cause.repeats_duplicateImport (path : String) (first : Span) :
    repeats (.duplicateImport path first) =
      fun other => decide (other.importPath? = some (Path.clean path)) := by
  funext declaration
  cases declaration <;> simp [repeats, Declaration.importPath?]

theorem Cause.repeats_duplicateName (name : String) (first : Span) :
    repeats (.duplicateName name first) = fun other => decide (other.name? = some name) := by
  funext declaration
  cases declaration <;> simp [repeats, Declaration.name?]

/-- A cause that is no repetition points to the place of the failure only. -/
theorem Cause.span_of_mem_labels
    {cause : Cause}
    {span : Span}
    {label : Label}
    (single : ¬ cause.IsRepetition)
    (member : label ∈ cause.labels span) :
    label.span = span := by
  cases cause <;> simp_all [IsRepetition, labels]

theorem Cause.IsLocal.not_isRepetition {cause : Cause} (isLocal : cause.IsLocal) :
    ¬ cause.IsRepetition := by
  cases cause <;> simp_all [IsLocal, IsRepetition]

theorem Cause.IsLocal.isLexical_eq_false {cause : Cause} (isLocal : cause.IsLocal) :
    cause.isLexical = false := by
  cases cause <;> first | rfl | exact isLocal.elim

/-- Cutting a text into tokens finds no repetitions. -/
theorem Cause.not_isRepetition_of_isLexical {cause : Cause} (lexical : cause.isLexical = true) :
    ¬ cause.IsRepetition := by
  cases cause <;> first | exact not_false | cases lexical

section Repetitions

variable {before rest : List Lexeme} {stop : Location} {declarations : List Declaration}
variable {failure : Failure}

/-- The package clause is the first declaration, and no other is one. -/
theorem exists_clause_of_spelled
    (spelled : SchemaPhrase (before ++ [⟨.eof, stop⟩]) declarations)
    (first : Span) :
    ∃ clause,
      (Schema.ofDeclarations declarations).packageLocation? = some clause.location ∧
        declarations.filter (Cause.repeats (.duplicatePackage first)) = [.package clause] := by
  generalize before ++ [⟨.eof, stop⟩] = lexemes at spelled
  cases spelled with
  | @mk leading clauseLexemes importLexemes body clause imports margin items place idle packaged
      imported entries =>
      refine ⟨clause, ?_, ?_⟩
      · unfold Schema.packageLocation?
        rw [Schema.declarations_ofDeclarations]
        rfl
      · rw [List.filter_cons_of_pos rfl, List.filter_append]
        have himports :
            (imports.map Declaration.importing).filter (Cause.repeats (.duplicatePackage first)) =
              [] := by
          rw [List.filter_eq_nil_iff]
          intro declaration hmember
          rcases List.mem_map.1 hmember with ⟨statement, _, rfl⟩
          simp [Cause.repeats]
        have hitems : items.filter (Cause.repeats (.duplicatePackage first)) = [] := by
          rw [List.filter_eq_nil_iff]
          intro item hmember
          rcases entries.exists_spelled hmember with ⟨notes, taken, hitem, _⟩
          cases hitem <;> simp [Cause.repeats]
        rw [himports, hitems, List.append_nil]

/-- Just one declaration is repeated, and the failure points to it. -/
theorem Repeats.exists_first
    (spelled : SchemaPhrase (before ++ [⟨.eof, stop⟩]) declarations)
    (distinct : Schema.Distinct declarations)
    (repeats : Repeats (Schema.ofDeclarations declarations) rest failure) :
    ∃ first,
      declarations.filter failure.cause.repeats = [first] ∧
        (failure.cause.labels failure.span).map Label.span =
          [first.location.span, failure.span] := by
  have hdeclarations := Schema.declarations_ofDeclarations declarations
  cases repeats with
  | @package location place later known =>
      rcases exists_clause_of_spelled spelled location.span with ⟨clause, hclause, hfilter⟩
      rw [hclause] at known
      cases known
      exact ⟨_, hfilter, rfl⟩
  | @importing path location start place stop later known =>
      unfold Schema.importLocation? at known
      rw [hdeclarations] at known
      rcases List.exists_of_findSome?_eq_some known with ⟨declaration, hmember, hfound⟩
      rcases declaration with clause | statement | message | service
      · cases hfound
      · dsimp only at hfound
        split at hfound
        · next hpath =>
          cases hfound
          refine ⟨.importing statement, ?_, rfl⟩
          dsimp only
          rw [Cause.repeats_duplicateImport]
          exact (filter_eq_singleton_iff distinct.imports).2 ⟨hmember, congrArg some hpath⟩
        · cases hfound
      · cases hfound
      · cases hfound
  | @name token name location start place later opens known =>
      rw [Schema.declarationLocation?_eq_some_iff (Schema.ofDeclarations_faithful _)
        (by rw [hdeclarations]; exact distinct.names), hdeclarations] at known
      rcases known with ⟨declaration, hdeclared, rfl⟩
      refine ⟨declaration, ?_, rfl⟩
      dsimp only
      rw [Cause.repeats_duplicateName]
      exact (filter_eq_singleton_iff distinct.names).2 hdeclared

/-- What repeats something begins with a word, and is found there or behind it. -/
theorem Repeats.opens
    {schema : Schema}
    {text : List Char}
    (repeats : Repeats schema rest failure)
    (scanned : scanText text = .ok (before ++ rest)) :
    failure.span.FitsIn text ∧
      ∃ head later,
        rest = head :: later ∧
          head.token ≠ .eof ∧ head.location.span.start ≤ failure.span.start := by
  have hfits (lexeme : Lexeme) (hmember : lexeme ∈ rest) : lexeme.location.span.FitsIn text :=
    (fitsIn_of_scanText scanned (List.mem_append_right before hmember)).1
  have hstarts := (List.pairwise_append.1 (scanText_starts scanned)).2.1
  cases repeats with
  | package place later known =>
      have hhead := hfits ⟨.packageWord, place⟩ (by simp)
      exact ⟨hhead, _, _, rfl, by simp [Token.packageWord], Nat.le_refl _⟩
  | importing start place stop later known =>
      have hfirst := hfits ⟨.importWord, start⟩ (by simp)
      have hlast := hfits ⟨.semicolon, stop⟩ (by simp)
      have hless := (List.pairwise_cons.1 hstarts).1 ⟨.semicolon, stop⟩ (by simp)
      refine ⟨hfirst.through hlast (Nat.le_of_lt hless), _, _, rfl, ?_, Nat.le_refl _⟩
      simp [Token.importWord]
  | @name token name first start place later opens known =>
      have hless := (List.pairwise_cons.1 hstarts).1 ⟨.ident name, place⟩ (by simp)
      refine ⟨hfits ⟨.ident name, place⟩ (by simp), _, _, rfl, ?_, Nat.le_of_lt hless⟩
      rcases opens with rfl | rfl
      · simp [Token.messageWord]
      · simp [Token.serviceWord]

end Repetitions

/-- What stands before some lexemes of a text is laid before the first of them. -/
theorem exists_laid_before
    {text : List Char}
    {before later : List Lexeme}
    {head : Lexeme}
    (scanned : scanText text = .ok (before ++ head :: later))
    (inside : head.token ≠ .eof) :
    ∃ middle, Laid text 0 middle before ∧ middle ≤ head.location.span.start := by
  rcases exists_laid_of_scanText scanned with ⟨front, last, stop, hfront, hlaid, _⟩
  rcases List.eq_nil_or_concat later with rfl | ⟨inner, final, rfl⟩
  · rcases List.append_inj' hfront rfl with ⟨_, hhead⟩
    rw [List.singleton_inj.1 hhead] at inside
    exact absurd rfl inside
  · rw [List.concat_eq_append, ← List.cons_append, ← List.append_assoc] at hfront
    rw [← (List.append_inj' hfront rfl).1] at hlaid
    rcases hlaid.split with ⟨middle, hbefore, hrest⟩
    cases hrest with
    | cons blank separators stands later =>
        refine ⟨middle, hbefore, ?_⟩
        rw [blank.stop_eq]
        exact Nat.le_add_right _ _

/-! ## Errors -/

namespace ParseError

variable {file text : String} {error : ParseError}

/-- An error repeats the one declaration before it that it points to first, and points to itself
then. -/
def PointsBack (file text : String) (error : ParseError) : Prop :=
  ∃ before rest declarations first,
    scan file text = .ok (before ++ rest) ∧
      (∀ stop, SchemaPhrase (before ++ [⟨.eof, stop⟩]) declarations) ∧
      Repeats (Schema.ofDeclarations declarations) rest ⟨error.cause, error.span⟩ ∧
      declarations.filter error.cause.repeats = [first] ∧
      error.labels.map Label.span = [first.location.span, error.span] ∧
      first.location.span.stop ≤ error.span.start

/-- What an error of the parser says about the text. -/
structure WellFormed (file text : String) (error : ParseError) : Prop where
  isLexical_iff : error.isLexical = true ↔ ∃ other, scan file text = .error other
  scanned : ∀ other, scan file text = .error other → error = other
  labels : ∀ label ∈ error.labels, label.span.FitsIn text.toList
  position :
    ∃ before behind,
      text.toList = before ++ behind ∧
        error.span.start = byteLength before ∧
        error.position =
          ⟨before.count '\n' + 1, (Position.lastLine before).length + 1⟩
  ended :
    ∀ expected,
      error.cause = .unexpectedEnd expected →
        error.span = ⟨byteLength text.toList, byteLength text.toList⟩
  repetition : error.cause.IsRepetition → error.PointsBack file text

end ParseError

section Parsing

variable {file text : String} {failure : Failure} {lexemes : List Lexeme}

/-- A failure at a position that is counted up to it. -/
theorem exists_position (fits : failure.span.FitsIn text.toList) :
    ∃ before behind,
      text.toList = before ++ behind ∧
        failure.span.start = byteLength before ∧
        (ParseError.ofFailure file text.toList failure).position =
          ⟨before.count '\n' + 1, (Position.lastLine before).length + 1⟩ := by
  rcases fits.starts with ⟨before, behind, hwhole, hstart⟩
  refine ⟨before, behind, hwhole, hstart, ?_⟩
  unfold ParseError.ofFailure
  dsimp only
  rw [hstart, hwhole, LineIndex.resolve_eq_after, Position.after_eq]

/-- A text that cannot be cut. -/
theorem wellFormed_of_scanText (fails : scanText text.toList = .error failure) :
    (ParseError.ofFailure file text.toList failure).WellFormed file text := by
  rcases refuses_of_scanText fails with ⟨hlexical, before, slice, behind, hcuts⟩
  have hscan : scan file text = .error (ParseError.ofFailure file text.toList failure) := by
    unfold scan
    rw [fails]
    rfl
  have hsingle := Cause.not_isRepetition_of_isLexical hlexical
  constructor
  · exact ⟨fun _ => ⟨_, hscan⟩, fun _ => hlexical⟩
  · intro other hother
    rw [hscan] at hother
    exact Except.error.inj hother
  · intro label hlabel
    rw [Cause.span_of_mem_labels hsingle hlabel]
    exact hcuts.fitsIn
  · exact exists_position hcuts.fitsIn
  · intro expected hcause
    have hend : failure.cause = .unexpectedEnd expected := hcause
    rw [hend] at hlexical
    cases hlexical
  · exact fun hrepeats => absurd hrepeats hsingle

/-- A text that was cut, from whose lexemes no schema is read. -/
theorem wellFormed_of_ofLexemes
    (scanned : scanText text.toList = .ok lexemes)
    (grammar : failure.cause.isLexical = false)
    (labels :
      ∀ label ∈ failure.cause.labels failure.span, label.span.FitsIn text.toList)
    (fits : failure.span.FitsIn text.toList)
    (ended :
      ∀ expected,
        failure.cause = .unexpectedEnd expected →
          failure.span = ⟨byteLength text.toList, byteLength text.toList⟩)
    (repetition :
      failure.cause.IsRepetition →
        (ParseError.ofFailure file text.toList failure).PointsBack file text) :
    (ParseError.ofFailure file text.toList failure).WellFormed file text := by
  have hscan : ∀ other, scan file text ≠ .error other := by
    intro other hother
    unfold scan at hother
    rw [scanned] at hother
    cases hother
  constructor
  · constructor
    · intro hlexical
      have hcause : failure.cause.isLexical = true := hlexical
      rw [hcause] at grammar
      cases grammar
    · rintro ⟨other, hother⟩
      exact absurd hother (hscan other)
  · exact fun other hother => absurd hother (hscan other)
  · exact labels
  · exact exists_position fits
  · exact ended
  · exact repetition

/-- A failure with a local cause is found at a lexeme, and at the last one if the text ends too
early. -/
theorem exists_lexeme_of_isLocal
    {eof : Location}
    (fails : Schema.ofLexemes eof lexemes = .error failure)
    (isLocal : failure.cause.IsLocal) :
    ∃ token place,
      ((⟨token, place⟩ : Lexeme) ∈ lexemes ∨ token = .eof ∧ place = eof) ∧
        failure.span = place.span ∧
        ∀ expected, failure.cause = .unexpectedEnd expected → token = .eof := by
  have hcursors := Pairing.within_cursors (Cursor.start eof lexemes)
  have hagree := Pairing.ofLexemes_agrees hcursors.ahead hcursors.eof
  have hsame :
      Schema.ofLexemes (Cursor.start eof lexemes).eof (Cursor.start eof lexemes).ahead =
        .error failure :=
    fails
  rw [hsame] at hagree
  cases hagree with
  | error failures =>
      rcases failures with ⟨clause, clause', hmishaps⟩
      rcases (hmishaps.failures isLocal).place with
        ⟨token, place, other, ⟨_, hwithin⟩, hspan, _, hends⟩
      exact ⟨token, place, hwithin, hspan, hends⟩

/-- A failure with a local cause, at a place in the text or at its end. -/
theorem wellFormed_of_isLocal
    {eof : Location}
    (scanned : scanText text.toList = .ok lexemes)
    (eof_span : eof.span = ⟨byteLength text.toList, byteLength text.toList⟩)
    (fails : Schema.ofLexemes eof lexemes = .error failure)
    (isLocal : failure.cause.IsLocal) :
    (ParseError.ofFailure file text.toList failure).WellFormed file text := by
  rcases exists_lexeme_of_isLocal fails isLocal with ⟨token, place, hplace, hspan, hends⟩
  have hfits :
      place.span.FitsIn text.toList ∧
        (token = .eof → place.span = ⟨byteLength text.toList, byteLength text.toList⟩) := by
    rcases hplace with hmember | ⟨_, rfl⟩
    · exact fitsIn_of_scanText scanned hmember
    · rw [eof_span]
      exact ⟨Span.fitsIn_end text.toList, fun _ => rfl⟩
  rw [← hspan] at hfits
  refine wellFormed_of_ofLexemes scanned isLocal.isLexical_eq_false ?_ hfits.1 ?_ ?_
  · intro label hlabel
    rw [Cause.span_of_mem_labels isLocal.not_isRepetition hlabel]
    exact hfits.1
  · exact fun expected hcause => hfits.2 (hends expected hcause)
  · exact fun hrepeats => absurd hrepeats isLocal.not_isRepetition

/-- A failure that repeats a declaration, which lies in the text before it. -/
theorem wellFormed_of_repeats
    {before rest : List Lexeme}
    {declarations : List Declaration}
    (scanned : scanText text.toList = .ok (before ++ rest))
    (spelled : ∀ stop, SchemaPhrase (before ++ [⟨.eof, stop⟩]) declarations)
    (distinct : Schema.Distinct declarations)
    (repeats : Repeats (Schema.ofDeclarations declarations) rest failure) :
    (ParseError.ofFailure file text.toList failure).WellFormed file text := by
  rcases repeats.opens scanned with ⟨hfits, head, later, rfl, hinside, hstart⟩
  rcases repeats.exists_first (spelled .nowhere) distinct with ⟨first, hfilter, hlabels⟩
  rcases exists_laid_before scanned hinside with ⟨middle, hlaid, hmiddle⟩
  have hnested := (spelled .nowhere).nested hlaid
  have hmember : first ∈ declarations := by
    have honly := List.mem_singleton_self first
    rw [← hfilter] at honly
    exact (List.mem_filter.1 honly).1
  have hsite : first.site ∈ declarations.map Declaration.site := List.mem_map_of_mem hmember
  have hfirst := (hnested.shows hsite).fitsIn
  have hbefore := (hnested.inOrder.inside _ hsite).2
  rw [Declaration.location_site] at hfirst hbefore
  refine wellFormed_of_ofLexemes scanned ?_ ?_ hfits ?_ ?_
  · cases repeats <;> rfl
  · intro label hlabel
    have hspans : label.span ∈ (failure.cause.labels failure.span).map Label.span :=
      List.mem_map_of_mem hlabel
    rw [hlabels] at hspans
    rcases List.mem_pair.1 hspans with hsame | hsame
    · rw [hsame]
      exact hfirst
    · rw [hsame]
      exact hfits
  · intro expected hcause
    cases repeats <;> cases hcause
  · intro _
    refine ⟨before, _, declarations, first, ?_, spelled, repeats, hfilter, hlabels, ?_⟩
    · unfold scan
      rw [scanned]
      rfl
    · exact Nat.le_trans hbefore (Nat.le_trans hmiddle hstart)

end Parsing

/-- Every error of the parser is well-formed. It is a lexical one just if the text cannot be cut,
and then the error that cutting it finds. Its labels lie in the text, its position is that of its
first character, and an error at the end of the text is found there. A repetition points to the one
declaration before that it repeats. -/
theorem wellFormed_of_parse
    {file text : String}
    {error : ParseError}
    (fails : Schema.parse file text = .error error) :
    error.WellFormed file text := by
  unfold Schema.parse at fails
  cases hread : Schema.ofText text.toList with
  | ok schema =>
      rw [hread] at fails
      cases fails
  | error failure =>
      rw [hread] at fails
      cases fails
      unfold Schema.ofText at hread
      rcases bind_eq_error_iff.1 hread with hscan | ⟨lexemes, hlexemes, hfails⟩
      · exact wellFormed_of_scanText hscan
      rcases Schema.ofLexemes_fails hfails with
        hlocal | ⟨before, rest, declarations, rfl, hspelled, hdistinct, hrepeats⟩
      · exact wellFormed_of_isLocal hlexemes rfl hfails hlocal
      · exact wellFormed_of_repeats hlexemes hspelled hdistinct hrepeats

/-- A text that imports a file twice, one that ends too early, and one that cannot be cut. -/
theorem wellFormed_of_parse_samples :
    (Schema.parse "a.yarp" "package p;import \"b\";# é\nimport \"./b\";" =
          .error ⟨"a.yarp", .duplicateImport "./b" ⟨10, 21⟩, ⟨26, 39⟩, ⟨2, 1⟩⟩ ∧
        ParseError.WellFormed "a.yarp" "package p;import \"b\";# é\nimport \"./b\";"
          ⟨"a.yarp", .duplicateImport "./b" ⟨10, 21⟩, ⟨26, 39⟩, ⟨2, 1⟩⟩) ∧
      (Schema.parse "a.yarp" "package p;message M" =
          .error ⟨"a.yarp", .unexpectedEnd (.exactly .leftBrace), ⟨19, 19⟩, ⟨1, 20⟩⟩ ∧
        ParseError.WellFormed "a.yarp" "package p;message M"
          ⟨"a.yarp", .unexpectedEnd (.exactly .leftBrace), ⟨19, 19⟩, ⟨1, 20⟩⟩) ∧
      Schema.parse "a.yarp" "package p;é" =
          .error ⟨"a.yarp", .unexpectedCharacter 'é', ⟨10, 12⟩, ⟨1, 11⟩⟩ ∧
        ParseError.WellFormed "a.yarp" "package p;é"
          ⟨"a.yarp", .unexpectedCharacter 'é', ⟨10, 12⟩, ⟨1, 11⟩⟩ := by
  have htwice :
      Schema.parse "a.yarp" "package p;import \"b\";# é\nimport \"./b\";" =
        .error ⟨"a.yarp", .duplicateImport "./b" ⟨10, 21⟩, ⟨26, 39⟩, ⟨2, 1⟩⟩ := by
    decide +kernel
  have hends :
      Schema.parse "a.yarp" "package p;message M" =
        .error ⟨"a.yarp", .unexpectedEnd (.exactly .leftBrace), ⟨19, 19⟩, ⟨1, 20⟩⟩ := by
    decide +kernel
  have hcut :
      Schema.parse "a.yarp" "package p;é" =
        .error ⟨"a.yarp", .unexpectedCharacter 'é', ⟨10, 12⟩, ⟨1, 11⟩⟩ := by
    decide +kernel
  exact
    ⟨⟨htwice, wellFormed_of_parse htwice⟩, ⟨hends, wellFormed_of_parse hends⟩, hcut,
      wellFormed_of_parse hcut⟩

end InterfaceSchema
