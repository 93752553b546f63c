import InterfaceSchema.Proofs.Locations.Laid
import InterfaceSchema.Proofs.Reading.Repeated
import InterfaceSchema.Proofs.Unplaced.Text

/-!
# Texts one behind another

Declarations may be written behind a whole schema. An empty line between the two detaches all notes
that wait at the end of the schema, so the declarations are read as if they stood behind a package
clause of their own.

* `exists_scan_joined`: the lexemes of two texts with an empty line between them.
* `Entries.of_newline`, `Entries.joined`: bodies before and behind an empty line.
* `SchemaPhrase.joined`: declarations behind a schema.
* `Schema.exists_behind_clause`: what stands behind a package clause and a line feed.
* `Schema.joined_of_parse`: the schema of two texts, or the first declaration of the second whose
  name the first has.
-/

namespace InterfaceSchema

/-! ## Lexemes -/

section Scanning

variable {file first second : String}

/-- The lexemes of two texts with an empty line between them. Those of the second text stand behind
the first. -/
theorem exists_scan_joined
    {front later : List Lexeme}
    {stop : Location}
    (scanned : scan file first = .ok (front ++ [⟨.eof, stop⟩]))
    (scannedToo : scan file second = .ok later) :
    ∃ feed other moved,
      scan file (first ++ "\n\n" ++ second) =
          .ok (front ++ ⟨.newline, feed⟩ :: ⟨.newline, other⟩ :: moved) ∧
        SameTokens later moved ∧
        ∀ lexeme ∈ moved, byteLength first.toList ≤ lexeme.location.span.start := by
  have hempty : scanText "".toList = .ok ([] ++ [⟨.eof, .nowhere⟩]) := by
    decide +kernel
  have hsecond := scan_line_of_ok (mapError_eq_ok_iff.2 hempty) scannedToo
  have hwhole := scan_line_of_ok scanned hsecond
  have htext : first ++ "\n" ++ ("" ++ "\n" ++ second) = first ++ "\n\n" ++ second := by
    have hfeeds : "\n\n" = "\n" ++ "\n" := rfl
    simp only [hfeeds, String.empty_append, String.append_assoc]
  rw [htext] at hwhole
  refine ⟨_, _, _, hwhole, ?_, ?_⟩
  · simp [SameTokens, Lexeme.below, Function.comp_def]
  · intro lexeme hmember
    rcases List.mem_map.1 hmember with ⟨other, _, rfl⟩
    have hstart :
        (other.below first.toList).location.span.start =
          other.location.span.start + (byteLength first.toList + 1) :=
      rfl
    omega

end Scanning

/-! ## Bodies -/

section Bodies

variable
  {α : Type}
  {Item : Notes → List Lexeme → α → Prop}
  {margin : Margin}
  {body later : List Lexeme}
  {items others : List α}

/-- The margin behind a line feed. -/
def Margin.fed (margin : Margin) : Margin :=
  ⟨true, if margin.atLineStart then Notes.none else margin.waiting⟩

/-- A line feed at the beginning of a body can only be a filler. -/
theorem Entries.of_newline
    (opens : OpensWithName Item)
    {place : Location}
    (entries : Entries Item margin (⟨.newline, place⟩ :: body) items) :
    Entries Item margin.fed body items := by
  generalize hwhole : ⟨.newline, place⟩ :: body = lexemes at entries
  cases entries with
  | nil margin =>
      cases hwhole
  | filler passed later =>
      cases passed with
      | trivia passed =>
          cases passed with
          | newline other =>
              cases hwhole
              exact later
          | comment text other =>
              cases hwhole
      | noted _ marked =>
          rcases marked.opens with ⟨name, other, rest, rfl⟩
          cases hwhole
  | item spelled later =>
      rcases opens _ _ _ spelled with ⟨name, other, rest, rfl⟩
      cases hwhole

/-- Behind an empty line a body goes on as if nothing waited. -/
theorem Entries.joined
    (entries : Entries Item margin body items)
    (further : Entries Item ⟨true, Notes.none⟩ later others)
    (feed other : Location) :
    Entries Item margin (body ++ ⟨.newline, feed⟩ :: ⟨.newline, other⟩ :: later)
      (items ++ others) := by
  induction entries with
  | nil margin =>
      have hsecond : Entries Item margin.fed ([⟨.newline, other⟩] ++ later) others :=
        .filler (.trivia (.newline margin.fed other)) further
      have hfirst :
          Entries Item margin ([⟨.newline, feed⟩] ++ ([⟨.newline, other⟩] ++ later)) others :=
        .filler (.trivia (.newline margin feed)) hsecond
      exact hfirst
  | filler passed later ih =>
      rw [List.append_assoc]
      exact .filler passed ih
  | item spelled later ih =>
      rw [List.append_assoc]
      exact .item spelled ih

/-- Without imports the trivia before a body belong to it. -/
theorem ImportBlock.entries
    {taken : List Lexeme}
    {imports : List Import}
    {last : Margin}
    (imported : ImportBlock margin taken imports last)
    (noImports : imports = [])
    (further : Entries Item last body items) :
    Entries Item margin (taken ++ body) items := by
  induction imported with
  | nil margin =>
      exact further
  | trivia passed later ih =>
      rw [List.append_assoc]
      exact .filler (.trivia passed) (ih noImports further)
  | importing path start place stop later ih =>
      cases noImports

end Bodies

/-! ## Schemas -/

section Schemas

variable {front body rest : List Lexeme} {stop : Location}

/-- Declarations behind a schema and an empty line belong to the schema. -/
theorem SchemaPhrase.joined
    {declarations items : List Declaration}
    (spelled : SchemaPhrase (front ++ [⟨.eof, stop⟩]) declarations)
    (entries : Entries DeclarationPhrase ⟨true, Notes.none⟩ body items)
    (feed other last : Location) :
    SchemaPhrase
      ((front ++ ⟨.newline, feed⟩ :: ⟨.newline, other⟩ :: body) ++ [⟨.eof, last⟩])
      (declarations ++ items) := by
  rcases spelled.exists_parts with
    ⟨leading, clauseLexemes, importLexemes, inner, clause, imports, margin, upper, rfl, rfl, hidle,
      hpackaged, himported, hentries⟩
  have hjoined := hentries.joined entries feed other
  have hphrase := SchemaPhrase.mk last hidle hpackaged himported hjoined
  simpa using hphrase

/-- A short package clause before other lexemes is the only one there. -/
theorem PackagePhrase.of_clauseLexemes
    {leading taken later : List Lexeme}
    {clause : Package}
    (idle : ∀ lexeme ∈ leading, lexeme.IsIdle)
    (spelled : PackagePhrase taken clause)
    (same : clauseLexemes ++ rest = leading ++ (taken ++ later)) :
    rest = later := by
  cases leading with
  | cons lexeme more =>
      have hword : lexeme = ⟨.packageWord, .nowhere⟩ := (List.cons.inj same).1.symm
      have hidle := idle lexeme List.mem_cons_self
      rw [hword] at hidle
      simp [Lexeme.IsIdle, Token.packageWord] at hidle
  | nil =>
      cases spelled with
      | mk start last spelled =>
          cases spelled with
          | mk first place tail =>
              cases tail with
              | nil =>
                  cases same
                  rfl
              | cons part dot place later =>
                  cases same

/-- Whatever stands behind a short package clause and a line feed, and holds no imports, may stand
behind an empty line. -/
theorem SchemaPhrase.exists_entries
    {place : Location}
    {declarations : List Declaration}
    (spelled :
      SchemaPhrase (clauseLexemes ++ ⟨.newline, place⟩ :: (body ++ [⟨.eof, stop⟩])) declarations)
    (noImports : importPaths declarations = []) :
    ∃ clause items,
      declarations = .package clause :: items ∧
        Entries DeclarationPhrase ⟨true, Notes.none⟩ body items := by
  have hshape :
      clauseLexemes ++ ⟨.newline, place⟩ :: (body ++ [⟨.eof, stop⟩]) =
        (clauseLexemes ++ ⟨.newline, place⟩ :: body) ++ [⟨.eof, stop⟩] := by
    simp
  rw [hshape] at spelled
  rcases spelled.exists_parts with
    ⟨leading, clausePart, importLexemes, inner, clause, imports, margin, items, hwhole, rfl, hidle,
      hpackaged, himported, hentries⟩
  have hnone : imports = [] := by
    cases imports with
    | nil =>
        rfl
    | cons statement more =>
        cases noImports
  have hbody := PackagePhrase.of_clauseLexemes hidle hpackaged hwhole
  have hall := himported.entries hnone hentries
  rw [← hbody] at hall
  subst hnone
  exact ⟨clause, items, rfl, hall.of_newline DeclarationPhrase.opensWithName⟩

end Schemas

namespace Schema

/-! ## Texts -/

/-- Of a text behind a package clause and a line feed, without imports, the declarations may stand
behind an empty line. -/
theorem exists_behind_clause
    (file other : String)
    {second : String}
    {lower : Schema}
    (parsed : parse other ("package p;\n" ++ second) = .ok lower)
    (noImports : lower.imports = []) :
    ∃ body stop clause others items,
      scan file second = .ok (body ++ [⟨.eof, stop⟩]) ∧
        lower.declarations = .package clause :: others ∧
        Entries DeclarationPhrase ⟨true, Notes.none⟩ body items ∧
        items.map Declaration.unplaced = others.map Declaration.unplaced := by
  rcases exists_phrase_of_parse parsed with ⟨lexemes, hscanned, hspelled, _, hlower⟩
  have hspells :
      Spells ("package p;".toList ++ '\n' :: second.toList) (lexemes.map Lexeme.token) := by
    simpa using (exists_scan_iff_spells other _ _).1 ⟨lexemes, hscanned, rfl⟩
  rcases hspells.of_clause with ⟨tokens, htokens, hline⟩
  rcases hline.of_token rfl rfl with ⟨tokens, rfl, hsecond⟩
  rcases (exists_scan_iff_spells file second _).2 hsecond with ⟨found, hfound, rfl⟩
  rcases scanText_end (mapError_eq_ok_iff.1 hfound) with ⟨body, stop, rfl, _⟩
  have hsame :
      SameTokens lexemes (clauseLexemes ++ ⟨.newline, .nowhere⟩ :: (body ++ [⟨.eof, stop⟩])) := by
    unfold SameTokens
    rw [List.map_append, List.map_cons]
    exact htokens
  rcases hspelled.moved hsame with ⟨again, hagain, hunplaced⟩
  have hpaths : importPaths again = [] := by
    rw [importPaths_eq_of_unplaced hunplaced, ← imports_ofDeclarations, ← hlower, noImports]
  rcases hagain.exists_entries hpaths with ⟨clause, items, rfl, hentries⟩
  rcases List.map_eq_cons_iff.1 hunplaced.symm with ⟨first, others, hlist, hfirst, hothers⟩
  cases first with
  | package clause =>
      exact ⟨body, stop, clause, others, items, hfound, hlist, hentries, hothers.symm⟩
  | importing statement =>
      cases hfirst
  | message declared =>
      cases hfirst
  | service declared =>
      cases hfirst

/-- Two texts with an empty line between them: lexemes that are a schema, and behind them lexemes
that are more declarations. -/
structure Joins
    (file first second : String)
    (upper : Schema)
    (front body : List Lexeme)
    (ending feed other stop : Location)
    (items : List Declaration) : Prop where
  scanned :
    scan file (first ++ "\n\n" ++ second) =
      .ok (front ++ ⟨.newline, feed⟩ :: ⟨.newline, other⟩ :: (body ++ [⟨.eof, stop⟩]))
  above : SchemaPhrase (front ++ [⟨.eof, ending⟩]) upper.declarations
  below : Entries DeclarationPhrase ⟨true, Notes.none⟩ body items
  behind : ∀ lexeme ∈ body, byteLength first.toList ≤ lexeme.location.span.start

section Joined

variable
  {file first second : String}
  {upper lower : Schema}
  {front body : List Lexeme}
  {ending feed other stop : Location}
  {items : List Declaration}

theorem exists_joins
    {fileAbove fileBelow : String}
    (file : String)
    (parsed : parse fileAbove first = .ok upper)
    (parsedToo : parse fileBelow ("package p;\n" ++ second) = .ok lower)
    (noImports : lower.imports = []) :
    ∃ clause others front body ending feed other stop items,
      lower.declarations = .package clause :: others ∧
        items.map Declaration.unplaced = others.map Declaration.unplaced ∧
        Joins file first second upper front body ending feed other stop items := by
  rcases exists_phrase_of_parse parsed with ⟨lexemes, hscanned, hspelled, _, _⟩
  have hlexemes := mapError_eq_ok_iff.1 hscanned
  rcases scanText_end hlexemes with ⟨front, ending, rfl, _⟩
  rcases exists_behind_clause file fileBelow parsedToo noImports with
    ⟨body, stop, clause, others, items, hbody, hlower, hentries, hsame⟩
  rcases exists_scan_joined (mapError_eq_ok_iff.2 hlexemes) hbody with
    ⟨feed, other, moved, hjoined, htokens, hbehind⟩
  rw [SameTokens.append_iff] at htokens
  rcases htokens with ⟨body', last, rfl, hbody', hlast⟩
  rw [SameTokens.cons_iff] at hlast
  rcases hlast with ⟨stop', _, rfl, hnil⟩
  rw [SameTokens.nil_iff.1 hnil] at hjoined
  rcases hentries.moved DeclarationPhrase.movable hbody' rfl with ⟨items', hentries', hsame'⟩
  refine
    ⟨clause, others, front, body', ending, feed, other, stop', items', hlower,
      hsame'.trans hsame, hjoined, hspelled, hentries', ?_⟩
  exact fun lexeme hmember => hbehind lexeme (List.mem_append_left _ hmember)

/-- Declarations behind a schema are distinct from its own if they have other names. -/
theorem Distinct.append
    {declarations : List Declaration}
    {margin : Margin}
    (distinct : Distinct declarations)
    (entries : Entries DeclarationPhrase margin body items)
    (names : (declaredNames items).Nodup)
    (apart : ∀ name ∈ declaredNames items, name ∉ declaredNames declarations) :
    Distinct (declarations ++ items) := by
  constructor
  · rw [declaredNames_append, List.nodup_append]
    refine ⟨distinct.names, names, ?_⟩
    rintro name hupper _ hlower rfl
    exact apart name hlower hupper
  · rw [importPaths_append, entries.importPaths_eq_nil, List.append_nil]
    exact distinct.imports

/-- Declarations with other names than those of a schema may stand behind it. -/
theorem Joins.parse_of_apart
    (joins : Joins file first second upper front body ending feed other stop items)
    (distinct : Distinct upper.declarations)
    (names : (declaredNames items).Nodup)
    (apart : ∀ name ∈ declaredNames items, name ∉ declaredNames upper.declarations) :
    parse file (first ++ "\n\n" ++ second) =
      .ok (ofDeclarations (upper.declarations ++ items)) := by
  have hphrase := joins.above.joined joins.below feed other stop
  rw [List.append_assoc, List.cons_append, List.cons_append] at hphrase
  exact parse_of_phrase joins.scanned hphrase (distinct.append joins.below names apart)

/-- The place of a declaration does not change when others are added behind it. -/
theorem declarationLocation?_append
    {declarations : List Declaration}
    (distinct : Distinct (declarations ++ items))
    {name : String}
    {place : Location}
    (known : (ofDeclarations declarations).declarationLocation? name = some place) :
    (ofDeclarations (declarations ++ items)).declarationLocation? name = some place := by
  have hnames := distinct.names
  have hfewer := hnames
  rw [declaredNames_append, List.nodup_append] at hfewer
  rw [declarationLocation?_eq_some_iff (ofDeclarations_faithful _)
    (by rw [declarations_ofDeclarations]; exact hfewer.1), declarations_ofDeclarations] at known
  rw [declarationLocation?_eq_some_iff (ofDeclarations_faithful _)
    (by rw [declarations_ofDeclarations]; exact hnames), declarations_ofDeclarations]
  rcases known with ⟨declaration, ⟨hmember, hname⟩, hplace⟩
  exact ⟨declaration, ⟨List.mem_append_left _ hmember, hname⟩, hplace⟩

/-- The first of more declarations whose name a schema has is refused at its name. -/
theorem Joins.exists_error_of_known
    (joins : Joins file first second upper front body ending feed other stop items)
    {before after : List Declaration}
    {declaration : Declaration}
    {name : String}
    {known : Location}
    (listed : items = before ++ declaration :: after)
    (named : declaration.name? = some name)
    (distinct : Distinct (upper.declarations ++ before))
    (knows : (ofDeclarations upper.declarations).declarationLocation? name = some known) :
    ∃ error,
      parse file (first ++ "\n\n" ++ second) = .error error ∧
        error.cause = .duplicateName name known.span ∧
        ∃ above below,
          Cuts (first ++ "\n\n" ++ second).toList error.span above name.toList below ∧
            first.toList <+: above := by
  rcases joins.below.split listed with ⟨inner, notes, taken, behind, hbody, hinner, hspelled, _⟩
  rcases hspelled.exists_name named with ⟨token, start, place, more, rfl, hopens⟩
  have hphrase := joins.above.joined hinner feed other stop
  have hscanned := joins.scanned
  have hlexemes :
      front ++ ⟨.newline, feed⟩ :: ⟨.newline, other⟩ :: (body ++ [⟨.eof, stop⟩]) =
        (front ++ ⟨.newline, feed⟩ :: ⟨.newline, other⟩ :: inner) ++
          ⟨token, start⟩ :: ⟨.ident name, place⟩ :: (more ++ (behind ++ [⟨.eof, stop⟩])) := by
    rw [hbody]
    simp
  rw [hlexemes] at hscanned
  have hfails :=
    parse_of_ofLexemes_error hscanned fun eof =>
      ofLexemes_of_known hphrase distinct (declarationLocation?_append distinct knows) hopens
  have hlisted :
      (⟨.ident name, place⟩ : Lexeme) ∈
        (front ++ ⟨.newline, feed⟩ :: ⟨.newline, other⟩ :: inner) ++
          ⟨token, start⟩ :: ⟨.ident name, place⟩ :: (more ++ (behind ++ [⟨.eof, stop⟩])) := by
    simp
  have hstands := standsIn_of_scanText (mapError_eq_ok_iff.1 hscanned) hlisted (by simp)
  have hcovered :
      ∃ above below,
        Cuts (first ++ "\n\n" ++ second).toList place.span above name.toList below :=
    hstands.between trivial
  rcases hcovered with ⟨above, below, hcuts⟩
  refine ⟨_, hfails, rfl, above, below, hcuts, ?_⟩
  have hbehind : byteLength first.toList ≤ place.span.start := by
    refine joins.behind ⟨.ident name, place⟩ ?_
    rw [hbody]
    simp
  have hwhole :
      first.toList ++ ("\n\n".toList ++ second.toList) = above ++ (name.toList ++ below) := by
    rw [← List.append_assoc, ← List.append_assoc, ← hcuts.whole]
    simp
  rw [hcuts.start] at hbehind
  rcases exists_append_of_byteLength_le hwhole hbehind with ⟨gap, rfl⟩
  exact List.prefix_append _ _

end Joined

/-- A schema has the name of a declaration already. -/
def hasNameOf (schema : Schema) (declaration : Declaration) : Bool :=
  declaration.name?.any schema.isDefined

theorem hasNameOf_iff {schema : Schema} {declaration : Declaration} :
    schema.hasNameOf declaration = true ↔
      ∃ name, declaration.name? = some name ∧ schema.isDefined name = true := by
  unfold hasNameOf
  cases declaration.name? with
  | none =>
      simp
  | some name =>
      simp

theorem hasNameOf_unplaced (schema : Schema) (declaration : Declaration) :
    schema.hasNameOf declaration.unplaced = schema.hasNameOf declaration := by
  unfold hasNameOf
  rw [Declaration.name?_unplaced]

/-- The first declaration with one of the names of a schema is the same wherever it stands. -/
theorem find?_hasNameOf_of_unplaced
    (schema : Schema)
    {items others : List Declaration}
    (same : items.map Declaration.unplaced = others.map Declaration.unplaced) :
    (items.find? schema.hasNameOf).map Declaration.unplaced =
      (others.find? schema.hasNameOf).map Declaration.unplaced := by
  have hsame : schema.hasNameOf ∘ Declaration.unplaced = schema.hasNameOf :=
    funext schema.hasNameOf_unplaced
  have hfind (declarations : List Declaration) :
      (declarations.map Declaration.unplaced).find? schema.hasNameOf =
        (declarations.find? schema.hasNameOf).map Declaration.unplaced := by
    rw [List.find?_map, hsame]
  rw [← hfind, ← hfind, same]

/-- Of declarations that have a name in common with a schema, the first such is found. Those before
it have other names. -/
theorem exists_first_hasNameOf
    {file text : String}
    {schema : Schema}
    {items others : List Declaration}
    (parsed : parse file text = .ok schema)
    (same : items.map Declaration.unplaced = others.map Declaration.unplaced)
    {shared : String}
    (defined : schema.isDefined shared = true)
    (listed : shared ∈ declaredNames others) :
    ∃ declaration name before item after,
      others.find? schema.hasNameOf = some declaration ∧
        declaration.name? = some name ∧
        schema.isDefined name = true ∧
        items = before ++ item :: after ∧
        item.name? = some name ∧
        ∀ other ∈ declaredNames before, other ∉ declaredNames schema.declarations := by
  rcases List.mem_filterMap.1 listed with ⟨holder, hholder, hshared⟩
  have hfind : others.find? schema.hasNameOf ≠ none := by
    intro hnone
    exact List.find?_eq_none.1 hnone holder hholder (hasNameOf_iff.2 ⟨shared, hshared, defined⟩)
  rcases Option.ne_none_iff_exists'.1 hfind with ⟨declaration, hdeclaration⟩
  have hitems := find?_hasNameOf_of_unplaced schema same
  rw [hdeclaration] at hitems
  rcases Option.map_eq_some_iff.1 hitems with ⟨item, hitem, hunplaced⟩
  have hname : item.name? = declaration.name? := by
    rw [← Declaration.name?_unplaced item, hunplaced, Declaration.name?_unplaced]
  rcases List.find?_eq_some_iff_append.1 hitem with ⟨hhas, before, after, hsplit, hbefore⟩
  rcases hasNameOf_iff.1 hhas with ⟨name, hnamed, hdefined⟩
  refine
    ⟨declaration, name, before, item, after, hdeclaration, hname.symm.trans hnamed, hdefined,
      hsplit, hnamed, ?_⟩
  intro other hother hknown
  rcases List.mem_filterMap.1 hother with ⟨earlier, hearlier, hotherName⟩
  have htaken : schema.hasNameOf earlier = true :=
    hasNameOf_iff.2 ⟨other, hotherName, (isDefined_iff_of_parse parsed other).2 hknown⟩
  have hfree := hbefore earlier hearlier
  rw [htaken] at hfree
  cases hfree

/-- Two texts with an empty line between them. The second is a schema without imports when a
package clause and a line feed stand before it. If the two schemas have no name in common, then the
text is a schema with the declarations of both, with all notes and without the second package
clause. If they have one in common, then the text is refused at the first declaration of the second
whose name the first has, and the failure points to the declaration there. -/
theorem joined_of_parse
    (fileAbove fileBelow file first second : String)
    {upper lower : Schema}
    (parsed : parse fileAbove first = .ok upper)
    (parsedToo : parse fileBelow ("package p;\n" ++ second) = .ok lower)
    (noImports : lower.imports = []) :
    ∃ clause others,
      lower.declarations = .package clause :: others ∧
        ((∀ name, upper.isDefined name = true → lower.isDefined name = false) →
          ∃ whole,
            parse file (first ++ "\n\n" ++ second) = .ok whole ∧
              whole.declarations.map Declaration.unplaced =
                (upper.declarations ++ others).map Declaration.unplaced) ∧
        ∀ shared,
          upper.isDefined shared = true →
            lower.isDefined shared = true →
              ∃ declaration name known error,
                others.find? upper.hasNameOf = some declaration ∧
                  declaration.name? = some name ∧
                  upper.declarationLocation? name = some known ∧
                  parse file (first ++ "\n\n" ++ second) = .error error ∧
                  error.cause = .duplicateName name known.span ∧
                  ∃ above below,
                    Cuts (first ++ "\n\n" ++ second).toList error.span above name.toList below ∧
                      first.toList <+: above := by
  rcases exists_joins file parsed parsedToo noImports with
    ⟨clause, others, front, body, ending, feed, other, stop, items, hlower, hsame, hjoins⟩
  have hdistinct := distinct_of_parse parsed
  have hbelow : declaredNames lower.declarations = declaredNames others := by
    rw [hlower]
    rfl
  have hnames : (declaredNames items).Nodup := by
    rw [declaredNames_eq_of_unplaced hsame, ← hbelow]
    exact (distinct_of_parse parsedToo).names
  refine ⟨clause, others, hlower, ?_, ?_⟩
  · intro hapart
    refine ⟨_, hjoins.parse_of_apart hdistinct hnames ?_, ?_⟩
    · intro name hitem hupper
      rw [declaredNames_eq_of_unplaced hsame, ← hbelow, ← isDefined_iff_of_parse parsedToo] at hitem
      rw [← isDefined_iff_of_parse parsed] at hupper
      rw [hapart name hupper] at hitem
      cases hitem
    · rw [declarations_ofDeclarations, List.map_append, List.map_append, hsame]
  · intro shared hupper hshared
    rw [isDefined_iff_of_parse parsedToo, hbelow] at hshared
    rcases exists_first_hasNameOf parsed hsame hupper hshared with
      ⟨declaration, name, before, item, after, hfirst, hname, hdefined, rfl, hitem, hbefore⟩
    rcases exists_phrase_of_parse parsed with ⟨_, _, _, _, hwhole⟩
    have hfaithful := ofDeclarations_faithful upper.declarations
    have hknown : (ofDeclarations upper.declarations).declarationLocation? name ≠ none := by
      rw [Ne, hfaithful.declarationLocation?_eq_none_iff, declarations_ofDeclarations, not_not,
        ← isDefined_iff_of_parse parsed]
      exact hdefined
    rcases Option.ne_none_iff_exists'.1 hknown with ⟨known, hknown⟩
    rcases hjoins.below.split rfl with ⟨inner, _, _, _, _, hinner, _, _⟩
    rw [declaredNames_append, List.nodup_append] at hnames
    have hdistinctBefore := hdistinct.append hinner hnames.1 hbefore
    rcases hjoins.exists_error_of_known rfl hitem hdistinctBefore hknown with
      ⟨error, herror, hcause, hcuts⟩
    rw [← hwhole] at hknown
    exact ⟨declaration, name, known, error, hfirst, hname, hknown, herror, hcause, hcuts⟩

/-- A text that ends in a comment, with a comment and annotations that reach nothing. -/
def danglingText : String :=
  "package a;\nimport \"x\";\n# m\nmessage M \x7b\x7d\n@left\n@over # open"

/-- Declarations with notes. -/
def furtherText : String :=
  "# note\n@k(1) service S \x7b\x7d message N\x7b\x7d # tail"

/-- Declarations of which the second repeats a name. -/
def repeatingText : String :=
  "message N \x7b\x7d\n@k service M \x7b\x7d"

theorem joined_of_parse_danglingText :
    (∃ upper lower clause others whole,
      parse "a.yarp" danglingText = .ok upper ∧
        parse "b.yarp" ("package p;\n" ++ furtherText) = .ok lower ∧
        lower.imports = [] ∧
        (∀ name, upper.isDefined name = true → lower.isDefined name = false) ∧
        lower.declarations = .package clause :: others ∧
        parse "c.yarp" (danglingText ++ "\n\n" ++ furtherText) = .ok whole ∧
        whole.declarations.map Declaration.unplaced =
          (upper.declarations ++ others).map Declaration.unplaced) ∧
      ∃ upper lower clause others declaration name known error,
        parse "a.yarp" danglingText = .ok upper ∧
          parse "b.yarp" ("package p;\n" ++ repeatingText) = .ok lower ∧
          lower.imports = [] ∧
          upper.isDefined "M" = true ∧
          lower.isDefined "M" = true ∧
          lower.declarations = .package clause :: others ∧
          others.find? upper.hasNameOf = some declaration ∧
          declaration.name? = some name ∧
          upper.declarationLocation? name = some known ∧
          parse "c.yarp" (danglingText ++ "\n\n" ++ repeatingText) = .error error ∧
          error.cause = .duplicateName name known.span := by
  have hdangling :
      (parse "a.yarp" danglingText).toOption.map
          (fun schema => declaredNames schema.declarations) =
        some ["M"] := by
    decide +kernel
  have hfurther :
      (parse "b.yarp" ("package p;\n" ++ furtherText)).toOption.map
          (fun schema => (schema.imports, declaredNames schema.declarations)) =
        some ([], ["S", "N"]) := by
    decide +kernel
  have hrepeating :
      (parse "b.yarp" ("package p;\n" ++ repeatingText)).toOption.map
          (fun schema => (schema.imports, declaredNames schema.declarations)) =
        some ([], ["N", "M"]) := by
    decide +kernel
  rcases exists_eq_ok_of_toOption hdangling with ⟨upper, hupper, hnames⟩
  rcases exists_eq_ok_of_toOption hfurther with ⟨lower, hlower, hlowerViews⟩
  rcases exists_eq_ok_of_toOption hrepeating with ⟨again, hagain, hagainViews⟩
  rw [Prod.mk.injEq] at hlowerViews hagainViews
  have hM : upper.isDefined "M" = true := by
    rw [isDefined_iff_of_parse hupper, hnames]
    simp
  have hMToo : again.isDefined "M" = true := by
    rw [isDefined_iff_of_parse hagain, hagainViews.2]
    simp
  have hapart : ∀ name, upper.isDefined name = true → lower.isDefined name = false := by
    intro name hname
    rw [isDefined_iff_of_parse hupper, hnames, List.mem_singleton] at hname
    rw [← Bool.not_eq_true, isDefined_iff_of_parse hlower, hlowerViews.2, hname]
    decide
  constructor
  · rcases joined_of_parse "a.yarp" "b.yarp" "c.yarp" danglingText furtherText hupper hlower
        hlowerViews.1 with
      ⟨clause, others, hothers, hdisjoint, _⟩
    rcases hdisjoint hapart with ⟨whole, hwhole, hsame⟩
    exact
      ⟨upper, lower, clause, others, whole, hupper, hlower, hlowerViews.1, hapart, hothers, hwhole,
        hsame⟩
  · rcases joined_of_parse "a.yarp" "b.yarp" "c.yarp" danglingText repeatingText hupper hagain
        hagainViews.1 with
      ⟨clause, others, hothers, _, hshared⟩
    rcases hshared "M" hM hMToo with
      ⟨declaration, name, known, error, hfirst, hname, hknown, herror, hcause, _⟩
    exact
      ⟨upper, again, clause, others, declaration, name, known, error, hupper, hagain, hagainViews.1,
        hM, hMToo, hothers, hfirst, hname, hknown, herror, hcause⟩

end Schema
end InterfaceSchema
