import InterfaceSchema.Proofs.Reading.Schema

/-!
# Reading a name again

A message or service whose name the schema has already is refused at its name. The failure points to
the declaration that has the name.

* `Grammar.declaration_of_known`, `Grammar.entry_of_known`: the declaration itself.
* `Grammar.declarations_of_known`, `Schema.ofLexemes_of_known`: behind declarations with distinct
  names.
-/

namespace InterfaceSchema
namespace Grammar

section Known

variable
  {schema : Schema}
  {cursor : Cursor}
  {name : String}
  {token : Token}
  {start place first : Location}
  {rest : List Lexeme}

theorem newName_of_known
    (expected : Expected)
    (known : schema.declarationLocation? name = some first)
    (ahead : cursor.ahead = ⟨.ident name, place⟩ :: rest) :
    newName schema expected cursor = .error ⟨.duplicateName name first.span, place.span⟩ := by
  rcases (Cursor.ident_reads expected).complete _ _ (name, place) rfl trivial ahead with
    ⟨found, hfound, hvalue, _⟩
  unfold newName
  rw [hfound]
  simp only [bind, Except.bind, hvalue, known]

theorem declaration_of_known
    (known : schema.declarationLocation? name = some first)
    (opens : token = .messageWord ∨ token = .serviceWord)
    (ahead : cursor.ahead = ⟨token, start⟩ :: ⟨.ident name, place⟩ :: rest) :
    declaration schema cursor = .error ⟨.duplicateName name first.span, place.span⟩ := by
  rcases Cursor.exists_take? ahead with ⟨word, hword, rfl⟩
  have hnoBreak : token ≠ .newline := by
    rcases opens with rfl | rfl
    · simp [Token.messageWord]
    · simp [Token.serviceWord]
  have hrest : word.detach.after.ahead = ⟨.ident name, place⟩ :: rest :=
    (Cursor.take?_covers hnoBreak hword).rest_eq ahead
  rcases opens with rfl | rfl
  · have hmessage :
        message schema cursor.pending word =
          .error ⟨.duplicateName name first.span, place.span⟩ := by
      unfold message Advance.andThen
      rw [newName_of_known .messageName known hrest]
      rfl
    unfold declaration
    rw [hword]
    simp only [hmessage, bind, Except.bind]
  · have hnone : cursor.take? .messageWord = none := by
      rw [Cursor.take?_eq_none_iff, ahead]
      exact noToken_cons (by simp [Token.serviceWord, Token.messageWord])
    have hservice :
        service schema cursor.pending word =
          .error ⟨.duplicateName name first.span, place.span⟩ := by
      unfold service Advance.andThen
      rw [newName_of_known .serviceName known hrest]
      rfl
    unfold declaration
    rw [hnone, hword]
    simp only [hservice, bind, Except.bind]

theorem entry_of_known
    (known : schema.declarationLocation? name = some first)
    (opens : token = .messageWord ∨ token = .serviceWord)
    (ahead : cursor.ahead = ⟨token, start⟩ :: ⟨.ident name, place⟩ :: rest) :
    entry (declaration schema) cursor = .error ⟨.duplicateName name first.span, place.span⟩ := by
  have hname : ∃ text, token = .ident text := by
    rcases opens with hword | hword
    · exact ⟨_, hword⟩
    · exact ⟨_, hword⟩
  rcases hname with ⟨text, htext⟩
  have hnone : cursor.trivia? = none :=
    Cursor.trivia?_eq_none ahead (by simp [htext]) (by simp [htext])
  have hnoName : cursor.select? Token.atName? = none := by
    rw [Cursor.select?_eq_none_iff, ahead]
    intro other more hsame
    rw [List.cons.injEq] at hsame
    rw [← hsame.1, htext]
    rfl
  simp only [entry, hnone, hnoName, declaration_of_known known opens ahead, bind, Except.bind]

/-- Behind declarations with distinct names, one of which has the name. -/
theorem declarations_of_known
    {margin : Margin}
    {body : List Lexeme}
    {items : List Declaration}
    (faithful : schema.Faithful)
    (entries : Entries DeclarationPhrase margin body items)
    (distinct : (declaredNames (items.foldl Schema.push schema).declarations).Nodup)
    (known : (items.foldl Schema.push schema).declarationLocation? name = some first)
    (opens : token = .messageWord ∨ token = .serviceWord)
    (stands : cursor.margin = margin)
    (ahead : cursor.ahead = body ++ ⟨token, start⟩ :: ⟨.ident name, place⟩ :: rest) :
    declarations schema cursor = .error ⟨.duplicateName name first.span, place.span⟩ := by
  have hname : token ≠ .leftParen ∧ token ≠ .eof := by
    rcases opens with rfl | rfl
    · simp [Token.messageWord]
    · simp [Token.serviceWord]
  rcases exists_declarations_behind faithful entries distinct (noToken_cons hname.1) stands
      ahead with
    ⟨after, hafter, hrest⟩
  have hmore : ¬ after.peek.token = .eof := by
    rw [peek_eq_eof_iff, hrest]
    exact not_atEnd (by simp) (noToken_cons hname.2)
  rw [hafter, declarations, if_neg hmore, entry_of_known known opens hrest]
  rfl

end Known

end Grammar

/-- The words with which a declaration begins. -/
theorem DeclarationPhrase.exists_name
    {notes : Notes}
    {taken : List Lexeme}
    {declaration : Declaration}
    (spelled : DeclarationPhrase notes taken declaration)
    {name : String}
    (named : declaration.name? = some name) :
    ∃ token start place more,
      taken = ⟨token, start⟩ :: ⟨.ident name, place⟩ :: more ∧
        (token = .messageWord ∨ token = .serviceWord) := by
  cases spelled with
  | message spelled =>
      cases spelled
      cases named
      exact ⟨_, _, _, _, rfl, Or.inl rfl⟩
  | service spelled =>
      cases spelled
      cases named
      exact ⟨_, _, _, _, rfl, Or.inr rfl⟩

/-- Behind lexemes that are a schema, a declaration with one of its names is refused at its name. -/
theorem Schema.ofLexemes_of_known
    {eof stop start place first : Location}
    {front rest : List Lexeme}
    {declarations : List Declaration}
    {token : Token}
    {name : String}
    (spelled : SchemaPhrase (front ++ [⟨.eof, stop⟩]) declarations)
    (distinct : Distinct declarations)
    (known : (ofDeclarations declarations).declarationLocation? name = some first)
    (opens : token = .messageWord ∨ token = .serviceWord) :
    ofLexemes eof (front ++ ⟨token, start⟩ :: ⟨.ident name, place⟩ :: rest) =
      .error ⟨.duplicateName name first.span, place.span⟩ := by
  rcases spelled.exists_parts with
    ⟨leading, clauseLexemes, importLexemes, body, clause, statements, margin, items, rfl, rfl,
      hidle, hpackaged, himported, hentries⟩
  have hword : Grammar.EndsImports (⟨token, start⟩ :: ⟨.ident name, place⟩ :: rest) := by
    refine ⟨_, _, rfl, ?_⟩
    rcases opens with rfl | rfl
    · simp [Lexeme.IsIdle, Token.messageWord, Token.importWord]
    · simp [Lexeme.IsIdle, Token.serviceWord, Token.importWord]
  rcases hentries.splitTrivia hword with ⟨trailing, body, next, rfl, htrailing, hentries, hstops⟩
  have hblock := himported.append htrailing
  rw [List.append_nil] at hblock
  have hall :
      ofDeclarations (.package clause :: (statements.map .importing ++ items)) =
        items.foldl push (ofDeclarations (.package clause :: statements.map .importing)) := by
    rw [← List.cons_append, ofDeclarations_append]
  have himportPaths : (importPaths (.package clause :: statements.map .importing)).Nodup := by
    have hpaths := distinct.imports
    rw [← List.cons_append, importPaths_append, List.nodup_append] at hpaths
    exact hpaths.1
  have hnames :
      (declaredNames
        (items.foldl push
          (ofDeclarations (.package clause :: statements.map .importing))).declarations).Nodup := by
    rw [← hall, declarations_ofDeclarations]
    exact distinct.names
  rw [hall] at known
  rcases exists_ofLexemes_behind eof hidle hpackaged hblock himportPaths hstops rfl with
    ⟨cursor, hcursor, hrest, hmargin⟩
  have hlast :=
    Grammar.declarations_of_known (ofDeclarations_faithful _) hentries hnames known opens hmargin
      hrest
  rw [← hcursor] at hlast
  simpa using hlast

end InterfaceSchema
