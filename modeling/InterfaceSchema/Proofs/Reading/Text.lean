import InterfaceSchema.Proofs.Reading.Schema

/-!
# Reading a text

The lexemes of a text end with the only lexeme that stands for its end (`scanText_end`). So the
reader of schema texts accepts just the texts whose lexemes make a `SchemaPhrase` of distinct
declarations, and returns the schema of these (`Schema.parse_eq_ok_iff_schemaPhrase`).
-/

namespace InterfaceSchema

section Outcomes

variable {ε α : Type} {outcome : Except ε α}

theorem exists_eq_ok_of_isOk (succeeds : outcome.isOk = true) :
    ∃ value, outcome = .ok value := by
  cases outcome with
  | error failure =>
      simp [Except.isOk, Except.toBool] at succeeds
  | ok value =>
      exact ⟨value, rfl⟩

theorem exists_eq_ok_of_toOption
    {β : Type}
    {view : α → β}
    {image : β}
    (shows : outcome.toOption.map view = some image) :
    ∃ value, outcome = .ok value ∧ view value = image := by
  cases outcome with
  | error failure =>
      cases shows
  | ok value =>
      exact ⟨value, rfl, Option.some.inj shows⟩

theorem mapError_eq_ok_iff {ε' : Type} {f : ε → ε'} {value : α} :
    outcome.mapError f = .ok value ↔ outcome = .ok value := by
  cases outcome with
  | error failure =>
      constructor
      · intro hsame
        cases hsame
      · intro hsame
        cases hsame
  | ok found =>
      constructor
      · intro hsame
        cases hsame
        rfl
      · intro hsame
        cases hsame
        rfl

theorem mapError_eq_error_iff {ε' : Type} {f : ε → ε'} {failure : ε'} :
    outcome.mapError f = .error failure ↔ ∃ cause, outcome = .error cause ∧ f cause = failure := by
  cases outcome with
  | error cause =>
      constructor
      · intro hsame
        cases hsame
        exact ⟨cause, rfl, rfl⟩
      · rintro ⟨_, hcause, rfl⟩
        cases hcause
        rfl
  | ok value =>
      constructor
      · intro hsame
        cases hsame
      · rintro ⟨_, hcause, _⟩
        cases hcause

end Outcomes

namespace Token

theorem ite_mark_ne_eof
    {condition : Prop}
    [Decidable condition]
    {mark : Token}
    {otherwise : Option Token}
    (first : mark ≠ .eof)
    (later : otherwise ≠ some .eof) :
    (if condition then some mark else otherwise) ≠ some .eof := by
  by_cases hcondition : condition
  · rw [if_pos hcondition]
    simpa using first
  · rw [if_neg hcondition]
    exact later

theorem ofMark?_ne_eof (c : Char) : ofMark? c ≠ some .eof := by
  unfold ofMark?
  repeat refine ite_mark_ne_eof (by simp) ?_
  simp

/-- No stretch of text is read as the end of the text. -/
theorem read_ne_eof
    {c : Char}
    {rest : List Char}
    {token : Token}
    {more : Nat}
    (succeeds : read c rest = .ok (token, more)) :
    token ≠ .eof := by
  intro heof
  subst heof
  unfold read at succeeds
  split at succeeds
  · simp [readIdent] at succeeds
  split at succeeds
  · simp only [readNumber] at succeeds
    split at succeeds <;> simp at succeeds
  split at succeeds
  · unfold readString at succeeds
    split at succeeds <;> simp at succeeds
  split at succeeds
  · simp [readComment] at succeeds
  split at succeeds
  · simp only [readAtName] at succeeds
    split at succeeds <;> simp at succeeds
  split at succeeds
  · unfold readArrow at succeeds
    split at succeeds
    · simp at succeeds
    · split at succeeds <;> simp at succeeds
  split at succeeds
  · next token hmark =>
    simp only [Except.ok.injEq, Prod.mk.injEq] at succeeds
    rw [succeeds.1] at hmark
    exact ofMark?_ne_eof c hmark
  · simp at succeeds

end Token

/-- The tokens of a text end with the only one that stands for its end. -/
theorem pieces_end
    {offset : Nat}
    {text : List Char}
    {found : List Piece}
    (succeeds : pieces offset text = .ok found) :
    ∃ front stop,
      found = front ++ [⟨.eof, stop⟩] ∧ ∀ piece ∈ front, piece.token ≠ .eof := by
  induction offset, text using pieces.induct generalizing found with
  | case1 offset =>
      simp only [pieces, Except.ok.injEq] at succeeds
      exact ⟨[], ⟨offset, offset⟩, succeeds.symm, by simp⟩
  | case2 offset c rest hseparator ih =>
      rw [pieces, if_pos hseparator] at succeeds
      exact ih succeeds
  | case3 offset c rest hword cause more hread =>
      rw [pieces, if_neg hword, hread] at succeeds
      simp at succeeds
  | case4 offset c rest hword token more hread stop failure hlater =>
      rw [pieces, if_neg hword, hread] at succeeds
      simp only at succeeds
      rw [hlater] at succeeds
      simp at succeeds
  | case5 offset c rest hword token more hread stop later hlater =>
      rename_i ih
      rw [pieces, if_neg hword, hread] at succeeds
      simp only at succeeds
      rw [hlater] at succeeds
      simp only [Except.ok.injEq] at succeeds
      subst succeeds
      rcases ih hlater with ⟨front, last, rfl, hfront⟩
      refine ⟨_ :: front, last, rfl, ?_⟩
      intro piece hmember
      rcases List.mem_cons.1 hmember with rfl | hrest
      · exact Token.read_ne_eof hread
      · exact hfront piece hrest

theorem scanText_eq_ok
    {text : List Char}
    {lexemes : List Lexeme}
    (scanned : scanText text = .ok lexemes) :
    ∃ found,
      pieces 0 text = .ok found ∧
        found.map (fun piece => ⟨piece.token, (LineIndex.ofText text).locate piece.span⟩) =
          lexemes := by
  unfold scanText at scanned
  cases hfound : pieces 0 text with
  | error failure =>
      rw [hfound] at scanned
      simp [Except.map] at scanned
  | ok found =>
      rw [hfound] at scanned
      simp only [Except.map, Except.ok.injEq] at scanned
      exact ⟨found, rfl, scanned⟩

/-- The lexemes of a text end with the only one that stands for its end. -/
theorem scanText_end
    {text : List Char}
    {lexemes : List Lexeme}
    (scanned : scanText text = .ok lexemes) :
    ∃ front stop, lexemes = front ++ [⟨.eof, stop⟩] ∧ NoEnd front := by
  rcases scanText_eq_ok scanned with ⟨found, hfound, rfl⟩
  rcases pieces_end hfound with ⟨front, stop, rfl, hfront⟩
  refine ⟨_, _, List.map_append, ?_⟩
  intro lexeme hmember
  rcases List.mem_map.1 hmember with ⟨piece, hpiece, rfl⟩
  exact hfront piece hpiece

namespace Schema

theorem ofText_eq_ok_iff
    {text : List Char}
    {lexemes : List Lexeme}
    (scanned : scanText text = .ok lexemes)
    {schema : Schema} :
    ofText text = .ok schema ↔
      ∃ declarations,
        SchemaPhrase lexemes declarations ∧
          Distinct declarations ∧ schema = ofDeclarations declarations := by
  rcases scanText_end scanned with ⟨front, stop, hwhole, hinside⟩
  unfold ofText
  rw [scanned]
  constructor
  · intro hsucceeds
    exact ofLexemes_sound hwhole hinside hsucceeds
  · rintro ⟨declarations, hspelled, hdistinct, rfl⟩
    exact ofLexemes_complete hspelled hdistinct

theorem exists_scanText_of_ofText
    {text : List Char}
    {schema : Schema}
    (succeeds : ofText text = .ok schema) :
    ∃ lexemes, scanText text = .ok lexemes := by
  simp only [ofText, bind_eq_ok_iff] at succeeds
  rcases succeeds with ⟨lexemes, hlexemes, _⟩
  exact ⟨lexemes, hlexemes⟩

/-- Whatever is read from a text is made of distinct declarations. -/
theorem exists_ofDeclarations_of_ofText
    {text : List Char}
    {schema : Schema}
    (succeeds : ofText text = .ok schema) :
    ∃ declarations, Distinct declarations ∧ schema = ofDeclarations declarations := by
  rcases exists_scanText_of_ofText succeeds with ⟨lexemes, hlexemes⟩
  rcases (ofText_eq_ok_iff hlexemes).1 succeeds with ⟨declarations, _, hdistinct, hsame⟩
  exact ⟨declarations, hdistinct, hsame⟩

theorem distinct_of_parse
    {file text : String}
    {schema : Schema}
    (succeeds : parse file text = .ok schema) :
    Distinct schema.declarations := by
  rcases exists_ofDeclarations_of_ofText (mapError_eq_ok_iff.1 succeeds) with
    ⟨declarations, hdistinct, rfl⟩
  rw [declarations_ofDeclarations]
  exact hdistinct

/-- The imports that are read from a text are clean. -/
theorem exists_clean_of_mem_imports
    {text : List Char}
    {schema : Schema}
    (succeeds : ofText text = .ok schema)
    {path : String}
    (member : path ∈ schema.imports) :
    ∃ written, path = Path.clean written := by
  rcases exists_ofDeclarations_of_ofText succeeds with ⟨declarations, _, rfl⟩
  rw [imports_ofDeclarations] at member
  rcases List.mem_filterMap.1 member with ⟨declaration, _, hpath⟩
  cases declaration with
  | importing statement =>
      cases hpath
      exact ⟨statement.path, rfl⟩
  | package clause =>
      cases hpath
  | message declared =>
      cases hpath
  | service declared =>
      cases hpath

/-- A text that can be cut into lexemes makes a schema exactly if its lexemes can be derived in the
grammar, no two of its messages and services have the same name, and no two of its imports the same
clean path. The schema consists of the declarations of the derivation. -/
theorem parse_eq_ok_iff_schemaPhrase
    (file text : String)
    {lexemes : List Lexeme}
    (scanned : scan file text = .ok lexemes)
    (schema : Schema) :
    parse file text = .ok schema ↔
      ∃ declarations,
        SchemaPhrase lexemes declarations ∧
          Distinct declarations ∧ schema = ofDeclarations declarations := by
  have htext : scanText text.toList = .ok lexemes := mapError_eq_ok_iff.1 scanned
  rw [← ofText_eq_ok_iff htext]
  unfold parse
  exact mapError_eq_ok_iff

/-- A text with a group, nested types, a list of values that ends with a comma, and `stream` both as
a mark and as a name. -/
def sampleText : String :=
  "# notes\npackage a.b;\n\nimport \"c\";\n@x(1 y,)\nmessage M \x7b\n" ++
    "  oneof \x7b y map<uint8, array<N>> = 1; \x7d = 2;\n\x7d\n" ++
    "service S \x7b\n  m() -> stream stream;\n\x7d\n"

theorem parse_sampleText_schemaPhrase :
    ∃ lexemes schema,
      scan "a.yarp" sampleText = .ok lexemes ∧
        parse "a.yarp" sampleText = .ok schema ∧
        ∃ declarations,
          SchemaPhrase lexemes declarations ∧
            Distinct declarations ∧ schema = ofDeclarations declarations := by
  have hparses : (parse "a.yarp" sampleText).isOk = true := by decide +kernel
  rcases exists_eq_ok_of_isOk hparses with ⟨schema, hschema⟩
  rcases exists_scanText_of_ofText (mapError_eq_ok_iff.1 hschema) with ⟨lexemes, hscanned⟩
  have hlexemes : scan "a.yarp" sampleText = .ok lexemes := mapError_eq_ok_iff.2 hscanned
  have hphrase := (parse_eq_ok_iff_schemaPhrase "a.yarp" sampleText hlexemes schema).1 hschema
  exact ⟨lexemes, schema, hlexemes, hschema, hphrase⟩

end Schema
end InterfaceSchema
