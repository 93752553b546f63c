import InterfaceSchema.Proofs.Unplaced.Text

/-!
# Declarations alone

The text of a declaration, without what stands before and behind it in its file, is read as the same
declaration. Only the notes before it are lost, since they stand before its text.

* `DeclarationPhrase.exists_ends`: the location of a declaration runs from its first lexeme to its
  last.
* `Schema.exists_parse_alone`: the text of a declaration behind a package clause.
-/

namespace InterfaceSchema

/-- A declaration stands from its first lexeme to its last. -/
theorem DeclarationPhrase.exists_ends
    {notes : Notes}
    {taken : List Lexeme}
    {declaration : Declaration}
    (spelled : DeclarationPhrase notes taken declaration) :
    ∃ first inner last,
      taken = first :: (inner ++ [last]) ∧
        last.token ≠ .eof ∧ declaration.location = first.location.through last.location := by
  cases spelled with
  | message spelled =>
      cases spelled with
      | @mk body members name start place opening closing entries =>
          exact
            ⟨⟨.messageWord, start⟩, ⟨.ident name, place⟩ :: ⟨.leftBrace, opening⟩ :: body,
              ⟨.rightBrace, closing⟩, rfl, by simp, rfl⟩
  | service spelled =>
      cases spelled with
      | @mk body methods name start place opening closing entries =>
          exact
            ⟨⟨.serviceWord, start⟩, ⟨.ident name, place⟩ :: ⟨.leftBrace, opening⟩ :: body,
              ⟨.rightBrace, closing⟩, rfl, by simp, rfl⟩

section Alone

variable {notes : Notes} {taken : List Lexeme} {declaration : Declaration}

/-- The lexemes of a package clause, a line feed, and some others, with places left out where there
are none. -/
def loneLexemes (taken : List Lexeme) : List Lexeme :=
  clauseLexemes ++ ⟨.newline, .nowhere⟩ :: (taken ++ [⟨.eof, .nowhere⟩])

/-- A declaration without notes before it, behind a package clause and a line feed, is a schema. -/
theorem DeclarationPhrase.schemaPhrase (spelled : DeclarationPhrase Notes.none taken declaration) :
    SchemaPhrase (loneLexemes taken) [.package ⟨.nowhere, "p"⟩, declaration] := by
  have hidle : ∀ lexeme ∈ ([] : List Lexeme), lexeme.IsIdle := by
    simp
  have hgap : ImportBlock .clear [⟨.newline, .nowhere⟩] [] ⟨true, Notes.none⟩ :=
    .trivia (.newline .clear .nowhere) (.nil ⟨true, Notes.none⟩)
  have hentries : Entries DeclarationPhrase ⟨true, Notes.none⟩ (taken ++ []) [declaration] :=
    .item spelled (.nil .clear)
  have hphrase := SchemaPhrase.mk .nowhere hidle packagePhrase_clauseLexemes hgap hentries
  simpa [loneLexemes] using hphrase

theorem DeclarationPhrase.distinct
    (spelled : DeclarationPhrase notes taken declaration)
    (clause : Package) :
    Schema.Distinct [.package clause, declaration] := by
  cases spelled with
  | message spelled =>
      exact ⟨List.nodup_cons.2 ⟨List.not_mem_nil, List.nodup_nil⟩, List.nodup_nil⟩
  | service spelled =>
      exact ⟨List.nodup_cons.2 ⟨List.not_mem_nil, List.nodup_nil⟩, List.nodup_nil⟩

theorem spells_lone
    {slice : List Char}
    (spells : Spells slice (taken.map Lexeme.token ++ [.eof])) :
    Spells ("package p;\n" ++ String.ofList slice).toList
      ((loneLexemes taken).map Lexeme.token) := by
  have hline : Spells ('\n' :: slice) (.newline :: (taken.map Lexeme.token ++ [.eof])) :=
    .token rfl rfl spells
  have hwhole := spells_clause hline
  simpa [loneLexemes] using hwhole

end Alone

/-- The text of a message or service, behind a package clause, makes a schema with just this message
or service: with the same name, and with the same fields, groups or methods and the notes of these.
The notes before it are not part of its text. -/
theorem Schema.exists_parse_alone
    (file other text : String)
    {schema : Schema}
    (parsed : parse file text = .ok schema)
    {declaration : Declaration}
    (member : declaration ∈ schema.declarations)
    (named : declaration.name? ≠ none) :
    ∃ before slice behind,
      Cuts text.toList declaration.location.span before slice behind ∧
        ∃ alone,
          parse other ("package p;\n" ++ String.ofList slice) = .ok alone ∧
            alone.declarations.map Declaration.unplaced =
              [.package ⟨.nowhere, "p"⟩, declaration.unplaced.withNotes Notes.none] := by
  rcases exists_phrase_of_parse parsed with ⟨lexemes, hscanned, hspelled, _, _⟩
  rcases hspelled.exists_stretch member named with ⟨front, notes, taken, later, rfl, hphrase⟩
  rcases hphrase.exists_ends with ⟨first, inner, last, hends, hinside, hlocation⟩
  have hlexemes : front ++ (taken ++ later) = front ++ first :: (inner ++ last :: later) := by
    rw [hends]
    simp
  rw [hlexemes] at hscanned
  rcases exists_slice_of_scan hscanned hinside with ⟨before, slice, behind, hcuts, hslice⟩
  rw [← hlocation] at hcuts
  rw [← hends] at hslice
  have htokens : SameTokens taken taken := rfl
  rcases hphrase.moved htokens Notes.none with ⟨again, hagain, hsame⟩
  rcases exists_parse_of_spells other (spells_lone hslice) hagain.schemaPhrase
      (hagain.distinct _) with
    ⟨alone, halone, hunplaced⟩
  refine ⟨before, slice, behind, hcuts, alone, halone, ?_⟩
  rw [hunplaced, List.map_cons, List.map_cons, List.map_nil, hsame, Notes.unplaced_none]
  rfl

/-- A message with notes of its own, characters of several bytes before it, and notes and a comment
inside. -/
def dressedText : String :=
  "# ä\npackage a.b;\nimport \"é\";\n\n# first\n@x(\"€\", y)\nmessage M \x7b # open\n" ++
    "  # note\n  @z oneof \x7b f map<uint8,array<a.b.N>> = 1; \x7d = 2;\n\n\x7d# last\n" ++
    "service S\x7bm()->stream stream;\x7d"

theorem Schema.exists_parse_alone_dressedText :
    ∃ schema declaration,
      parse "a.yarp" dressedText = .ok schema ∧
        declaration ∈ schema.declarations ∧
        declaration.name? = some "M" ∧
        ∃ before slice behind,
          Cuts dressedText.toList declaration.location.span before slice behind ∧
            ∃ alone,
              parse "b.yarp" ("package p;\n" ++ String.ofList slice) = .ok alone ∧
                alone.declarations.map Declaration.unplaced =
                  [.package ⟨.nowhere, "p"⟩, declaration.unplaced.withNotes Notes.none] := by
  have hnames :
      (parse "a.yarp" dressedText).toOption.map
          (fun schema => schema.declarations.map Declaration.name?) =
        some [none, none, some "M", some "S"] := by
    decide +kernel
  rcases exists_eq_ok_of_toOption hnames with ⟨schema, hparsed, hlist⟩
  have hlisted : some "M" ∈ schema.declarations.map Declaration.name? := by
    rw [hlist]
    simp
  rcases List.mem_map.1 hlisted with ⟨declaration, hmember, hname⟩
  have hnamed : declaration.name? ≠ none := by
    simp [hname]
  exact
    ⟨schema, declaration, hparsed, hmember, hname,
      exists_parse_alone "a.yarp" "b.yarp" dressedText hparsed hmember hnamed⟩

end InterfaceSchema
