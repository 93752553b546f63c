import InterfaceSchema.Proofs.Schema.Lookup
import InterfaceSchema.Proofs.Token.Slice
import InterfaceSchema.Proofs.Unplaced.Phrase

/-!
# Texts with the same tokens

What schema a text makes depends on its tokens alone, but for places.

* `Schema.exists_phrase_of_parse`, `Schema.parse_of_phrase`: the lexemes of a text that is read.
* `Schema.exists_parse_of_spells`: a text with the tokens of a phrase is read as what the phrase
  spells.
* `clauseLexemes`, `spells_clause`, `Spells.of_clause`: a package clause before another text.
-/

namespace InterfaceSchema
namespace Schema

section Texts

variable {file text : String} {schema : Schema}

/-- The declarations of a text that is read are spelled by its lexemes. -/
theorem exists_phrase_of_parse (parsed : parse file text = .ok schema) :
    ∃ lexemes,
      scan file text = .ok lexemes ∧
        SchemaPhrase lexemes schema.declarations ∧
        Distinct schema.declarations ∧ schema = ofDeclarations schema.declarations := by
  have htext := mapError_eq_ok_iff.1 parsed
  rcases exists_scanText_of_ofText htext with ⟨lexemes, hlexemes⟩
  rcases (ofText_eq_ok_iff hlexemes).1 htext with ⟨declarations, hspelled, hdistinct, rfl⟩
  refine ⟨lexemes, mapError_eq_ok_iff.2 hlexemes, ?_⟩
  rw [declarations_ofDeclarations]
  exact ⟨hspelled, hdistinct, rfl⟩

theorem isDefined_iff_of_parse (parsed : parse file text = .ok schema) (name : String) :
    schema.isDefined name = true ↔ name ∈ declaredNames schema.declarations := by
  rcases exists_phrase_of_parse parsed with ⟨_, _, _, _, hschema⟩
  have hfaithful := ofDeclarations_faithful schema.declarations
  rw [← hschema] at hfaithful
  exact hfaithful.isDefined_iff

/-- A text that has the lexemes of a phrase is read as what the phrase spells. -/
theorem parse_of_phrase
    {lexemes : List Lexeme}
    {declarations : List Declaration}
    (scanned : scan file text = .ok lexemes)
    (spelled : SchemaPhrase lexemes declarations)
    (distinct : Distinct declarations) :
    parse file text = .ok (ofDeclarations declarations) := by
  refine mapError_eq_ok_iff.2 ((ofText_eq_ok_iff (mapError_eq_ok_iff.1 scanned)).2 ?_)
  exact ⟨declarations, spelled, distinct, rfl⟩

/-- A text that has lexemes that are refused is refused. -/
theorem parse_of_ofLexemes_error
    {lexemes : List Lexeme}
    {failure : Failure}
    (scanned : scan file text = .ok lexemes)
    (fails : ∀ eof, ofLexemes eof lexemes = .error failure) :
    parse file text = .error (ParseError.ofFailure file text.toList failure) := by
  unfold parse ofText
  rw [mapError_eq_ok_iff.1 scanned]
  simp only [bind, Except.bind, fails]
  rfl

/-- A text that has the tokens of a phrase is read as what the phrase spells, but for places. -/
theorem exists_parse_of_spells
    (file : String)
    {lexemes : List Lexeme}
    {declarations : List Declaration}
    (spells : Spells text.toList (lexemes.map Lexeme.token))
    (spelled : SchemaPhrase lexemes declarations)
    (distinct : Distinct declarations) :
    ∃ schema,
      parse file text = .ok schema ∧
        schema.declarations.map Declaration.unplaced =
          declarations.map Declaration.unplaced := by
  rcases (exists_scan_iff_spells file text _).2 spells with ⟨found, hscanned, hsame⟩
  rcases spelled.moved hsame.symm with ⟨again, hagain, hunplaced⟩
  refine ⟨_, parse_of_phrase hscanned hagain (distinct.of_unplaced hunplaced), ?_⟩
  rw [declarations_ofDeclarations]
  exact hunplaced

end Texts

end Schema

/-! ## A package clause -/

/-- The package clause `package p;`, with all places left out. -/
def clauseLexemes : List Lexeme := [
  ⟨.packageWord, .nowhere⟩, ⟨.ident "p", .nowhere⟩, ⟨.semicolon, .nowhere⟩]

theorem packagePhrase_clauseLexemes : PackagePhrase clauseLexemes ⟨.nowhere, "p"⟩ :=
  .mk .nowhere .nowhere (.mk "p" .nowhere .nil)

/-- The package clause may stand before any text. -/
theorem spells_clause
    {rest : List Char}
    {tokens : List Token}
    (later : Spells rest tokens) :
    Spells ("package p;".toList ++ rest) (clauseLexemes.map Lexeme.token ++ tokens) := by
  have hclose : Spells (';' :: rest) (.semicolon :: tokens) :=
    .token rfl rfl later
  have hname : Spells ('p' :: ';' :: rest) (.ident "p" :: .semicolon :: tokens) :=
    .token rfl rfl hclose
  exact .token rfl rfl (.separator rfl hname)

/-- What is behind the package clause spells what is left. -/
theorem Spells.of_clause
    {rest : List Char}
    {tokens : List Token}
    (spells : Spells ("package p;".toList ++ rest) tokens) :
    ∃ later, tokens = clauseLexemes.map Lexeme.token ++ later ∧ Spells rest later := by
  have hword :
      Token.read 'p' (['a', 'c', 'k', 'a', 'g', 'e'] ++ ' ' :: 'p' :: ';' :: rest) =
        .ok (.packageWord, 6) :=
    rfl
  have hname : Token.read 'p' (';' :: rest) = .ok (.ident "p", 0) := rfl
  have hclose : Token.read ';' rest = .ok (.semicolon, 0) := rfl
  have hwhole :
      Spells ('p' :: (['a', 'c', 'k', 'a', 'g', 'e'] ++ ' ' :: 'p' :: ';' :: rest)) tokens :=
    spells
  rcases hwhole.of_token rfl hword with ⟨tokens, rfl, hgap⟩
  rcases (hgap.of_separator rfl).of_token rfl hname with ⟨tokens, rfl, hbehind⟩
  rcases hbehind.of_token rfl hclose with ⟨later, rfl, hlater⟩
  exact ⟨later, rfl, hlater⟩

end InterfaceSchema
