import InterfaceSchema.Proofs.Locations.Laid
import InterfaceSchema.Proofs.Unplaced.Text

/-!
# Well-formed types

The types of fields that can be written in a schema.

* `IsIdentifier`, `IsTypeWord`, `IsReference`: the names that a type may refer to. Their first
  identifier has no meaning of its own.
* `FieldType.WellFormed`: types in which all names are such, and no key of a map is a boolean.
* `TypePhrase.wellFormed`: what is spelled by lexemes of a text is well formed.
* `Schema.wellFormed_of_mem_fieldTypes`: so are the types in every schema that is read from a text.
-/

namespace InterfaceSchema

/-! ## Names -/

/-- A letter of ASCII or an underscore, and behind it only these and digits. -/
def IsIdentifier (text : String) : Prop :=
  ∃ first more,
    text.toList = first :: more ∧
      isIdentStart first = true ∧ ∀ c ∈ more, isIdentRest c = true

/-- A word with which a type begins that is no reference. -/
def IsTypeWord (word : String) : Prop :=
  Primitive.ofName? word ≠ none ∨ word = "array" ∨ word = "map"

/-- Identifiers joined by dots, the first of which has no meaning of its own. -/
def IsReference (name : String) : Prop :=
  ∃ first more,
    name = String.intercalate "." (first :: more) ∧
      (∀ part ∈ first :: more, IsIdentifier part) ∧ ¬ IsTypeWord first

theorem isIdentifier_iff {text : String} :
    IsIdentifier text ↔
      text.toList.head?.any isIdentStart = true ∧ text.toList.tail.all isIdentRest = true := by
  unfold IsIdentifier
  cases text.toList with
  | nil =>
      simp
  | cons first more =>
      simp

instance (text : String) : Decidable (IsIdentifier text) :=
  decidable_of_iff _ isIdentifier_iff.symm

instance (word : String) : Decidable (IsTypeWord word) :=
  inferInstanceAs (Decidable (_ ∨ _ ∨ _))

theorem not_isTypeWord_iff {word : String} :
    ¬ IsTypeWord word ↔
      Primitive.ofName? word = none ∧
        Token.ident word ≠ Token.arrayWord ∧ Token.ident word ≠ Token.mapWord := by
  simp [IsTypeWord, Token.arrayWord, Token.mapWord]

theorem Primitive.isIdentifier_name (primitive : Primitive) : IsIdentifier primitive.name := by
  cases primitive <;> decide

/-- The parts of a dotted name behind its first identifier. -/
theorem DottedTail.exists_parts
    {taken : List Lexeme}
    {text : String}
    (tail : DottedTail taken text)
    (first : String) :
    ∃ parts,
      first ++ text = String.intercalate "." (first :: parts) ∧
        ∀ part ∈ parts, ∃ place, ⟨.ident part, place⟩ ∈ taken := by
  induction tail generalizing first with
  | nil =>
      exact ⟨[], by simp, by simp⟩
  | cons part dot place later ih =>
      rcases ih part with ⟨parts, hsame, hparts⟩
      refine ⟨part :: parts, ?_, ?_⟩
      · rw [String.intercalate_cons_cons, ← hsame]
        simp only [String.append_assoc]
      · intro name hmember
        rcases List.mem_cons.1 hmember with rfl | hlater
        · exact ⟨place, by simp⟩
        · rcases hparts name hlater with ⟨other, hplace⟩
          exact ⟨other, by simp [hplace]⟩

/-- The parts of a dotted name in a text are identifiers. -/
theorem DottedTail.exists_identifiers
    {taken : List Lexeme}
    {text first : String}
    {place : Location}
    (tail : DottedTail taken text)
    (writable : ∀ lexeme ∈ ⟨.ident first, place⟩ :: taken, lexeme.token.Writable) :
    ∃ more,
      first ++ text = String.intercalate "." (first :: more) ∧
        ∀ part ∈ first :: more, IsIdentifier part := by
  rcases tail.exists_parts first with ⟨more, hname, hparts⟩
  refine ⟨more, hname, ?_⟩
  intro part hmember
  rcases List.mem_cons.1 hmember with rfl | hlater
  · exact writable ⟨.ident part, place⟩ List.mem_cons_self
  · rcases hparts part hlater with ⟨other, hother⟩
    exact writable ⟨.ident part, other⟩ (List.mem_cons_of_mem _ hother)

/-! ## Types -/

/-- No key of a map is a boolean, and names are such that they can be told from other types. -/
def FieldType.WellFormed : FieldType → Prop
  | primitive _ => True
  | array element => element.WellFormed
  | map key value => key ≠ .bool ∧ value.WellFormed
  | reference name => IsReference name

/-- A type that is spelled by lexemes of a text is well formed. -/
theorem TypePhrase.wellFormed
    {taken : List Lexeme}
    {type : FieldType}
    (spelled : TypePhrase taken type)
    (writable : ∀ lexeme ∈ taken, lexeme.token.Writable) :
    type.WellFormed := by
  induction spelled with
  | primitive place spelled =>
      trivial
  | array word opening closing spelled ih =>
      exact ih fun lexeme hmember => writable lexeme (by simp [hmember])
  | @map inner keyName key value word opening place comma closing keySpelled allowed spelled ih =>
      refine ⟨?_, ih fun lexeme hmember => writable lexeme (by simp [hmember])⟩
      simpa [Primitive.isMapKey] using allowed
  | @reference rest text first place noPrimitive noArray noMap tail =>
      rcases tail.exists_identifiers writable with ⟨more, hname, hparts⟩
      exact ⟨first, more, hname, hparts, not_isTypeWord_iff.2 ⟨noPrimitive, noArray, noMap⟩⟩

/-! ## Schemas -/

/-- The types of all fields in some declarations, those in groups included. -/
def fieldTypes (declarations : List Declaration) : List FieldType :=
  ((declarations.filterMap Declaration.message?).flatMap Message.fields).map Field.type

/-- The types of all fields of a schema. -/
def Schema.fieldTypes (schema : Schema) : List FieldType :=
  (schema.messages.flatMap Message.fields).map Field.type

/-- The types of fields do not depend on places. -/
theorem fieldTypes_unplaced (declarations : List Declaration) :
    fieldTypes (declarations.map Declaration.unplaced) = fieldTypes declarations := by
  have hmessage (message : Message) :
      message.unplaced.fields.map Field.type = message.fields.map Field.type := by
    rw [message.fields_unplaced, List.map_map]
    rfl
  unfold fieldTypes
  induction declarations with
  | nil =>
      rfl
  | cons declaration rest ih =>
      cases declaration with
      | message declared =>
          simp only [List.map_cons, Declaration.unplaced, List.filterMap_cons,
            Declaration.message?, List.flatMap_cons, List.map_append, hmessage, ih]
      | package clause =>
          exact ih
      | importing statement =>
          exact ih
      | service declared =>
          exact ih

theorem Schema.fieldTypes_eq_of_unplaced
    {schema : Schema}
    {declarations : List Declaration}
    (same : schema.declarations.map Declaration.unplaced = declarations.map Declaration.unplaced) :
    schema.fieldTypes = InterfaceSchema.fieldTypes declarations := by
  rw [← fieldTypes_unplaced declarations, ← same, fieldTypes_unplaced]
  rfl

section Fields

variable {notes : Notes} {taken : List Lexeme}

theorem FieldPhrase.exists_type
    {field : Field}
    (spelled : FieldPhrase notes taken field) :
    ∃ lexemes, TypePhrase lexemes field.type ∧ lexemes ⊆ taken := by
  cases spelled with
  | mk start noGroup typed indexed =>
      refine ⟨_, typed, ?_⟩
      exact List.subset_cons_of_subset _ (List.subset_append_left _ _)

theorem MemberPhrase.exists_type
    {member : Member}
    (spelled : MemberPhrase notes taken member)
    {field : Field}
    (inside : member = .field field ∨ ∃ group, member = .oneof group ∧ field ∈ group.fields) :
    ∃ lexemes, TypePhrase lexemes field.type ∧ lexemes ⊆ taken := by
  cases spelled with
  | field spelled =>
      rcases inside with hfield | ⟨group, hgroup, _⟩
      · cases hfield
        exact spelled.exists_type
      · cases hgroup
  | oneof spelled =>
      rcases inside with hfield | ⟨group, hgroup, hmember⟩
      · cases hfield
      · cases hgroup
        cases spelled with
        | mk start opening closing entries indexed =>
            rcases entries.exists_spelled hmember with ⟨_, inner, hspelled, hinner⟩
            rcases hspelled.exists_type with ⟨lexemes, htyped, hlexemes⟩
            refine ⟨lexemes, htyped, ?_⟩
            intro lexeme hlexeme
            simp [hinner (hlexemes hlexeme)]

/-- The type of each field of a message is spelled by lexemes of the message. -/
theorem MessagePhrase.exists_type
    {message : Message}
    (spelled : MessagePhrase notes taken message)
    {field : Field}
    (member : field ∈ message.fields) :
    ∃ lexemes, TypePhrase lexemes field.type ∧ lexemes ⊆ taken := by
  cases spelled with
  | mk name start place opening closing entries =>
      rcases List.mem_flatMap.1 member with ⟨holder, hholder, hfield⟩
      have hinside :
          holder = .field field ∨ ∃ group, holder = .oneof group ∧ field ∈ group.fields := by
        cases holder with
        | field single =>
            exact Or.inl (by rw [List.mem_singleton.1 hfield])
        | oneof group =>
            exact Or.inr ⟨group, rfl, hfield⟩
      rcases entries.exists_spelled hholder with ⟨_, inner, hspelled, hinner⟩
      rcases hspelled.exists_type hinside with ⟨lexemes, htyped, hlexemes⟩
      refine ⟨lexemes, htyped, ?_⟩
      intro lexeme hlexeme
      simp [hinner (hlexemes hlexeme)]

end Fields

/-- The lexemes of a text but the last are writable. -/
theorem writable_of_scan
    {file text : String}
    {lexemes : List Lexeme}
    (scanned : scan file text = .ok lexemes) :
    ∀ lexeme ∈ lexemes, lexeme.token ≠ .eof → lexeme.token.Writable := by
  intro lexeme hmember hinside
  exact (standsIn_of_scanText (mapError_eq_ok_iff.1 scanned) hmember hinside).1

/-- All fields of a schema that is read from a text have well-formed types. -/
theorem Schema.wellFormed_of_mem_fieldTypes
    {file text : String}
    {schema : Schema}
    (parsed : parse file text = .ok schema)
    {type : FieldType}
    (member : type ∈ schema.fieldTypes) :
    type.WellFormed := by
  rcases List.mem_map.1 member with ⟨field, hfield, rfl⟩
  rcases List.mem_flatMap.1 hfield with ⟨message, hmessage, hfield⟩
  rcases exists_phrase_of_parse parsed with ⟨lexemes, hscanned, hspelled, _, _⟩
  rcases hspelled.exists_stretch (mem_messages.1 hmessage) (by simp [Declaration.name?]) with
    ⟨front, notes, taken, behind, rfl, hphrase⟩
  have hnoEnd := hphrase.noEnd
  cases hphrase with
  | message hphrase =>
      rcases hphrase.exists_type hfield with ⟨inner, htyped, hinner⟩
      refine htyped.wellFormed fun lexeme hlexeme => ?_
      have hinside := hinner hlexeme
      exact writable_of_scan hscanned lexeme (by simp [hinside]) (hnoEnd lexeme hinside)

end InterfaceSchema
