import InterfaceSchema.Proofs.Types.WellFormed

/-!
# Written types

A well-formed type that is written into a schema is read again as the same type.

* `spells_ident`: an identifier before a text in which it does not go on.
* `exists_dottedName`, `FieldType.exists_spelled`: what the written forms of names and types spell.
* `typedText`, `exists_parse_typedText`: a message with one field whose type is written somehow.
* `FieldType.display_inverse`: writing and reading types undo each other.
-/

namespace InterfaceSchema

/-! ## Names -/

/-- No identifier goes on in a text. -/
def EndsName (rest : List Char) : Prop :=
  ∀ c ∈ rest.head?, isIdentRest c = false

theorem endsName_cons {c : Char} {rest : List Char} (other : isIdentRest c = false) :
    EndsName (c :: rest) := by
  intro d hfirst
  cases hfirst
  exact other

section Names

variable {rest : List Char} {tokens : List Token}

theorem spells_ident
    {name : String}
    (identifier : IsIdentifier name)
    (ends : EndsName rest)
    (later : Spells rest tokens) :
    Spells (name.toList ++ rest) (.ident name :: tokens) := by
  have hwritable : (Token.ident name).Writable := identifier
  exact Spells.written_append hwritable ends later

/-- What some lexemes spell may stand before any text in which no identifier goes on. -/
def Precedes (text : String) (taken : List Lexeme) : Prop :=
  ∀ rest tokens,
    EndsName rest →
      Spells rest tokens → Spells (text.toList ++ rest) (taken.map Lexeme.token ++ tokens)

/-- Identifiers with dots between them are a dotted name. -/
theorem exists_dottedTail
    (first : String)
    (more : List String)
    (identifiers : ∀ part ∈ first :: more, IsIdentifier part) :
    ∃ taken text,
      DottedTail taken text ∧
        first ++ text = String.intercalate "." (first :: more) ∧
        Precedes (first ++ text) (⟨.ident first, .nowhere⟩ :: taken) := by
  induction more generalizing first with
  | nil =>
      refine ⟨[], "", .nil, by simp, ?_⟩
      intro rest tokens ends later
      rw [String.append_empty]
      exact spells_ident (identifiers first (by simp)) ends later
  | cons part more ih =>
      rcases ih part fun other hmember => identifiers other (List.mem_cons_of_mem _ hmember) with
        ⟨taken, text, htail, hname, hprecedes⟩
      refine
        ⟨⟨.dot, .nowhere⟩ :: ⟨.ident part, .nowhere⟩ :: taken, "." ++ part ++ text,
          .cons part .nowhere .nowhere htail, ?_, ?_⟩
      · rw [String.intercalate_cons_cons, ← hname]
        simp only [String.append_assoc]
      · intro rest tokens ends later
        have hdot :
            Spells ('.' :: ((part ++ text).toList ++ rest))
              (.dot :: .ident part :: (taken.map Lexeme.token ++ tokens)) :=
          .token rfl rfl (hprecedes rest tokens ends later)
        have hfirst :=
          spells_ident (identifiers first (by simp)) (endsName_cons (by decide)) hdot
        simpa using hfirst

end Names

/-! ## Types -/

namespace FieldType

/-- The written form of a well-formed type spells the type. -/
theorem exists_spelled
    {type : FieldType}
    (wellFormed : type.WellFormed) :
    ∃ taken, TypePhrase taken type ∧ Precedes type.display taken := by
  induction type with
  | primitive type =>
      refine ⟨_, .primitive .nowhere (Primitive.ofName?_name type), ?_⟩
      intro rest tokens ends later
      exact spells_ident type.isIdentifier_name ends later
  | array element ih =>
      rcases ih wellFormed with ⟨taken, htyped, hprecedes⟩
      refine ⟨_, .array .nowhere .nowhere .nowhere htyped, ?_⟩
      intro rest tokens ends later
      have hclose : Spells ('>' :: rest) (.rightAngle :: tokens) :=
        .token rfl rfl later
      have helement := hprecedes _ _ (endsName_cons (by decide)) hclose
      have hopen :
          Spells ('<' :: (element.display.toList ++ '>' :: rest))
            (.leftAngle :: (taken.map Lexeme.token ++ .rightAngle :: tokens)) :=
        .token rfl rfl helement
      have hword : IsIdentifier "array" := by decide
      have hwhole := spells_ident hword (endsName_cons (by decide)) hopen
      simpa [display, Token.arrayWord] using hwhole
  | map key value ih =>
      rcases ih wellFormed.2 with ⟨taken, htyped, hprecedes⟩
      have hallowed : key.isMapKey = true := by
        simpa [Primitive.isMapKey] using wellFormed.1
      refine
        ⟨_, .map .nowhere .nowhere .nowhere .nowhere .nowhere (Primitive.ofName?_name key)
          hallowed htyped, ?_⟩
      intro rest tokens ends later
      have hclose : Spells ('>' :: rest) (.rightAngle :: tokens) :=
        .token rfl rfl later
      have hvalue := hprecedes _ _ (endsName_cons (by decide)) hclose
      have hcomma :
          Spells (',' :: (value.display.toList ++ '>' :: rest))
            (.comma :: (taken.map Lexeme.token ++ .rightAngle :: tokens)) :=
        .token rfl rfl hvalue
      have hkey := spells_ident key.isIdentifier_name (endsName_cons (by decide)) hcomma
      have hopen :
          Spells ('<' :: (key.name.toList ++ ',' :: (value.display.toList ++ '>' :: rest)))
            (.leftAngle :: .ident key.name :: .comma ::
              (taken.map Lexeme.token ++ .rightAngle :: tokens)) :=
        .token rfl rfl hkey
      have hword : IsIdentifier "map" := by decide
      have hwhole := spells_ident hword (endsName_cons (by decide)) hopen
      simpa [display, Token.mapWord] using hwhole
  | reference name =>
      rcases wellFormed with ⟨first, more, rfl, hidentifiers, hother⟩
      rcases not_isTypeWord_iff.1 hother with ⟨noPrimitive, noArray, noMap⟩
      rcases exists_dottedTail first more hidentifiers with
        ⟨taken, text, htail, hname, hprecedes⟩
      have htyped := TypePhrase.reference .nowhere noPrimitive noArray noMap htail
      rw [hname] at htyped hprecedes
      exact ⟨_, htyped, hprecedes⟩

end FieldType

/-! ## A message with one field -/

/-- A schema with one message, and in it one field whose type is written as given. -/
def typedText (written : String) : String :=
  "package p; message M \x7b f " ++ written ++ " = 0; \x7d"

/-- The lexemes of a schema with one message and one field, with all places left out. -/
def typedLexemes (taken : List Lexeme) : List Lexeme :=
  clauseLexemes ++ ⟨.messageWord, .nowhere⟩ :: ⟨.ident "M", .nowhere⟩ :: ⟨.leftBrace, .nowhere⟩ ::
    ⟨.ident "f", .nowhere⟩ :: (taken ++ [
      ⟨.equals, .nowhere⟩, ⟨.number 0, .nowhere⟩, ⟨.semicolon, .nowhere⟩, ⟨.rightBrace, .nowhere⟩,
      ⟨.eof, .nowhere⟩])

/-- The message with one field of a type. -/
def typedMessage (type : FieldType) : Message :=
  ⟨.nowhere, "M", Notes.none, [.field ⟨.nowhere, "f", type, 0, Notes.none⟩]⟩

/-- The words before the type may stand before any text. -/
theorem spells_opening
    {rest : List Char}
    {tokens : List Token}
    (later : Spells rest tokens) :
    Spells (" message M \x7b f ".toList ++ rest)
      (.messageWord :: .ident "M" :: .leftBrace :: .ident "f" :: tokens) := by
  have hfield : Spells ('f' :: ' ' :: rest) (.ident "f" :: tokens) :=
    .token rfl rfl (.separator rfl later)
  have hopen : Spells ('\x7b' :: ' ' :: 'f' :: ' ' :: rest) (.leftBrace :: .ident "f" :: tokens) :=
    .token rfl rfl (.separator rfl hfield)
  have hname :
      Spells ('M' :: ' ' :: '\x7b' :: ' ' :: 'f' :: ' ' :: rest)
        (.ident "M" :: .leftBrace :: .ident "f" :: tokens) :=
    .token rfl rfl (.separator rfl hopen)
  exact .separator rfl (.token rfl rfl (.separator rfl hname))

/-- The words behind the type. -/
theorem spells_closing :
    Spells " = 0; \x7d".toList [.equals, .number 0, .semicolon, .rightBrace, .eof] :=
  .separator rfl (.token rfl rfl (.separator rfl (.token rfl rfl (.token rfl rfl
    (.separator rfl (.token rfl rfl .nil))))))

section Typed

variable {written : String} {taken : List Lexeme} {type : FieldType}

theorem spells_typedText (precedes : Precedes written taken) :
    Spells (typedText written).toList ((typedLexemes taken).map Lexeme.token) := by
  have hends : EndsName " = 0; \x7d".toList :=
    endsName_cons (by decide)
  have hwhole := spells_clause (spells_opening (precedes _ _ hends spells_closing))
  have hopening : "package p; message M \x7b f " = "package p;" ++ " message M \x7b f " := rfl
  have htext :
      typedText written = "package p;" ++ " message M \x7b f " ++ written ++ " = 0; \x7d" := by
    rw [← hopening]
    rfl
  rw [htext]
  simp only [String.toList_append, List.append_assoc]
  simpa only [typedLexemes, List.map_append, List.map_cons, List.map_nil] using hwhole

theorem schemaPhrase_typedLexemes (typed : TypePhrase taken type) :
    SchemaPhrase (typedLexemes taken)
      [.package ⟨.nowhere, "p"⟩, .message (typedMessage type)] := by
  have hidle : ∀ lexeme ∈ ([] : List Lexeme), lexeme.IsIdle := by
    simp
  have hnoGroup : Token.ident "f" ≠ Token.oneofWord := by
    decide
  have hfield : FieldPhrase Notes.none _ _ :=
    .mk .nowhere hnoGroup typed (.mk 0 .nowhere .nowhere .nowhere)
  have hmembers : Entries MemberPhrase .clear _ [.field _] :=
    .item (.field hfield) (.nil .clear)
  have hmessage : DeclarationPhrase Notes.none _ _ :=
    .message (.mk "M" .nowhere .nowhere .nowhere .nowhere hmembers)
  have hentries : Entries DeclarationPhrase .clear _ [_] :=
    .item hmessage (.nil .clear)
  have hphrase :=
    SchemaPhrase.mk .nowhere hidle packagePhrase_clauseLexemes (.nil .clear) hentries
  simpa [typedLexemes, typedMessage] using hphrase

end Typed

/-- A well-formed type that is written into a message is read as the type of its field. -/
theorem exists_parse_typedText
    (file : String)
    {type : FieldType}
    (wellFormed : type.WellFormed) :
    ∃ schema,
      Schema.parse file (typedText type.display) = .ok schema ∧ schema.fieldTypes = [type] := by
  rcases FieldType.exists_spelled wellFormed with ⟨taken, htyped, hprecedes⟩
  have hdistinct :
      Schema.Distinct [.package ⟨.nowhere, "p"⟩, .message (typedMessage type)] :=
    ⟨List.nodup_cons.2 ⟨List.not_mem_nil, List.nodup_nil⟩, List.nodup_nil⟩
  rcases Schema.exists_parse_of_spells file (spells_typedText hprecedes)
      (schemaPhrase_typedLexemes htyped) hdistinct with
    ⟨schema, hparsed, hsame⟩
  refine ⟨schema, hparsed, ?_⟩
  rw [Schema.fieldTypes_eq_of_unplaced hsame]
  rfl

/-- Writing and reading types undo each other. All types that are read are well formed; a
well-formed type that is written as the type of a field is read again; and so no two such types are
written alike. -/
theorem FieldType.display_inverse (file : String) :
    (∀ text schema,
      Schema.parse file text = .ok schema → ∀ type ∈ schema.fieldTypes, type.WellFormed) ∧
      (∀ type : FieldType,
        type.WellFormed →
          ∃ schema,
            Schema.parse file (typedText type.display) = .ok schema ∧
              schema.fieldTypes = [type]) ∧
      ∀ first second : FieldType,
        first.WellFormed → second.WellFormed → first.display = second.display → first = second := by
  refine ⟨?_, ?_, ?_⟩
  · intro text schema parsed type member
    exact Schema.wellFormed_of_mem_fieldTypes parsed member
  · intro type wellFormed
    exact exists_parse_typedText file wellFormed
  · intro first second wellFormed wellFormedToo same
    rcases exists_parse_typedText file wellFormed with ⟨schema, hparsed, hfirst⟩
    rcases exists_parse_typedText file wellFormedToo with ⟨again, hagain, hsecond⟩
    rw [← same, hparsed] at hagain
    cases hagain
    rw [hfirst] at hsecond
    exact List.singleton_inj.1 hsecond

/-- A map of arrays of messages whose names hold words with a meaning of their own. -/
def nestedType : FieldType :=
  .map .uint8 (.array (.map .string (.reference "strings.map._1.array")))

theorem nestedType_wellFormed : nestedType.WellFormed := by
  refine ⟨by decide, by decide, "strings", ["map", "_1", "array"], by decide, ?_, by decide⟩
  intro part hmember
  simp only [List.mem_cons, List.not_mem_nil, or_false] at hmember
  rcases hmember with rfl | rfl | rfl | rfl
  all_goals decide

theorem FieldType.display_inverse_nestedType :
    ∃ schema,
      Schema.parse "a.yarp" (typedText nestedType.display) = .ok schema ∧
        schema.fieldTypes = [nestedType] ∧
        (∀ type ∈ schema.fieldTypes, type.WellFormed) ∧
        ∀ other : FieldType,
          other.WellFormed → nestedType.display = other.display → nestedType = other := by
  rcases display_inverse "a.yarp" with ⟨hread, hwritten, hinjective⟩
  rcases hwritten nestedType nestedType_wellFormed with ⟨schema, hparsed, htypes⟩
  exact
    ⟨schema, hparsed, htypes, hread _ schema hparsed,
      fun other wellFormed => hinjective nestedType other nestedType_wellFormed wellFormed⟩

end InterfaceSchema
