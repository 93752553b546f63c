import InterfaceSchema.Proofs.Types.WellFormed

/-!
# Exchanged types

The type of one field can be written otherwise in a whole file. The other fields keep their types,
and all names stay.

* `Exchanges`: a phrase in which each type has a stretch of its own, where any other type may stand.
* `Exchanges.within`: a phrase inside another.
* `Entries.exchanges`: bodies whose items are such phrases.
* `Schema.exists_parse_of_exchange`: files that differ in the lexemes of one type.
-/

namespace InterfaceSchema

/-! ## Phrases -/

section Phrases

variable {α β κ ι : Type} {Phrase : List Lexeme → α → Prop} {Outer : List Lexeme → β → Prop}
variable {types : α → List FieldType} {outerTypes : β → List FieldType}
variable {key : α → κ} {outerKey : β → ι}
variable {taken whole : List Lexeme} {value : α}

/-- Each type of a phrase has a stretch of its own, and any other type may stand there. The key of
what is spelled does not change. -/
def Exchanges
    (Phrase : List Lexeme → α → Prop)
    (types : α → List FieldType)
    (key : α → κ)
    (taken : List Lexeme)
    (value : α) :
    Prop :=
  ∀ before type after,
    types value = before ++ type :: after →
      ∃ front typed behind,
        taken = front ++ (typed ++ behind) ∧
          TypePhrase typed type ∧
          ∀ lexemes other,
            TypePhrase lexemes other →
              ∃ again,
                Phrase (front ++ (lexemes ++ behind)) again ∧
                  types again = before ++ other :: after ∧ key again = key value

theorem Exchanges.of_none (none : types value = []) : Exchanges Phrase types key taken value := by
  intro before type after listed
  rw [none] at listed
  simp at listed

/-- A phrase inside another can be changed there. -/
theorem Exchanges.within
    (exchanges : Exchanges Phrase types key taken value)
    (left right : List Lexeme)
    (make : α → β)
    (stands : whole = left ++ (taken ++ right))
    (spells :
      ∀ lexemes again,
        Phrase lexemes again →
          key again = key value → Outer (left ++ (lexemes ++ right)) (make again))
    (sameTypes : ∀ again, outerTypes (make again) = types again)
    (sameKey : ∀ again, key again = key value → outerKey (make again) = outerKey (make value)) :
    Exchanges Outer outerTypes outerKey whole (make value) := by
  intro before type after listed
  rw [sameTypes] at listed
  rcases exchanges before type after listed with ⟨front, typed, behind, rfl, htyped, hexchange⟩
  refine ⟨left ++ front, typed, behind ++ right, by simp [stands], htyped, ?_⟩
  intro lexemes other hother
  rcases hexchange lexemes other hother with ⟨again, hagain, htypes, hkey⟩
  refine ⟨make again, ?_, by rw [sameTypes, htypes], sameKey again hkey⟩
  simpa using spells _ again hagain hkey

end Phrases

/-! ## Bodies -/

/-- One of two lists one behind the other holds an element of the whole. -/
theorem append_eq_append_cons_cases
    {α : Type}
    {first second before after : List α}
    {element : α}
    (same : first ++ second = before ++ element :: after) :
    (∃ middle, first = before ++ element :: middle ∧ after = middle ++ second) ∨
      ∃ middle, before = first ++ middle ∧ second = middle ++ element :: after := by
  rcases List.append_eq_append_iff.1 same with ⟨middle, hbefore, hsecond⟩ | ⟨middle, hfirst, hrest⟩
  · exact Or.inr ⟨middle, hbefore, hsecond⟩
  · cases middle with
    | nil =>
        exact Or.inr ⟨[], by simp [hfirst], by simpa using hrest.symm⟩
    | cons other middle =>
        rw [List.cons_append, List.cons.injEq] at hrest
        rcases hrest with ⟨rfl, rfl⟩
        exact Or.inl ⟨middle, hfirst, rfl⟩

/-- Each item of a kind can be changed. -/
def Exchangeable
    {α κ : Type}
    (Item : Notes → List Lexeme → α → Prop)
    (types : α → List FieldType)
    (key : α → κ) :
    Prop :=
  ∀ notes taken value, Item notes taken value → Exchanges (Item notes) types key taken value

section Bodies

variable {α κ : Type} {Item : Notes → List Lexeme → α → Prop}
variable {types : α → List FieldType} {key : α → κ}
variable {margin : Margin} {body : List Lexeme} {items : List α}

/-- A body whose items can be changed can be changed. -/
theorem Entries.exchanges
    (entries : Entries Item margin body items)
    (exchangeable : Exchangeable Item types key) :
    Exchanges (Entries Item margin) (List.flatMap types) (List.map key) body items := by
  induction entries with
  | nil margin =>
      exact Exchanges.of_none rfl
  | @filler margin next taken rest items passed later ih =>
      refine ih.within taken [] id (by simp) ?_ (fun _ => rfl) (fun _ hkey => hkey)
      intro lexemes again hagain _
      simpa using Entries.filler passed hagain
  | @item margin taken rest value items spelled later ih =>
      intro before type after listed
      rw [List.flatMap_cons] at listed
      -- The type belongs to this item, or to one behind it.
      rcases append_eq_append_cons_cases listed with
        ⟨middle, hvalue, rfl⟩ | ⟨middle, rfl, hlater⟩
      · rcases exchangeable _ taken value spelled before type middle hvalue with
          ⟨front, typed, behind, rfl, htyped, hexchange⟩
        refine ⟨front, typed, behind ++ rest, by simp, htyped, ?_⟩
        intro lexemes other hother
        rcases hexchange lexemes other hother with ⟨again, hagain, htypes, hkey⟩
        refine ⟨again :: items, by simpa using Entries.item hagain later, ?_, ?_⟩
        · simp [htypes]
        · simp [hkey]
      · rcases ih middle type after hlater with ⟨front, typed, behind, rfl, htyped, hexchange⟩
        refine ⟨taken ++ front, typed, behind, by simp, htyped, ?_⟩
        intro lexemes other hother
        rcases hexchange lexemes other hother with ⟨again, hagain, htypes, hkey⟩
        refine ⟨value :: again, by simpa using Entries.item spelled hagain, ?_, ?_⟩
        · simp [htypes]
        · simp [hkey]

end Bodies

/-! ## Declarations -/

/-- The types of the fields in an entry of a message. -/
def Member.types : Member → List FieldType
  | field single => [single.type]
  | oneof group => group.fields.flatMap fun single => [single.type]

/-- The types of all fields in a declaration. -/
def Declaration.types : Declaration → List FieldType
  | message declared => declared.members.flatMap Member.types
  | _ => []

theorem fieldTypes_eq_flatMap (declarations : List Declaration) :
    fieldTypes declarations = declarations.flatMap Declaration.types := by
  have hmessage (message : Message) :
      message.fields.map Field.type = message.members.flatMap Member.types := by
    rw [Message.fields, List.map_flatMap]
    refine congrArg (fun view => message.members.flatMap view) (funext fun member => ?_)
    cases member with
    | field single =>
        rfl
    | oneof group =>
        exact List.map_eq_flatMap
  unfold fieldTypes
  induction declarations with
  | nil =>
      rfl
  | cons declaration rest ih =>
      cases declaration with
      | message declared =>
          simp only [List.filterMap_cons, Declaration.message?, List.flatMap_cons, List.map_append,
            hmessage, ih, Declaration.types]
      | package clause =>
          exact ih
      | importing statement =>
          exact ih
      | service declared =>
          exact ih

theorem FieldPhrase.exchangeable :
    Exchangeable FieldPhrase (fun field => [field.type]) fun _ => () := by
  intro notes taken field spelled
  cases spelled with
  | @mk typed indexed name type number stop start noGroup typePhrase indexPhrase =>
      intro before other after listed
      rcases List.append_eq_singleton_iff.1 listed.symm with ⟨rfl, hlast⟩ | ⟨_, hlast⟩
      · cases hlast
        refine ⟨[⟨.ident name, start⟩], typed, indexed, by simp, typePhrase, ?_⟩
        intro lexemes new hnew
        have hagain : FieldPhrase notes (⟨.ident name, start⟩ :: (lexemes ++ indexed)) _ :=
          .mk start noGroup hnew indexPhrase
        exact ⟨_, hagain, rfl, rfl⟩
      · cases hlast

theorem MemberPhrase.exchangeable : Exchangeable MemberPhrase Member.types fun _ => () := by
  intro notes taken member spelled
  cases spelled with
  | @field single spelled =>
      refine
        (FieldPhrase.exchangeable notes taken single spelled).within [] [] Member.field (by simp)
          ?_ (fun _ => rfl) (fun _ _ => rfl)
      intro lexemes again hagain _
      simpa using MemberPhrase.field hagain
  | oneof spelled =>
      cases spelled with
      | @mk body indexed fields number stop start opening closing entries indexPhrase =>
          refine
            (entries.exchanges FieldPhrase.exchangeable).within
              [⟨.oneofWord, start⟩, ⟨.leftBrace, opening⟩] (⟨.rightBrace, closing⟩ :: indexed)
              (fun fields => Member.oneof ⟨start.through stop, number, fields, notes⟩)
              (by simp) ?_ (fun _ => rfl) (fun _ _ => rfl)
          intro lexemes again hagain _
          exact .oneof (.mk start opening closing hagain indexPhrase)

/-- What a declaration must not share with another of its file. -/
def Declaration.key (declaration : Declaration) : Option String × Option String :=
  (declaration.name?, declaration.importPath?)

theorem DeclarationPhrase.exchangeable :
    Exchangeable DeclarationPhrase Declaration.types Declaration.key := by
  intro notes taken declaration spelled
  cases spelled with
  | message spelled =>
      cases spelled with
      | @mk body members name start place opening closing entries =>
          refine
            (entries.exchanges MemberPhrase.exchangeable).within
              [⟨.messageWord, start⟩, ⟨.ident name, place⟩, ⟨.leftBrace, opening⟩]
              [⟨.rightBrace, closing⟩]
              (fun members => Declaration.message ⟨start.through closing, name, notes, members⟩)
              (by simp) ?_ (fun _ => rfl) (fun _ _ => rfl)
          intro lexemes again hagain _
          exact .message (.mk name start place opening closing hagain)
  | service spelled =>
      exact Exchanges.of_none rfl

/-! ## Schemas -/

/-- Each type of a schema can be changed. -/
theorem SchemaPhrase.exchanges
    {lexemes : List Lexeme}
    {declarations : List Declaration}
    (spelled : SchemaPhrase lexemes declarations) :
    Exchanges SchemaPhrase fieldTypes (List.map Declaration.key) lexemes declarations := by
  cases spelled with
  | @mk leading clauseLexemes importLexemes body clause imports margin items stop idle packaged
      imported entries =>
      refine
        (entries.exchanges DeclarationPhrase.exchangeable).within
          (leading ++ (clauseLexemes ++ importLexemes)) [⟨.eof, stop⟩]
          (fun items => Declaration.package clause :: (imports.map Declaration.importing ++ items))
          (by simp) ?_ ?_ ?_
      · intro lexemes again hagain _
        simpa using SchemaPhrase.mk stop idle packaged imported hagain
      · intro again
        have hnone : (imports.map Declaration.importing).flatMap Declaration.types = [] := by
          simp [Declaration.types]
        rw [fieldTypes_eq_flatMap, List.flatMap_cons, List.flatMap_append, hnone]
        rfl
      · intro again hkey
        simp [hkey]

namespace Schema

theorem Distinct.of_keys
    {declarations others : List Declaration}
    (distinct : Distinct declarations)
    (same : others.map Declaration.key = declarations.map Declaration.key) :
    Distinct others := by
  have hnames (items : List Declaration) :
      (items.map Declaration.key).filterMap Prod.fst = declaredNames items :=
    List.filterMap_map
  have himports (items : List Declaration) :
      (items.map Declaration.key).filterMap Prod.snd = importPaths items :=
    List.filterMap_map
  constructor
  · rw [← hnames, same, hnames]
    exact distinct.names
  · rw [← himports, same, himports]
    exact distinct.imports

/-- In a file that is read, each type has a stretch of its own. A file with other lexemes there that
spell a type, and with the same tokens elsewhere, is read too, and has this type there. -/
theorem exists_parse_of_exchange
    {file text : String}
    {schema : Schema}
    (parsed : parse file text = .ok schema)
    {before after : List FieldType}
    {type : FieldType}
    (listed : schema.fieldTypes = before ++ type :: after) :
    ∃ front typed behind,
      scan file text = .ok (front ++ (typed ++ behind)) ∧
        TypePhrase typed type ∧
        ∀ other changed above lexemes below new,
          scan other changed = .ok (above ++ (lexemes ++ below)) →
            SameTokens front above →
              SameTokens behind below →
                TypePhrase lexemes new →
                  ∃ again,
                    parse other changed = .ok again ∧
                      again.fieldTypes = before ++ new :: after := by
  rcases exists_phrase_of_parse parsed with ⟨lexemes, hscanned, hspelled, hdistinct, _⟩
  rcases hspelled.exchanges before type after listed with
    ⟨front, typed, behind, rfl, htyped, hexchange⟩
  refine ⟨front, typed, behind, hscanned, htyped, ?_⟩
  intro other changed above inner below new hchanged hfront hbehind hnew
  rcases hexchange inner new hnew with ⟨declarations, hdeclarations, htypes, hkey⟩
  have hsame : SameTokens (front ++ (inner ++ behind)) (above ++ (inner ++ below)) := by
    have hinner : SameTokens inner inner := rfl
    rw [SameTokens.append_iff]
    refine ⟨above, inner ++ below, rfl, hfront, ?_⟩
    rw [SameTokens.append_iff]
    exact ⟨inner, below, rfl, hinner, hbehind⟩
  rcases hdeclarations.moved hsame with ⟨moved, hmoved, hunplaced⟩
  have hparsed := parse_of_phrase hchanged hmoved ((hdistinct.of_keys hkey).of_unplaced hunplaced)
  refine ⟨_, hparsed, ?_⟩
  rw [← htypes]
  refine fieldTypes_eq_of_unplaced ?_
  rw [declarations_ofDeclarations]
  exact hunplaced

end Schema

end InterfaceSchema
