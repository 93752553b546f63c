import InterfaceSchema.Proofs.FileSet.Consistent
import InterfaceSchema.Proofs.Reading.Repeated
import InterfaceSchema.Proofs.Types.Display
import InterfaceSchema.Proofs.Types.Exchange

/-!
# References to messages

A message is filed under its qualified name, and the type of a field may be written as that name.
But the reader of types decides on the first identifier alone, before it looks for a dot. So no
field refers to a message whose package begins with a word like `string` or `map`.

* `QualifiedName.firstPart`: the identifier that decides.
* `IsDottedName`, `IsDottedName.isReference_iff`: which dotted names types refer to.
* `Grammar.FieldAhead`, `Grammar.exists_field_iff`: a field whose type is written as a name, in
  whatever text.
* `Schema.Referable`, `Schema.referable_of_parse`: where messages can be referred to.
* `Schema.not_referable_of_parse`: a message to which no field refers.
-/

namespace InterfaceSchema

/-! ## Dotted names -/

namespace QualifiedName

/-- What stands before the first dot of a name. -/
def firstPart (name : String) : String :=
  String.ofList (name.toList.takeWhile (· ≠ '.'))

theorem firstPart_of_dotless
    {name : String}
    (dotless : '.' ∉ name.toList) :
    firstPart name = name := by
  have hkept : ∀ c ∈ name.toList, decide (c ≠ '.') = true := by
    intro c hmember
    rw [decide_eq_true_eq]
    rintro rfl
    exact dotless hmember
  rw [firstPart, List.takeWhile_eq_self_iff.2 hkept, String.ofList_toList]

/-- Nothing behind a dot belongs to the first part. -/
theorem firstPart_append_dot (before behind : String) :
    firstPart (before ++ "." ++ behind) = firstPart before := by
  have hcut (text : List Char) :
      (text ++ '.' :: behind.toList).takeWhile (· ≠ '.') = text.takeWhile (· ≠ '.') := by
    induction text with
    | nil =>
        rfl
    | cons c rest ih =>
        rw [List.cons_append, List.takeWhile_cons, List.takeWhile_cons, ih]
  have htext : (before ++ "." ++ behind).toList = before.toList ++ '.' :: behind.toList := by
    simp
  rw [firstPart, htext, hcut, firstPart]

theorem firstPart_join (package name : String) :
    firstPart (join package name) = firstPart package :=
  firstPart_append_dot package name

end QualifiedName

theorem IsIdentifier.firstPart_eq
    {name : String}
    (identifier : IsIdentifier name) :
    QualifiedName.firstPart name = name :=
  QualifiedName.firstPart_of_dotless (Token.not_mem_of_writable identifier (by decide))

/-- Identifiers joined by dots. -/
def IsDottedName (name : String) : Prop :=
  ∃ first more,
    name = String.intercalate "." (first :: more) ∧ ∀ part ∈ first :: more, IsIdentifier part

namespace IsDottedName

theorem firstPart_intercalate
    {first : String}
    (identifier : IsIdentifier first)
    (more : List String) :
    QualifiedName.firstPart (String.intercalate "." (first :: more)) = first := by
  cases more with
  | nil =>
      rw [String.intercalate_singleton]
      exact identifier.firstPart_eq
  | cons part more =>
      rw [String.intercalate_cons_cons, QualifiedName.firstPart_append_dot]
      exact identifier.firstPart_eq

/-- A type refers to a dotted name unless its first part has a meaning of its own. -/
theorem isReference_iff
    {name : String}
    (dotted : IsDottedName name) :
    IsReference name ↔ ¬ IsTypeWord (QualifiedName.firstPart name) := by
  constructor
  · rintro ⟨first, more, rfl, hparts, hother⟩
    rw [firstPart_intercalate (hparts first List.mem_cons_self)]
    exact hother
  · intro hother
    rcases dotted with ⟨first, more, rfl, hparts⟩
    rw [firstPart_intercalate (hparts first List.mem_cons_self)] at hother
    exact ⟨first, more, rfl, hparts, hother⟩

/-- An identifier may be put behind a dotted name. -/
theorem join
    {package name : String}
    (dotted : IsDottedName package)
    (identifier : IsIdentifier name) :
    IsDottedName (QualifiedName.join package name) := by
  have hjoin (first : String) (more : List String) :
      QualifiedName.join (String.intercalate "." (first :: more)) name =
        String.intercalate "." (first :: (more ++ [name])) := by
    induction more generalizing first with
    | nil =>
        simp [QualifiedName.join]
    | cons part more ih =>
        rw [List.cons_append, String.intercalate_cons_cons, String.intercalate_cons_cons, ← ih]
        simp only [QualifiedName.join, String.append_assoc]
  rcases dotted with ⟨first, more, rfl, hparts⟩
  refine ⟨first, more ++ [name], hjoin first more, ?_⟩
  intro part hmember
  rw [← List.cons_append] at hmember
  rcases List.mem_append.1 hmember with hold | hnew
  · exact hparts part hold
  · rw [List.mem_singleton.1 hnew]
    exact identifier

/-- What lexemes of a text spell as a dotted name is one. -/
theorem of_phrase
    {taken : List Lexeme}
    {name : String}
    (spelled : DottedName taken name)
    (writable : ∀ lexeme ∈ taken, lexeme.token.Writable) :
    IsDottedName name := by
  cases spelled with
  | mk first place tail =>
      rcases tail.exists_identifiers writable with ⟨more, hname, hparts⟩
      exact ⟨first, more, hname, hparts⟩

end IsDottedName

/-! ## Fields -/

theorem DottedTail.firstPart_eq
    {taken : List Lexeme}
    {text first : String}
    (tail : DottedTail taken text)
    (identifier : IsIdentifier first) :
    QualifiedName.firstPart (first ++ text) = first := by
  cases tail with
  | nil =>
      rw [String.append_empty]
      exact identifier.firstPart_eq
  | cons part dot place later =>
      rw [String.append_assoc, ← String.append_assoc, QualifiedName.firstPart_append_dot]
      exact identifier.firstPart_eq

section Written

variable {taken : List Lexeme} {written : String}

/-- The lexemes of a dotted name in a text are writable. -/
theorem DottedName.writable
    (spelled : DottedName taken written)
    {file text : String}
    {lexemes : List Lexeme}
    (scanned : scan file text = .ok lexemes)
    (inside : taken ⊆ lexemes) :
    ∀ lexeme ∈ taken, lexeme.token.Writable := by
  intro lexeme hmember
  exact writable_of_scan scanned lexeme (inside hmember) (spelled.plain lexeme hmember).1

/-- A dotted name spells a reference unless its first part has a meaning of its own. -/
theorem DottedName.typePhrase
    (spelled : DottedName taken written)
    (writable : ∀ lexeme ∈ taken, lexeme.token.Writable)
    (other : ¬ IsTypeWord (QualifiedName.firstPart written)) :
    TypePhrase taken (.reference written) := by
  cases spelled with
  | mk first place tail =>
      have hidentifier : IsIdentifier first := writable ⟨.ident first, place⟩ List.mem_cons_self
      rw [tail.firstPart_eq hidentifier] at other
      rcases not_isTypeWord_iff.1 other with ⟨hnoPrimitive, hnoArray, hnoMap⟩
      exact .reference place hnoPrimitive hnoArray hnoMap tail

/-- A dotted name that is more than one identifier begins with its first part and a dot. -/
theorem DottedName.exists_head
    (spelled : DottedName taken written)
    (writable : ∀ lexeme ∈ taken, lexeme.token.Writable)
    (dotted : '.' ∈ written.toList) :
    ∃ place dot more,
      taken = ⟨.ident (QualifiedName.firstPart written), place⟩ :: ⟨.dot, dot⟩ :: more := by
  cases spelled with
  | mk first place tail =>
      have hidentifier : IsIdentifier first := writable ⟨.ident first, place⟩ List.mem_cons_self
      rw [tail.firstPart_eq hidentifier]
      cases tail with
      | nil =>
          rw [String.append_empty] at dotted
          exact absurd dotted (Token.not_mem_of_writable hidentifier (by decide))
      | cons part dot partPlace later =>
          exact ⟨place, dot, _, rfl⟩

end Written

/-- A type that begins with an identifier and a dot is no primitive type, array or map. -/
theorem TypePhrase.not_isTypeWord
    {taken rest more : List Lexeme}
    {type : FieldType}
    {word : String}
    {place dot : Location}
    (spelled : TypePhrase taken type)
    (stops : NoToken .dot rest)
    (ahead : taken ++ rest = ⟨.ident word, place⟩ :: ⟨.dot, dot⟩ :: more) :
    ¬ IsTypeWord word := by
  cases spelled with
  | primitive other spelled =>
      rw [List.singleton_append, List.cons.injEq] at ahead
      exact absurd ahead.2 (stops dot more)
  | array other opening closing spelled =>
      simp at ahead
  | map other opening key comma closing keySpelled allowed spelled =>
      simp at ahead
  | reference other noPrimitive noArray noMap tail =>
      rw [List.cons_append, List.cons.injEq, Lexeme.mk.injEq, Token.ident.injEq] at ahead
      rw [← ahead.1.1]
      exact not_isTypeWord_iff.2 ⟨noPrimitive, noArray, noMap⟩

namespace Grammar

/-- In some text, a field is ahead whose type is written as a name. -/
def FieldAhead (cursor : Cursor) (written : String) : Prop :=
  ∃ file text front fieldName start typeLexemes indexLexemes number stop rest,
    scan file text = .ok (front ++ cursor.ahead) ∧
      cursor.ahead = ⟨.ident fieldName, start⟩ :: (typeLexemes ++ (indexLexemes ++ rest)) ∧
      Token.ident fieldName ≠ Token.oneofWord ∧
      DottedName typeLexemes written ∧ IndexPhrase indexLexemes number stop

section Field

variable {cursor : Cursor} {written : String} (stands : FieldAhead cursor written)

include stands

/-- The lexemes of the field come from the text. -/
theorem FieldAhead.exists_lexemes :
    ∃ fieldName start typeLexemes indexLexemes number stop rest,
      cursor.ahead = ⟨.ident fieldName, start⟩ :: (typeLexemes ++ (indexLexemes ++ rest)) ∧
        Token.ident fieldName ≠ Token.oneofWord ∧
        DottedName typeLexemes written ∧
        IndexPhrase indexLexemes number stop ∧
        ∀ lexeme ∈ typeLexemes, lexeme.token.Writable := by
  rcases stands with
    ⟨file, text, front, fieldName, start, typeLexemes, indexLexemes, number, stop, rest, hscanned,
      hahead, hnoGroup, hname, hindexed⟩
  refine
    ⟨fieldName, start, typeLexemes, indexLexemes, number, stop, rest, hahead, hnoGroup, hname,
      hindexed, hname.writable hscanned ?_⟩
  intro lexeme hmember
  simp [hahead, hmember]

/-- A field is read if the first part of its type has no meaning of its own. -/
theorem exists_field_of_fieldAhead (other : ¬ IsTypeWord (QualifiedName.firstPart written)) :
    ∃ advance, field cursor = .ok advance ∧ advance.value.type = .reference written := by
  rcases stands.exists_lexemes with
    ⟨fieldName, start, typeLexemes, indexLexemes, number, stop, rest, hahead, hnoGroup, hname,
      hindexed, hwritable⟩
  have hspelled : FieldPhrase cursor.pending _ _ :=
    .mk start hnoGroup (hname.typePhrase hwritable other) hindexed
  rcases field_complete hspelled (by simpa using hahead) with ⟨advance, hread, hvalue, _⟩
  exact ⟨advance, hread, by rw [hvalue]⟩

/-- If the type is more than one identifier, the field is not read otherwise. -/
theorem not_isTypeWord_of_field
    (dotted : '.' ∈ written.toList)
    {advance : Advance cursor Field}
    (reads : field cursor = .ok advance) :
    ¬ IsTypeWord (QualifiedName.firstPart written) := by
  rcases stands.exists_lexemes with
    ⟨fieldName, start, typeLexemes, indexLexemes, number, stop, rest, hahead, hnoGroup, hname,
      hindexed, hwritable⟩
  rcases hname.exists_head hwritable dotted with ⟨place, dot, more, rfl⟩
  have hnone : cursor.take? .oneofWord = none := by
    rw [Cursor.take?_eq_none_iff, hahead]
    exact noToken_cons hnoGroup
  -- What was read begins like what is ahead: with the first part and a dot.
  rcases field_sound hnone reads with ⟨taken, hspelled, hcovers⟩
  generalize advance.value = value at hspelled
  cases hspelled with
  | mk other noGroup htyped hindex =>
      have hsame := hcovers.ahead
      rw [hahead] at hsame
      simp only [List.cons_append, List.cons.injEq, List.append_assoc] at hsame
      exact htyped.not_isTypeWord (hindex.noDot advance.after.ahead) hsame.2.symm

/-- A field whose type is written with dots is read if the first part of the type has no meaning of
its own, and not otherwise; its type is then what was written. -/
theorem exists_field_iff (dotted : '.' ∈ written.toList) :
    ((∃ advance, field cursor = .ok advance) ↔
      ¬ IsTypeWord (QualifiedName.firstPart written)) ∧
      ∀ advance, field cursor = .ok advance → advance.value.type = .reference written := by
  refine ⟨⟨?_, ?_⟩, ?_⟩
  · rintro ⟨advance, hread⟩
    exact not_isTypeWord_of_field stands dotted hread
  · intro hother
    rcases exists_field_of_fieldAhead stands hother with ⟨advance, hread, _⟩
    exact ⟨advance, hread⟩
  · intro advance hread
    have hother := not_isTypeWord_of_field stands dotted hread
    rcases exists_field_of_fieldAhead stands hother with ⟨again, hagain, htype⟩
    cases hread.symm.trans hagain
    exact htype

end Field

end Grammar

/-! ## Messages -/

namespace Schema

section Parsed

variable {file text : String} {schema : Schema}

/-- A package is named by identifiers that are joined by dots. -/
theorem isDottedName_package (parsed : parse file text = .ok schema) :
    IsDottedName schema.package := by
  rcases exists_phrase_of_parse parsed with ⟨lexemes, hscanned, hspelled, _, hsame⟩
  generalize schema.declarations = declarations at hspelled hsame
  cases hspelled with
  | @mk leading clauseLexemes importLexemes body clause imports margin items stop idle packaged
      imported entries =>
      have hnamed : ∀ item ∈ items, item.IsNamed := by
        intro item hmember
        rcases entries.exists_spelled hmember with ⟨notes, taken, hitem, _⟩
        cases hitem with
        | message spelled =>
            exact Or.inl ⟨_, rfl⟩
        | service spelled =>
            exact Or.inr ⟨_, rfl⟩
      rw [hsame, package_ofDeclarations hnamed]
      cases packaged with
      | @mk nameLexemes name start stop spelled =>
          refine IsDottedName.of_phrase spelled (spelled.writable hscanned ?_)
          intro lexeme hmember
          simp [hmember]

/-- A message is named by an identifier. -/
theorem isIdentifier_of_mem_messages
    (parsed : parse file text = .ok schema)
    {message : Message}
    (declared : message ∈ schema.messages) :
    IsIdentifier message.name := by
  rcases exists_phrase_of_parse parsed with ⟨lexemes, hscanned, hspelled, _, _⟩
  rcases hspelled.exists_stretch (mem_messages.1 declared) (by simp [Declaration.name?]) with
    ⟨front, notes, taken, behind, rfl, hphrase⟩
  rcases hphrase.exists_name rfl with ⟨token, start, place, more, rfl, _⟩
  exact writable_of_scan hscanned ⟨.ident message.name, place⟩ (by simp) (by simp)

/-- The qualified names of messages, as types. -/
theorem wellFormed_join_iff
    (parsed : parse file text = .ok schema)
    {message : Message}
    (declared : message ∈ schema.messages) :
    (FieldType.reference (QualifiedName.join schema.package message.name)).WellFormed ↔
      ¬ IsTypeWord (QualifiedName.firstPart schema.package) := by
  have hdotted :=
    (isDottedName_package parsed).join (isIdentifier_of_mem_messages parsed declared)
  rw [← QualifiedName.firstPart_join schema.package message.name]
  exact hdotted.isReference_iff

end Parsed

/-- How a message of a schema can be referred to by a name: it is filed under the name, and fields
whose type is written as the name refer to it unless the first part of the package has a meaning of
its own. In whatever file a field stands, its type can be written so. -/
structure Referable (schema : Schema) (message : Message) (name : String) : Prop where
  filed :
    ∀ set : FileSet,
      FileSet.Reachable set →
        ∀ source ∈ set.files,
          source.schema = schema →
            ∃ ref, set.index.lookup name = some ref ∧ set.Refers ref source (.message message)
  read_iff :
    ∀ cursor,
      Grammar.FieldAhead cursor name →
        ((∃ advance, Grammar.field cursor = .ok advance) ↔
          ¬ IsTypeWord (QualifiedName.firstPart schema.package))
  type_eq :
    ∀ cursor advance,
      Grammar.FieldAhead cursor name →
        Grammar.field cursor = .ok advance → advance.value.type = .reference name
  exists_parse :
    ¬ IsTypeWord (QualifiedName.firstPart schema.package) →
      ∀ file text holder before type after,
        parse file text = .ok holder →
          holder.fieldTypes = before ++ type :: after →
            ∃ front typed behind,
              scan file text = .ok (front ++ (typed ++ behind)) ∧
                TypePhrase typed type ∧
                ∀ other changed above lexemes below,
                  scan other changed = .ok (above ++ (lexemes ++ below)) →
                    SameTokens front above →
                      SameTokens behind below →
                        DottedName lexemes name →
                          ∃ again,
                            parse other changed = .ok again ∧
                              again.fieldTypes = before ++ .reference name :: after
  exists_parse_typed :
    ¬ IsTypeWord (QualifiedName.firstPart schema.package) →
      ∀ file,
        ∃ again,
          parse file (typedText name) = .ok again ∧ again.fieldTypes = [.reference name]
  of_mem_fieldTypes :
    ∀ file text again,
      parse file text = .ok again →
        .reference name ∈ again.fieldTypes →
          ¬ IsTypeWord (QualifiedName.firstPart schema.package)

/-- A message that is declared in a text is filed under its qualified name, and fields can refer to
it by this name unless the first part of its package has a meaning of its own. -/
theorem referable_of_parse
    {file text : String}
    {schema : Schema}
    (parsed : parse file text = .ok schema)
    {message : Message}
    (declared : message ∈ schema.messages) :
    schema.Referable message (QualifiedName.join schema.package message.name) := by
  have hwellFormed := wellFormed_join_iff parsed declared
  have hfirst := QualifiedName.firstPart_join schema.package message.name
  have hdotted : '.' ∈ (QualifiedName.join schema.package message.name).toList := by
    simp [QualifiedName.join]
  constructor
  · rintro set hreachable source hsource rfl
    have hconsistent := (FileSet.consistent_of_steps hreachable FileSet.Consistent.empty).1
    rcases FileSet.exists_refers_of_mem hsource (mem_messages.1 declared) with ⟨ref, hrefers⟩
    exact ⟨ref, (hconsistent.index_lookup _ ref).2 ⟨source, message, hrefers, rfl⟩, hrefers⟩
  · intro cursor hstands
    rw [← hfirst]
    exact (Grammar.exists_field_iff hstands hdotted).1
  · intro cursor advance hstands
    exact (Grammar.exists_field_iff hstands hdotted).2 advance
  · intro hother around held holder before type after hheld hlisted
    rw [← hfirst] at hother
    rcases exists_parse_of_exchange hheld hlisted with
      ⟨front, typed, behind, hscanned, htyped, hexchange⟩
    refine ⟨front, typed, behind, hscanned, htyped, ?_⟩
    intro other changed above lexemes below hchanged hfront hbehind hname
    have hinside : lexemes ⊆ above ++ (lexemes ++ below) := by
      intro lexeme hmember
      simp [hmember]
    have htypedToo := hname.typePhrase (hname.writable hchanged hinside) hother
    exact hexchange other changed above lexemes below _ hchanged hfront hbehind htypedToo
  · intro hother again
    have hdisplay (name : String) : (FieldType.reference name).display = name := rfl
    have hparsed := exists_parse_typedText again (hwellFormed.2 hother)
    rw [hdisplay] at hparsed
    exact hparsed
  · intro other behind again hparsed hmember
    exact hwellFormed.1 (wellFormed_of_mem_fieldTypes hparsed hmember)

/-- A text that declares one message, by what is read from it. -/
theorem exists_message_of_view
    {file text package name : String}
    (view :
      (parse file text).toOption.map (fun schema =>
        (schema.package, schema.messages.map Message.name)) =
        some (package, [name])) :
    ∃ schema message,
      parse file text = .ok schema ∧
        message ∈ schema.messages ∧ schema.package = package ∧ message.name = name := by
  rcases exists_eq_ok_of_toOption view with ⟨schema, hparsed, hview⟩
  rw [Prod.mk.injEq] at hview
  have hmember : name ∈ schema.messages.map Message.name := by simp [hview.2]
  rcases List.mem_map.1 hmember with ⟨message, hmessage, hname⟩
  exact ⟨schema, message, hparsed, hmessage, hview.1, hname⟩

/-- A text in which words that begin types are names, though none is the first part of one. -/
def wordyText : String :=
  "package a.string;message map {}"

/-- A place in the first line of a text without wide characters. -/
def inFirstLine (start stop : Nat) : Location :=
  ⟨⟨1, start + 1⟩, ⟨1, stop + 1⟩, ⟨start, stop⟩⟩

/-- The place before a field whose type is the message of this text. -/
def wordyCursor : Cursor where
  previous := none
  ahead := [
    ⟨.ident "f", inFirstLine 0 1⟩, ⟨.ident "a", inFirstLine 2 3⟩, ⟨.dot, inFirstLine 3 4⟩,
    ⟨.ident "string", inFirstLine 4 10⟩, ⟨.dot, inFirstLine 10 11⟩,
    ⟨.ident "map", inFirstLine 11 14⟩, ⟨.equals, inFirstLine 14 15⟩,
    ⟨.number 1, inFirstLine 15 16⟩, ⟨.semicolon, inFirstLine 16 17⟩, ⟨.eof, inFirstLine 17 17⟩]
  eof := .nowhere
  pending := Notes.none

theorem fieldAhead_wordyCursor : Grammar.FieldAhead wordyCursor "a.string.map" := by
  have hscanned : scan "b.yarp" "f a.string.map=1;" = .ok ([] ++ wordyCursor.ahead) := by
    decide +kernel
  have hname : DottedName _ "a.string.map" :=
    .mk "a" (inFirstLine 2 3)
      (.cons "string" (inFirstLine 3 4) (inFirstLine 4 10)
        (.cons "map" (inFirstLine 10 11) (inFirstLine 11 14) .nil))
  have hindexed : IndexPhrase _ 1 _ :=
    .mk 1 (inFirstLine 14 15) (inFirstLine 15 16) (inFirstLine 16 17)
  exact ⟨_, _, [], "f", _, _, _, _, _, _, hscanned, rfl, by decide, hname, hindexed⟩

theorem referable_of_parse_wordyText :
    ∃ schema message,
      parse "a.yarp" wordyText = .ok schema ∧
        message ∈ schema.messages ∧
        schema.Referable message "a.string.map" ∧
        ∃ advance,
          Grammar.field wordyCursor = .ok advance ∧
            advance.value.type = .reference "a.string.map" := by
  have hview :
      (parse "a.yarp" wordyText).toOption.map (fun schema =>
        (schema.package, schema.messages.map Message.name)) =
        some ("a.string", ["map"]) := by
    decide +kernel
  rcases exists_message_of_view hview with ⟨schema, message, hparsed, hdeclared, hpackage, hname⟩
  have hreferable := referable_of_parse hparsed hdeclared
  have hjoin : QualifiedName.join schema.package message.name = "a.string.map" := by
    rw [hpackage, hname]
    rfl
  rw [hjoin] at hreferable
  have hother : ¬ IsTypeWord (QualifiedName.firstPart schema.package) := by
    rw [hpackage]
    decide
  rcases (hreferable.read_iff _ fieldAhead_wordyCursor).2 hother with ⟨advance, hread⟩
  exact
    ⟨schema, message, hparsed, hdeclared, hreferable, advance, hread,
      hreferable.type_eq _ advance fieldAhead_wordyCursor hread⟩

/-- A package that is named like a primitive type may hold a message, but a field whose type is
written as the name of the message is refused at the dot. -/
theorem not_referable_of_parse :
    ∃ schema message error,
      parse "a.yarp" "package string;message M{}" = .ok schema ∧
        message ∈ schema.messages ∧
        QualifiedName.join schema.package message.name = "string.M" ∧
        parse "a.yarp" "package string;message M{}message N{f string.M=0;}" =
          .error error ∧
        error.cause = .unexpectedToken (.exactly .equals) .dot ∧ error.span = ⟨44, 45⟩ := by
  have hview :
      (parse "a.yarp" "package string;message M{}").toOption.map (fun schema =>
        (schema.package, schema.messages.map Message.name)) =
        some ("string", ["M"]) := by
    decide +kernel
  have hfails :
      parse "a.yarp" "package string;message M{}message N{f string.M=0;}" =
        .error ⟨"a.yarp", .unexpectedToken (.exactly .equals) .dot, ⟨44, 45⟩, ⟨1, 45⟩⟩ := by
    decide +kernel
  rcases exists_message_of_view hview with ⟨schema, message, hparsed, hdeclared, hpackage, hname⟩
  refine ⟨schema, message, _, hparsed, hdeclared, ?_, hfails, rfl, rfl⟩
  rw [hpackage, hname]
  rfl

end Schema

end InterfaceSchema
