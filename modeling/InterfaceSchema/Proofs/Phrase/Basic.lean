import InterfaceSchema.Lexeme
import InterfaceSchema.Schema.Node

/-!
# Phrases of the schema language

The grammar of schema texts, as relations between stretches of lexemes and what they spell. None of
them mentions a cursor or an order of reading.

* `DottedName`, `TypePhrase`, `IndexPhrase`: the parts of a field or method.
* `AnnotationPhrase`: an annotation with its list of values.
* `Trivia`, `Filler`, `Entries`: what may stand between the items of a body, and what becomes of the
  notes that wait for an item. A `Margin` is all that this depends on.
* `MemberPhrase`, `MethodPhrase`, `DeclarationPhrase`, `ImportBlock`, `SchemaPhrase`: the larger
  parts up to a whole schema.
-/

namespace InterfaceSchema

/-! ## Names and types -/

/-- The parts of a dotted name after its first identifier. -/
inductive DottedTail : List Lexeme → String → Prop
  | nil : DottedTail [] ""
  | cons
      {rest : List Lexeme}
      {text : String}
      (part : String)
      (dot place : Location)
      (later : DottedTail rest text) :
      DottedTail (⟨.dot, dot⟩ :: ⟨.ident part, place⟩ :: rest) ("." ++ part ++ text)

/-- Identifiers joined by dots. -/
inductive DottedName : List Lexeme → String → Prop
  | mk
      {rest : List Lexeme}
      {text : String}
      (first : String)
      (place : Location)
      (tail : DottedTail rest text) :
      DottedName (⟨.ident first, place⟩ :: rest) (first ++ text)

/-- Types of fields. The first identifier of a reference has no meaning of its own. -/
inductive TypePhrase : List Lexeme → FieldType → Prop
  | primitive
      {name : String}
      {type : Primitive}
      (place : Location)
      (spelled : Primitive.ofName? name = some type) :
      TypePhrase [⟨.ident name, place⟩] (.primitive type)
  | array
      {inner : List Lexeme}
      {element : FieldType}
      (word opening closing : Location)
      (spelled : TypePhrase inner element) :
      TypePhrase
        (⟨.arrayWord, word⟩ :: ⟨.leftAngle, opening⟩ :: (inner ++ [⟨.rightAngle, closing⟩]))
        (.array element)
  | map
      {inner : List Lexeme}
      {keyName : String}
      {key : Primitive}
      {value : FieldType}
      (word opening place comma closing : Location)
      (keySpelled : Primitive.ofName? keyName = some key)
      (allowed : key.isMapKey = true)
      (spelled : TypePhrase inner value) :
      TypePhrase
        (⟨.mapWord, word⟩ :: ⟨.leftAngle, opening⟩ :: ⟨.ident keyName, place⟩ ::
          ⟨.comma, comma⟩ :: (inner ++ [⟨.rightAngle, closing⟩]))
        (.map key value)
  | reference
      {rest : List Lexeme}
      {text first : String}
      (place : Location)
      (noPrimitive : Primitive.ofName? first = none)
      (noArray : Token.ident first ≠ Token.arrayWord)
      (noMap : Token.ident first ≠ Token.mapWord)
      (tail : DottedTail rest text) :
      TypePhrase (⟨.ident first, place⟩ :: rest) (.reference (first ++ text))

/-- The index of a field or group, with the place of the semicolon that ends it. -/
inductive IndexPhrase : List Lexeme → UInt64 → Location → Prop
  | mk (number : UInt64) (equals digits stop : Location) :
      IndexPhrase [⟨.equals, equals⟩, ⟨.number number, digits⟩, ⟨.semicolon, stop⟩] number stop

/-! ## Annotations -/

/-- Tokens that may be part of an annotation value. -/
def Token.IsWord (token : Token) : Prop :=
  token ≠ .comma ∧ token ≠ .rightParen ∧ token ≠ .newline ∧ token ≠ .eof

/-- The value that a run of lexemes stands for. -/
def runValue (run : List Lexeme) : String :=
  String.intercalate " " (run.map fun lexeme => lexeme.token.value)

/-- A run of lexemes that makes one annotation value. -/
def IsRun (run : List Lexeme) : Prop :=
  run ≠ [] ∧ ∀ lexeme ∈ run, lexeme.token.IsWord

/-- Annotation values between parentheses; a comma may follow the last one. -/
inductive ValueList : List Lexeme → List String → Prop
  | nil : ValueList [] []
  | last {run : List Lexeme} (whole : IsRun run) : ValueList run [runValue run]
  | comma
      {run rest : List Lexeme}
      {values : List String}
      (place : Location)
      (whole : IsRun run)
      (later : ValueList rest values) :
      ValueList (run ++ ⟨.comma, place⟩ :: rest) (runValue run :: values)

/-- Annotations. -/
inductive AnnotationPhrase : List Lexeme → AnnotationMark → Prop
  | bare (name : String) (place : Location) :
      AnnotationPhrase [⟨.atName name, place⟩] ⟨place, name, []⟩
  | list
      {inner : List Lexeme}
      {values : List String}
      (name : String)
      (start opening closing : Location)
      (listed : ValueList inner values) :
      AnnotationPhrase
        (⟨.atName name, start⟩ :: ⟨.leftParen, opening⟩ :: (inner ++ [⟨.rightParen, closing⟩]))
        ⟨start.through closing, name, values⟩

/-! ## What stands between items -/

/-- Whether nothing or a line feed stands directly before a place, and the notes that wait there for
the next item. -/
structure Margin where
  atLineStart : Bool
  waiting : Notes

/-- The margin directly after a token other than a line feed, with no notes waiting. -/
def Margin.clear : Margin :=
  ⟨false, Notes.none⟩

/-- A line feed or a comment. -/
def Lexeme.IsIdle (lexeme : Lexeme) : Prop :=
  lexeme.token = .newline ∨ ∃ text, lexeme.token = .comment text

/-- Line feeds and comments. An empty line detaches the notes that wait; a comment joins them if it
stands on a line of its own. -/
inductive Trivia : Margin → List Lexeme → Margin → Prop
  | newline (margin : Margin) (place : Location) :
      Trivia margin [⟨.newline, place⟩]
        ⟨true, if margin.atLineStart then Notes.none else margin.waiting⟩
  | comment (margin : Margin) (text : String) (place : Location) :
      Trivia margin [⟨.comment text, place⟩]
        ⟨false, { margin.waiting with
          comments := margin.waiting.comments ++ if margin.atLineStart then [text] else [] }⟩

/-- Trivia and annotations; an annotation joins the notes that wait. -/
inductive Filler : Margin → List Lexeme → Margin → Prop
  | trivia
      {margin next : Margin}
      {taken : List Lexeme}
      (passed : Trivia margin taken next) :
      Filler margin taken next
  | noted
      {taken : List Lexeme}
      {mark : AnnotationMark}
      (margin : Margin)
      (marked : AnnotationPhrase taken mark) :
      Filler margin taken
        ⟨false, { margin.waiting with annotations := margin.waiting.annotations ++ [mark] }⟩

section Entries

variable {α : Type}

/-- Items with fillers between them. Each item takes the notes that wait where it begins. -/
inductive Entries (Item : Notes → List Lexeme → α → Prop) :
    Margin → List Lexeme → List α → Prop
  | nil (margin : Margin) : Entries Item margin [] []
  | filler
      {margin next : Margin}
      {taken rest : List Lexeme}
      {items : List α}
      (passed : Filler margin taken next)
      (later : Entries Item next rest items) :
      Entries Item margin (taken ++ rest) items
  | item
      {margin : Margin}
      {taken rest : List Lexeme}
      {value : α}
      {items : List α}
      (spelled : Item margin.waiting taken value)
      (later : Entries Item .clear rest items) :
      Entries Item margin (taken ++ rest) (value :: items)

end Entries

/-! ## Messages -/

/-- Fields. The word that opens a group is no name of a field. -/
inductive FieldPhrase (notes : Notes) : List Lexeme → Field → Prop
  | mk
      {typeLexemes indexLexemes : List Lexeme}
      {name : String}
      {type : FieldType}
      {number : UInt64}
      {stop : Location}
      (start : Location)
      (noGroup : Token.ident name ≠ Token.oneofWord)
      (typed : TypePhrase typeLexemes type)
      (indexed : IndexPhrase indexLexemes number stop) :
      FieldPhrase notes (⟨.ident name, start⟩ :: (typeLexemes ++ indexLexemes))
        ⟨start.through stop, name, type, number, notes⟩

/-- Groups of fields. -/
inductive GroupPhrase (notes : Notes) : List Lexeme → Oneof → Prop
  | mk
      {body indexLexemes : List Lexeme}
      {fields : List Field}
      {number : UInt64}
      {stop : Location}
      (start opening closing : Location)
      (entries : Entries FieldPhrase .clear body fields)
      (indexed : IndexPhrase indexLexemes number stop) :
      GroupPhrase notes
        (⟨.oneofWord, start⟩ :: ⟨.leftBrace, opening⟩ ::
          (body ++ ⟨.rightBrace, closing⟩ :: indexLexemes))
        ⟨start.through stop, number, fields, notes⟩

/-- Entries in the body of a message. -/
inductive MemberPhrase (notes : Notes) : List Lexeme → Member → Prop
  | field
      {taken : List Lexeme}
      {single : Field}
      (spelled : FieldPhrase notes taken single) :
      MemberPhrase notes taken (.field single)
  | oneof
      {taken : List Lexeme}
      {group : Oneof}
      (spelled : GroupPhrase notes taken group) :
      MemberPhrase notes taken (.oneof group)

/-- Messages. -/
inductive MessagePhrase (notes : Notes) : List Lexeme → Message → Prop
  | mk
      {body : List Lexeme}
      {members : List Member}
      (name : String)
      (start place opening closing : Location)
      (entries : Entries MemberPhrase .clear body members) :
      MessagePhrase notes
        (⟨.messageWord, start⟩ :: ⟨.ident name, place⟩ :: ⟨.leftBrace, opening⟩ ::
          (body ++ [⟨.rightBrace, closing⟩]))
        ⟨start.through closing, name, notes, members⟩

/-! ## Services -/

/-- The argument type of a method, which may be left out. -/
inductive ArgumentPhrase : List Lexeme → String → Prop
  | none : ArgumentPhrase [] voidName
  | named {taken : List Lexeme} {name : String} (spelled : DottedName taken name) :
      ArgumentPhrase taken name

/-- What a method returns, and whether it is a stream. The word directly after the arrow marks a
stream if it can. -/
inductive ResultPhrase : List Lexeme → String → Bool → Prop
  | none : ResultPhrase [] voidName false
  | single
      {rest : List Lexeme}
      {text first : String}
      (arrow place : Location)
      (noStream : Token.ident first ≠ Token.streamWord)
      (tail : DottedTail rest text) :
      ResultPhrase (⟨.arrow, arrow⟩ :: ⟨.ident first, place⟩ :: rest) (first ++ text) false
  | stream
      {taken : List Lexeme}
      {name : String}
      (arrow word : Location)
      (spelled : DottedName taken name) :
      ResultPhrase (⟨.arrow, arrow⟩ :: ⟨.streamWord, word⟩ :: taken) name true

/-- Methods. -/
inductive MethodPhrase (notes : Notes) : List Lexeme → Method → Prop
  | mk
      {argument result : List Lexeme}
      {argumentType returnType : String}
      {returnsStream : Bool}
      (name : String)
      (start opening closing stop : Location)
      (argumentSpelled : ArgumentPhrase argument argumentType)
      (resultSpelled : ResultPhrase result returnType returnsStream) :
      MethodPhrase notes
        (⟨.ident name, start⟩ :: ⟨.leftParen, opening⟩ ::
          (argument ++ ⟨.rightParen, closing⟩ :: (result ++ [⟨.semicolon, stop⟩])))
        ⟨start.through stop, name, notes, argumentType, returnType, returnsStream⟩

/-- Services. -/
inductive ServicePhrase (notes : Notes) : List Lexeme → Service → Prop
  | mk
      {body : List Lexeme}
      {methods : List Method}
      (name : String)
      (start place opening closing : Location)
      (entries : Entries MethodPhrase .clear body methods) :
      ServicePhrase notes
        (⟨.serviceWord, start⟩ :: ⟨.ident name, place⟩ :: ⟨.leftBrace, opening⟩ ::
          (body ++ [⟨.rightBrace, closing⟩]))
        ⟨start.through closing, name, notes, methods⟩

/-! ## Schemas -/

/-- Messages and services. -/
inductive DeclarationPhrase (notes : Notes) : List Lexeme → Declaration → Prop
  | message
      {taken : List Lexeme}
      {declared : Message}
      (spelled : MessagePhrase notes taken declared) :
      DeclarationPhrase notes taken (.message declared)
  | service
      {taken : List Lexeme}
      {declared : Service}
      (spelled : ServicePhrase notes taken declared) :
      DeclarationPhrase notes taken (.service declared)

/-- The package clause. -/
inductive PackagePhrase : List Lexeme → Package → Prop
  | mk
      {taken : List Lexeme}
      {name : String}
      (start stop : Location)
      (spelled : DottedName taken name) :
      PackagePhrase (⟨.packageWord, start⟩ :: (taken ++ [⟨.semicolon, stop⟩]))
        ⟨start.through stop, name⟩

/-- Imports with trivia between them. Each import detaches the notes that wait. -/
inductive ImportBlock : Margin → List Lexeme → List Import → Margin → Prop
  | nil (margin : Margin) : ImportBlock margin [] [] margin
  | trivia
      {margin next last : Margin}
      {taken rest : List Lexeme}
      {imports : List Import}
      (passed : Trivia margin taken next)
      (later : ImportBlock next rest imports last) :
      ImportBlock margin (taken ++ rest) imports last
  | importing
      {margin last : Margin}
      {rest : List Lexeme}
      {imports : List Import}
      (path : String)
      (start place stop : Location)
      (later : ImportBlock .clear rest imports last) :
      ImportBlock margin
        (⟨.importWord, start⟩ :: ⟨.stringLiteral path, place⟩ :: ⟨.semicolon, stop⟩ :: rest)
        (⟨start.through stop, path⟩ :: imports) last

/-- Whole schemas with the declarations they consist of. Notes before the package clause reach
nothing. -/
inductive SchemaPhrase : List Lexeme → List Declaration → Prop
  | mk
      {leading clauseLexemes importLexemes body : List Lexeme}
      {clause : Package}
      {imports : List Import}
      {margin : Margin}
      {declarations : List Declaration}
      (stop : Location)
      (idle : ∀ lexeme ∈ leading, lexeme.IsIdle)
      (packaged : PackagePhrase clauseLexemes clause)
      (imported : ImportBlock .clear importLexemes imports margin)
      (entries : Entries DeclarationPhrase margin body declarations) :
      SchemaPhrase
        (leading ++ (clauseLexemes ++ (importLexemes ++ (body ++ [⟨.eof, stop⟩]))))
        (.package clause :: (imports.map .importing ++ declarations))

end InterfaceSchema
