import InterfaceSchema.Grammar.Schema

/-!
# Reading by number

The grammar once more, for lexemes that are counted: a reader knows the number of the lexeme ahead
and nothing of how many are left. Nothing keeps it from counting past the end of the text, from
looking at a lexeme that is not there, or from going round in a loop without getting on. Instead it
keeps a record of what it does.

* `Reader`: readers of a `Sheet` of lexemes, which change what lies on a `Desk`.
* `Event`: moves of the number ahead, looks behind it, and rounds of loops with the numbers at which
  they begin and end. The way to a type inside a type is a round, and so is each type as a whole.
* `Stop`: a reader stops at a failure of the text; it gives up after as many rounds as there are
  lexemes, and where no text can lead it.
* `loop`: the one loop that all repetitions of the grammar are. `schema`: the whole grammar.
-/

namespace InterfaceSchema
namespace Numbered

/-- What is put on record. -/
inductive Event
  | move (start stop : Nat)
  | look (number : Nat)
  | round (start stop : Nat)

/-- Why a reader stops without a result. -/
inductive Stop
  | failure (failure : Failure)
  | endless
  | astray

/-- The number of the lexeme ahead, the notes that wait, and the record. -/
structure Desk where
  number : Nat
  pending : Notes
  record : List Event

/-- The desk before the first lexeme. -/
def Desk.start : Desk :=
  ⟨0, Notes.none, []⟩

/-- The desk with one more event on record. -/
def Desk.noted (desk : Desk) (event : Event) : Desk :=
  { desk with record := desk.record ++ [event] }

/-- Lexemes to read. Behind them the text ends at `eof`. -/
structure Sheet where
  lexemes : List Lexeme
  eof : Location

/-- A reader of lexemes by number. -/
abbrev Reader (α : Type) :=
  ReaderT Sheet (ExceptT Stop (StateM Desk)) α

/-- What a reader finds from a desk, and the desk it leaves, also where it stops. -/
def run {α : Type} (reader : Reader α) (sheet : Sheet) (desk : Desk) : Except Stop α × Desk :=
  reader sheet desk

section Single

variable {α σ : Type}

/-- The number of the lexeme ahead. -/
def number : Reader Nat :=
  return (← get).number

/-- Puts an event on record. -/
def note (event : Event) : Reader Unit :=
  modify fun desk => desk.noted event

/-- Puts on record that a round that began at a number ends here. -/
def noteRound (start : Nat) : Reader Unit := do
  note (.round start (← number))

/-- Moves to a number. -/
def moveTo (stop : Nat) : Reader Unit := do
  note (.move (← number) stop)
  modify fun desk => { desk with number := stop }

/-- The notes that wait. -/
def waiting : Reader Notes :=
  return (← get).pending

/-- Leaves other notes waiting. -/
def setWaiting (notes : Notes) : Reader Unit :=
  modify fun desk => { desk with pending := notes }

/-- The lexeme ahead. -/
def peek : Reader Lexeme := do
  let sheet ← read
  return sheet.lexemes[← number]?.getD ⟨.eof, sheet.eof⟩

/-- Goes past the lexeme ahead, whatever it is. -/
def bump : Reader Unit := do
  if (← number) < (← read).lexemes.length then
    moveTo ((← number) + 1)

/-- Whether nothing or a line feed is before the lexeme ahead. -/
def atLineStart : Reader Bool := do
  match ← number with
  | 0 => return true
  | before + 1 =>
    note (.look before)
    return (← read).lexemes[before]?.any fun lexeme => lexeme.token = .newline

/-- Refuses the text. -/
def fail (failure : Failure) : Reader α :=
  throw (.failure failure)

/-- The failure to find at a lexeme what the grammar asks for. -/
def unexpectedAt (found : Lexeme) (expected : Expected) : Failure :=
  match found.token with
  | .eof => ⟨.unexpectedEnd expected, found.location.span⟩
  | token => ⟨.unexpectedToken expected token, found.location.span⟩

/-- Refuses the lexeme ahead. -/
def unexpected (expected : Expected) : Reader α := do
  fail (unexpectedAt (← peek) expected)

/-- Reads what `pick` finds in the token ahead, which must be something. -/
def select (expected : Expected) (pick : Token → Option α) : Reader (α × Location) := do
  let found ← peek
  match pick found.token with
  | some value =>
    bump
    return (value, found.location)
  | none => unexpected expected

/-- Reads an identifier. -/
def ident (expected : Expected) : Reader (String × Location) :=
  select expected Token.ident?

/-- Reads the given token, which must be ahead. -/
def expect (token : Token) : Reader Location := do
  let found ← peek
  if found.token = token then
    bump
    return found.location
  else
    unexpected (.exactly token)

/-- Goes round until a round ends the loop, at most as often as is given. -/
def rounds (round : σ → Reader (σ ⊕ α)) : Nat → σ → Reader α
  | 0, _ => throw .endless
  | more + 1, state => do
    let start ← number
    match ← round state with
    | .inl next =>
      noteRound start
      rounds round more next
    | .inr value => return value

/-- Goes round until a round ends the loop, at most as often as there are lexemes. -/
def loop (round : σ → Reader (σ ⊕ α)) (state : σ) : Reader α := do
  rounds round (← read).lexemes.length state

end Single

/-! ## Between items -/

/-- Line feeds and comments. -/
def isIdle : Token → Bool
  | .newline => true
  | .comment _ => true
  | _ => false

/-- Reads a line feed or a comment, and nothing if another token is ahead. -/
def trivia : Reader Unit := do
  match (← peek).token with
  | .newline =>
    if ← atLineStart then
      setWaiting Notes.none
    bump
  | .comment text =>
    if ← atLineStart then
      let notes ← waiting
      setWaiting { notes with comments := notes.comments ++ [text] }
    bump
  | _ => return

/-- One round of a list of values, given those that are complete and the words of the one that has
been begun. -/
def valueRound (state : List String × List String) :
    Reader ((List String × List String) ⊕ (List String × Location)) := do
  let (values, words) := state
  let found ← peek
  match found.token with
  | .rightParen =>
    bump
    return .inr (values ++ Grammar.joinWords words, found.location)
  | .newline => unexpected (.exactly .rightParen)
  | .eof => unexpected (.exactly .rightParen)
  | .comma =>
    if words = [] then
      fail ⟨.emptyAnnotationValue, found.location.span⟩
    else
      bump
      return .inl (values ++ Grammar.joinWords words, [])
  | token =>
    bump
    return .inl (values, words ++ [token.value])

/-- Reads the values of an annotation, if a parenthesis is ahead, and returns them with the place at
which the annotation ends. -/
def annotationEnd (start : Location) : Reader (List String × Location) := do
  if (← peek).token = .leftParen then
    bump
    loop valueRound ([], [])
  else
    return ([], start)

/-- Reads an annotation, which must be ahead, and leaves it with the waiting notes. -/
def annotation : Reader Unit := do
  let found ← peek
  match found.token.atName? with
  | some name =>
    bump
    let last ← annotationEnd found.location
    let notes ← waiting
    let mark : AnnotationMark := ⟨found.location.through last.2, name, last.1⟩
    setWaiting { notes with annotations := notes.annotations ++ [mark] }
  | none => throw .astray

section Block

variable {α : Type}

/-- Reads a line feed, a comment, an annotation or an item. -/
def entry (item : Reader α) : Reader (Option α) := do
  let found ← peek
  if isIdle found.token then
    trivia
    return none
  else
    match found.token.atName? with
    | some _ =>
      annotation
      return none
    | none => return some (← item)

/-- One round of a body, given the items before. -/
def blockRound (item : Reader α) (items : List α) : Reader (List α ⊕ (List α × Location)) := do
  let found ← peek
  if found.token = .rightBrace then
    bump
    return .inr (items, found.location)
  else
    return .inl (items ++ (← entry item).toList)

/-- Reads items up to the closing brace. -/
def block (item : Reader α) : Reader (List α × Location) :=
  loop (blockRound item) []

end Block

/-! ## Names and types -/

/-- One round of a dotted name, given its parts before. -/
def dottedRound (name : String) : Reader (String ⊕ String) := do
  if (← peek).token = .dot then
    bump
    let part ← ident .identifier
    return .inl (name ++ "." ++ part.1)
  else
    return .inr name

/-- Reads the parts of a dotted name that follow the first ones. -/
def dottedRest (name : String) : Reader String :=
  loop dottedRound name

/-- Reads a dotted name. -/
def dottedName (expected : Expected) : Reader String := do
  let first ← ident expected
  dottedRest first.1

/-- Reads the type of the keys of a map. -/
def mapKey : Reader Primitive := do
  let name ← ident .mapKey
  match (Primitive.ofName? name.1).filter Primitive.isMapKey with
  | some key => return key
  | none => fail ⟨.invalidMapKey, name.2.span⟩

/-- Reads a type, given the reader of the types inside it. -/
def typeAround (inner : Reader FieldType) : Reader FieldType := do
  let name ← ident .fieldType
  match Primitive.ofName? name.1 with
  | some primitive => return .primitive primitive
  | none =>
    if Token.ident name.1 = Token.arrayWord then
      let _ ← expect .leftAngle
      let element ← inner
      let _ ← expect .rightAngle
      return .array element
    else if Token.ident name.1 = Token.mapWord then
      let _ ← expect .leftAngle
      let key ← mapKey
      let _ ← expect .comma
      let value ← inner
      let _ ← expect .rightAngle
      return .map key value
    else
      return .reference (← dottedRest name.1)

/-- Reads a type with at most the given number of types around one another. -/
def typeWithin : Nat → Reader FieldType
  | 0 => throw .endless
  | depth + 1 => do
    let start ← number
    let type ← typeAround do
      noteRound start
      typeWithin depth
    noteRound start
    return type

/-- Reads a type. -/
def fieldType : Reader FieldType := do
  typeWithin (← read).lexemes.length

/-! ## Messages -/

/-- Reads the index of a field or group and the semicolon that ends it. -/
def index : Reader (UInt64 × Location) := do
  let _ ← expect .equals
  let number ← select .integer Token.number?
  let place ← expect .semicolon
  return (number.1, place)

/-- Reads a field. -/
def field : Reader Field := do
  let notes ← waiting
  let name ← ident .fieldName
  setWaiting Notes.none
  let type ← fieldType
  let last ← index
  return ⟨name.2.through last.2, name.1, type, last.1, notes⟩

/-- Reads an entry of a group, where no other group may begin. -/
def oneofField : Reader Field := do
  let found ← peek
  if found.token = .oneofWord then
    fail ⟨.nestedOneof, found.location.span⟩
  else
    field

/-- Reads a group behind its first word. -/
def oneof (notes : Notes) (word : Location) : Reader Oneof := do
  let _ ← expect .leftBrace
  let fields ← block oneofField
  let last ← index
  setWaiting Notes.none
  return ⟨word.through last.2, last.1, fields.1, notes⟩

/-- Reads an entry in the body of a message. -/
def member : Reader Member := do
  let notes ← waiting
  let found ← peek
  if found.token = .oneofWord then
    bump
    setWaiting Notes.none
    return .oneof (← oneof notes found.location)
  else
    return .field (← field)

/-! ## Services -/

/-- Reads the argument type of a method and the parenthesis that closes it. -/
def argument : Reader String := do
  let found ← peek
  if found.token = .rightParen then
    bump
    return voidName
  else
    match found.token.ident? with
    | none => unexpected .argumentTypeOrClose
    | some _ =>
      let type ← dottedName .argumentType
      let _ ← expect .rightParen
      return type

/-- Reads what a method returns behind its arrow. -/
def resultType : Reader Grammar.Result := do
  if (← peek).token = .streamWord then
    bump
    return ⟨← dottedName .returnType, true⟩
  else
    return ⟨← dottedName .returnType, false⟩

/-- Reads the result of a method and the semicolon that ends it. -/
def result : Reader (Grammar.Result × Location) := do
  let found ← peek
  if found.token = .semicolon then
    bump
    return (⟨voidName, false⟩, found.location)
  else if found.token = .arrow then
    bump
    let type ← resultType
    let place ← expect .semicolon
    return (type, place)
  else
    unexpected .arrowOrSemicolon

/-- Reads a method. -/
def method : Reader Method := do
  let notes ← waiting
  let name ← ident .methodName
  setWaiting Notes.none
  let _ ← expect .leftParen
  let argumentType ← argument
  let last ← result
  return ⟨name.2.through last.2, name.1, notes, argumentType, last.1.type, last.1.isStream⟩

/-! ## Schemas -/

/-- One round of what stands before the package clause. -/
def leadingRound (_ : Unit) : Reader (Unit ⊕ Unit) := do
  if isIdle (← peek).token then
    bump
    return .inl ()
  else
    return .inr ()

/-- Reads the package clause. -/
def package : Reader Package := do
  let word ← expect .packageWord
  let name ← dottedName .packageName
  let place ← expect .semicolon
  return ⟨word.through place, name⟩

/-- Reads an import behind its first word. -/
def importing (schema : Schema) (word : Location) : Reader Import := do
  let path ← select .importPath Token.stringLiteral?
  let place ← expect .semicolon
  let statement : Import := ⟨word.through place, path.1⟩
  match schema.importLocation? (Path.clean path.1) with
  | some first => fail ⟨.duplicateImport path.1 first.span, statement.location.span⟩
  | none => return statement

/-- One round of the imports and what stands between them. -/
def importRound (schema : Schema) : Reader (Schema ⊕ Schema) := do
  let found ← peek
  if isIdle found.token then
    trivia
    return .inl schema
  else if found.token = .importWord then
    bump
    setWaiting Notes.none
    return .inl (schema.push (.importing (← importing schema found.location)))
  else
    return .inr schema

/-- Reads the name of a message or service, which must be new to the schema. -/
def newName (schema : Schema) (expected : Expected) : Reader String := do
  let name ← ident expected
  match schema.declarationLocation? name.1 with
  | some first => fail ⟨.duplicateName name.1 first.span, name.2.span⟩
  | none => return name.1

/-- Reads the name and the body of a message or service behind its first word. -/
def namedBody {α : Type} (schema : Schema) (expected : Expected) (item : Reader α) :
    Reader (String × List α × Location) := do
  setWaiting Notes.none
  let name ← newName schema expected
  let _ ← expect .leftBrace
  let body ← block item
  setWaiting Notes.none
  return (name, body)

/-- Refuses what is neither a message nor a service. A schema without a package clause is not
thought of here. -/
def misplaced {α : Type} (schema : Schema) : Reader α := do
  let found ← peek
  if found.token = .importWord then
    fail ⟨.misplacedImport, found.location.span⟩
  else if found.token = .packageWord then
    match schema.packageLocation? with
    | some first => fail ⟨.duplicatePackage first.span, found.location.span⟩
    | none => throw .astray
  else
    unexpected .declaration

/-- Reads a message or a service that follows the declarations of a schema. -/
def declaration (schema : Schema) : Reader Declaration := do
  let notes ← waiting
  let found ← peek
  if found.token = .messageWord then
    bump
    let (name, members, close) ← namedBody schema .messageName member
    return .message ⟨found.location.through close, name, notes, members⟩
  else if found.token = .serviceWord then
    bump
    let (name, methods, close) ← namedBody schema .serviceName method
    return .service ⟨found.location.through close, name, notes, methods⟩
  else
    misplaced schema

/-- One round of the declarations. -/
def declarationRound (schema : Schema) : Reader (Schema ⊕ Schema) := do
  if (← peek).token = .eof then
    return .inr schema
  else
    return .inl ((← entry (declaration schema)).elim schema schema.push)

/-- Reads a schema. -/
def schema : Reader Schema := do
  loop leadingRound ()
  let clause ← package
  let imported ← loop importRound (Schema.empty.push (.package clause))
  loop declarationRound imported

end Numbered
end InterfaceSchema
