import InterfaceSchema.Grammar.Message
import InterfaceSchema.Grammar.Service
import InterfaceSchema.Schema.Basic

/-!
# Reading a schema

A schema text consists of a package clause, imports, and then messages and services.

* `Schema.ofLexemes` reads the lexemes of a whole text and stops at the first failure.
* `Schema.parse` does so for the text of a named file.

What stands before the package clause is dropped. Notes that wait are detached at each import and
at the end of each message and service, so that none reaches a declaration it does not stand before.
-/

namespace InterfaceSchema
namespace Grammar

/-- Goes past line feeds and comments without keeping any. -/
def skipTrivia (cursor : Cursor) : Cursor :=
  match cursor.trivia? with
  | some passed => skipTrivia passed.detach.after
  | none => cursor
termination_by cursor.ahead.length
decreasing_by
  exact passed.shorter

/-- Reads the package clause. -/
def package : Item Package := fun cursor => do
  let word ← cursor.expect .packageWord
  let name ← word.andThen fun after => dottedName after .packageName
  let close ← name.andThen fun after => after.expect .semicolon
  .ok (close.map fun place => ⟨word.value.through place, name.value⟩)

/-- Reads an import, given what was read of its first word. It must not repeat one that the schema
has: two paths with the same clean form are the same import. -/
def importing
    {cursor : Cursor}
    (schema : Schema)
    (word : Advance cursor Location) :
    Except Failure (Advance cursor Import) := do
  let path ← word.andThen fun after => after.select .importPath Token.stringLiteral?
  let close ← path.andThen fun after => after.expect .semicolon
  let statement : Import := ⟨word.value.through close.value, path.value.1⟩
  match schema.importLocation? (Path.clean statement.path) with
  | some first => .error ⟨.duplicateImport statement.path first.span, statement.location.span⟩
  | none => .ok (close.map fun _ => statement)

/-- Reads the imports and what stands between them. -/
def imports (schema : Schema) (cursor : Cursor) : Except Failure (Schema × Cursor) :=
  match cursor.trivia? with
  | some passed => imports schema passed.after
  | none =>
    match cursor.take? .importWord with
    | none => .ok (schema, cursor)
    | some word => do
      let statement ← importing schema word.detach
      imports (schema.push (.importing statement.value)) statement.after
termination_by cursor.ahead.length
decreasing_by
  · exact passed.shorter
  · exact statement.shorter

/-- Reads the name of a message or service, which must be new to the schema. -/
def newName (schema : Schema) (expected : Expected) : Item String := fun cursor => do
  let name ← cursor.ident expected
  match schema.declarationLocation? name.value.1 with
  | some first => .error ⟨.duplicateName name.value.1 first.span, name.value.2.span⟩
  | none => .ok (name.map Prod.fst)

/-- Reads a message, given the notes before it and its first word. -/
def message
    {cursor : Cursor}
    (schema : Schema)
    (notes : Notes)
    (word : Advance cursor Location) :
    Except Failure (Advance cursor Message) := do
  let name ← word.detach.andThen (newName schema .messageName)
  let opening ← name.andThen fun after => after.expect .leftBrace
  let body ← opening.andThen (block member)
  .ok (body.detach.map fun (members, close) =>
    { location := word.value.through close
      name := name.value
      notes := notes
      members := members })

/-- Reads a service, given the notes before it and its first word. -/
def service
    {cursor : Cursor}
    (schema : Schema)
    (notes : Notes)
    (word : Advance cursor Location) :
    Except Failure (Advance cursor Service) := do
  let name ← word.detach.andThen (newName schema .serviceName)
  let opening ← name.andThen fun after => after.expect .leftBrace
  let body ← opening.andThen (block method)
  .ok (body.detach.map fun (methods, close) =>
    { location := word.value.through close
      name := name.value
      notes := notes
      methods := methods })

/-- The failure at something that is neither a message nor a service. An import or a package clause
is told apart, since it is only out of place. -/
def misplaced (schema : Schema) (cursor : Cursor) : Failure :=
  let span := cursor.peek.location.span
  if cursor.peek.token = .importWord then ⟨.misplacedImport, span⟩
  else if cursor.peek.token = .packageWord then
    match schema.packageLocation? with
    | some first => ⟨.duplicatePackage first.span, span⟩
    | none => cursor.unexpected .declaration
  else cursor.unexpected .declaration

/-- Reads a message or a service that follows the declarations of a schema. -/
def declaration (schema : Schema) : Item Declaration := fun cursor =>
  match cursor.take? .messageWord with
  | some word => do
    let declared ← message schema cursor.pending word
    .ok (declared.map .message)
  | none =>
    match cursor.take? .serviceWord with
    | some word => do
      let declared ← service schema cursor.pending word
      .ok (declared.map .service)
    | none => .error (misplaced schema cursor)

/-- Reads declarations up to the end of the text. -/
def declarations (schema : Schema) (cursor : Cursor) : Except Failure Schema :=
  if cursor.peek.token = .eof then .ok schema
  else do
    let found ← entry (declaration schema) cursor
    declarations (found.value.elim schema schema.push) found.after
termination_by cursor.ahead.length
decreasing_by
  exact found.shorter

end Grammar

namespace Schema

/-- Reads a schema from its lexemes. `eof` is the place where the text ends. -/
def ofLexemes (eof : Location) (lexemes : List Lexeme) : Except Failure Schema := do
  let start := Grammar.skipTrivia (Cursor.start eof lexemes)
  let clause ← Grammar.package start
  let (schema, rest) ← Grammar.imports (empty.push (.package clause.value)) clause.after
  Grammar.declarations schema rest

/-- Reads a schema from a text. -/
def ofText (text : List Char) : Except Failure Schema := do
  let lexemes ← scanText text
  let stop := byteLength text
  ofLexemes ((LineIndex.ofText text).locate ⟨stop, stop⟩) lexemes

/-- Reads the schema in the text of a named file. -/
def parse (file text : String) : Except ParseError Schema :=
  (ofText text.toList).mapError (ParseError.ofFailure file text.toList)

end Schema

end InterfaceSchema
