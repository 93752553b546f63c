import InterfaceSchema.Grammar.Block
import InterfaceSchema.Grammar.FieldType

/-!
# Reading the body of a service

A method has a name, an argument type between parentheses and a return type after an arrow. Either
type may be left out. The word `stream` directly after the arrow marks a stream of responses and is
never the return type.
-/

namespace InterfaceSchema
namespace Grammar

/-- Reads the argument type of a method and the parenthesis that closes it. -/
def argument : Item String := fun cursor =>
  match cursor.take? .rightParen with
  | some close => .ok (close.map fun _ => voidName)
  | none =>
    match cursor.select? Token.ident? with
    | none => .error (cursor.unexpected .argumentTypeOrClose)
    | some _ => do
      let type ← dottedName cursor .argumentType
      let close ← type.andThen fun after => after.expect .rightParen
      .ok (close.map fun _ => type.value)

/-- What a method returns. -/
structure Result where
  type : String
  isStream : Bool

/-- Reads what a method returns, given what was read of its arrow. -/
def resultType
    {cursor : Cursor}
    (arrow : Advance cursor Location) :
    Except Failure (Advance cursor Result) :=
  match arrow.after.take? .streamWord with
  | some word => do
    let type ← (arrow.followedBy word).andThen fun after => dottedName after .returnType
    .ok (type.map fun name => ⟨name, true⟩)
  | none => do
    let type ← arrow.andThen fun after => dottedName after .returnType
    .ok (type.map fun name => ⟨name, false⟩)

/-- Reads the result of a method and the semicolon that ends it. Returns the result and the place
of the semicolon. -/
def result : Item (Result × Location) := fun cursor =>
  match cursor.take? .semicolon with
  | some close => .ok (close.map fun place => (⟨voidName, false⟩, place))
  | none =>
    match cursor.take? .arrow with
    | none => .error (cursor.unexpected .arrowOrSemicolon)
    | some arrow => do
      let found ← resultType arrow
      let close ← found.andThen fun after => after.expect .semicolon
      .ok (close.map fun place => (found.value, place))

/-- Reads a method. -/
def method : Item Method := fun cursor => do
  let name ← cursor.ident .methodName
  let opening ← name.detach.andThen fun after => after.expect .leftParen
  let argumentType ← opening.andThen argument
  let close ← argumentType.andThen result
  .ok (close.map fun (found, place) =>
    { location := name.value.2.through place
      name := name.value.1
      notes := cursor.pending
      argumentType := argumentType.value
      returnType := found.type
      returnsStream := found.isStream })

end Grammar
end InterfaceSchema
