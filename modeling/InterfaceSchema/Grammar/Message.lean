import InterfaceSchema.Grammar.Block
import InterfaceSchema.Grammar.FieldType

/-!
# Reading the body of a message

* `Grammar.field` reads a field: a name, a type and an index.
* `Grammar.oneof` reads a group of fields with an index of its own. Groups are not nested.
* `Grammar.member` reads either.

Each takes the notes that wait when it begins. A group also detaches those that wait at its end.
-/

namespace InterfaceSchema
namespace Grammar

/-- Reads the index of a field or group and the semicolon that ends it. Returns the index and the
place of the semicolon. -/
def index : Item (UInt64 × Location) := fun cursor => do
  let equals ← cursor.expect .equals
  let number ← equals.andThen fun after => after.select .integer Token.number?
  let close ← number.andThen fun after => after.expect .semicolon
  .ok (close.map fun place => (number.value.1, place))

/-- Reads a field. -/
def field : Item Field := fun cursor => do
  let name ← cursor.ident .fieldName
  let type ← name.detach.andThen fieldType
  let close ← type.andThen index
  .ok (close.map fun (number, place) =>
    { location := name.value.2.through place
      name := name.value.1
      type := type.value
      index := number
      notes := cursor.pending })

/-- Reads an entry of a group, where no other group may begin. -/
def oneofField : Item Field := fun cursor =>
  match cursor.take? .oneofWord with
  | some word => .error ⟨.nestedOneof, word.value.span⟩
  | none => field cursor

/-- Reads a group, given the notes before it and its first word. -/
def oneof
    {cursor : Cursor}
    (notes : Notes)
    (word : Advance cursor Location) :
    Except Failure (Advance cursor Oneof) := do
  let opening ← word.detach.andThen fun after => after.expect .leftBrace
  let fields ← opening.andThen (block oneofField)
  let close ← fields.andThen index
  .ok (close.detach.map fun (number, place) =>
    { location := word.value.through place
      index := number
      fields := fields.value.1
      notes := notes })

/-- Reads an entry in the body of a message. -/
def member : Item Member := fun cursor =>
  match cursor.take? .oneofWord with
  | some word => do
    let group ← oneof cursor.pending word
    .ok (group.map .oneof)
  | none => do
    let single ← field cursor
    .ok (single.map .field)

end Grammar
end InterfaceSchema
