import InterfaceSchema.Grammar.Cursor

/-!
# Reading names and types

* `Grammar.dottedName` reads identifiers joined by dots.
* `Grammar.fieldType` reads the type of a field. The names of built-in types, `array` and `map`
  have their own meaning at the start of a type; any other name is a reference.
-/

namespace InterfaceSchema
namespace Grammar

/-- Reads the parts that follow the first parts of a dotted name. -/
def dottedRest
    {cursor : Cursor}
    (name : Advance cursor String) :
    Except Failure (Advance cursor String) :=
  match name.after.take? .dot with
  | none => .ok name
  | some dot => do
    let part ← dot.after.ident .identifier
    dottedRest ((name.followedBy (dot.followedBy part)).map fun (text, _) =>
      name.value ++ "." ++ text)
termination_by name.after.ahead.length
decreasing_by
  exact Nat.lt_trans part.shorter dot.shorter

/-- Reads a dotted name. -/
def dottedName
    (cursor : Cursor)
    (expected : Expected) :
    Except Failure (Advance cursor String) := do
  let first ← cursor.ident expected
  dottedRest (first.map Prod.fst)

/-- Reads the type of the keys of a map. -/
def mapKey (cursor : Cursor) : Except Failure (Advance cursor Primitive) := do
  let name ← cursor.ident .mapKey
  match (Primitive.ofName? name.value.1).filter Primitive.isMapKey with
  | some key => .ok (name.map fun _ => key)
  | none => .error ⟨.invalidMapKey, name.value.2.span⟩

/-- Reads a type. -/
def fieldType (cursor : Cursor) : Except Failure (Advance cursor FieldType) := do
  let name ← cursor.ident .fieldType
  match Primitive.ofName? name.value.1 with
  | some primitive => .ok (name.map fun _ => .primitive primitive)
  | none =>
    if Token.ident name.value.1 = Token.arrayWord then
      let opening ← name.andThen fun after => after.expect .leftAngle
      let element ← fieldType opening.after
      let close ← (opening.followedBy element).andThen fun after => after.expect .rightAngle
      .ok (close.map fun _ => .array element.value)
    else if Token.ident name.value.1 = Token.mapWord then
      let opening ← name.andThen fun after => after.expect .leftAngle
      let key ← opening.andThen mapKey
      let comma ← key.andThen fun after => after.expect .comma
      let value ← fieldType comma.after
      let close ← (comma.followedBy value).andThen fun after => after.expect .rightAngle
      .ok (close.map fun _ => .map key.value value.value)
    else
      let reference ← dottedRest (name.map Prod.fst)
      .ok (reference.map .reference)
termination_by cursor.ahead.length
decreasing_by
  · exact opening.shorter
  · exact comma.shorter

end Grammar
end InterfaceSchema
