import InterfaceSchema.Grammar.Annotations

/-!
# Reading blocks

Between the items of a schema, and of the body of a message, a service or a oneof group, there may
be line feeds, comments and annotations.

* `Grammar.entry` reads one of these, or an item.
* `Grammar.block` reads the items of a body up to its closing brace.
-/

namespace InterfaceSchema
namespace Grammar

/-- A way to read items of one kind. -/
abbrev Item (α : Type) :=
  (cursor : Cursor) → Except Failure (Advance cursor α)

variable {α : Type}

/-- Reads a line feed, a comment, an annotation or an item, and returns the item if it is one. -/
def entry (item : Item α) (cursor : Cursor) : Except Failure (Advance cursor (Option α)) :=
  match cursor.trivia? with
  | some passed => .ok (passed.map fun _ => none)
  | none =>
    match cursor.select? Token.atName? with
    | some name => do
      let passed ← annotationRest name
      .ok (passed.map fun _ => none)
    | none => do
      let found ← item cursor
      .ok (found.map some)

/-- Reads items up to the closing brace. Returns them and the place of the brace. -/
def block (item : Item α) (cursor : Cursor) :
    Except Failure (Advance cursor (List α × Location)) :=
  match cursor.take? .rightBrace with
  | some close => .ok (close.map fun place => ([], place))
  | none => do
    let found ← entry item cursor
    let later ← block item found.after
    .ok ((found.followedBy later).map fun (items, close) => (found.value.toList ++ items, close))
termination_by cursor.ahead.length
decreasing_by
  exact found.shorter

end Grammar
end InterfaceSchema
