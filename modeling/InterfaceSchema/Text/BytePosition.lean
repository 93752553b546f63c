import InterfaceSchema.Text.Position

/-!
# Positions counted in bytes

Reports on a set of files count positions in another way than reports on one text: a line ends at a
line feed, at a carriage return, or at the two together, and a column counts the bytes before it.

* `bytePosition` is the position of a byte offset counted this way.
-/

namespace InterfaceSchema

/-- The position `bytes` further on in a text that starts at `position`. A carriage return that is
followed by a line feed leaves it to the line feed to end the line. -/
def bytePositionFrom (position : Position) (bytes : Nat) : List Char → Position
  | [] => position
  | c :: rest =>
    if bytes < c.utf8Size then position
    else if c = '\r' ∧ rest.head? = some '\n' then
      bytePositionFrom position (bytes - c.utf8Size) rest
    else if c = '\n' ∨ c = '\r' then
      bytePositionFrom ⟨position.line + 1, 1⟩ (bytes - c.utf8Size) rest
    else
      bytePositionFrom ⟨position.line, position.column + c.utf8Size⟩ (bytes - c.utf8Size) rest

/-- The position of a byte offset in a text. -/
def bytePosition (text : List Char) (offset : Nat) : Position :=
  bytePositionFrom Position.start offset text

end InterfaceSchema
