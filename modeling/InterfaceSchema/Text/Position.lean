/-!
# Positions in a text

A place in a text is named in two ways: by the number of bytes before it, counted in UTF-8, and by
a line and a column.

* `byteLength`: the number of bytes that a run of characters takes.
* `Position`: line and column, both counted from one; a column counts characters.
* `Position.after`: the position just past a text, found by counting from its start.
* `Span`, `Location`: a stretch of a text, by its byte offsets alone or with both positions.
-/

namespace InterfaceSchema

/-- The number of bytes that a run of characters takes in UTF-8. -/
def byteLength : List Char → Nat
  | [] => 0
  | c :: rest => c.utf8Size + byteLength rest

@[simp]
theorem byteLength_nil : byteLength [] = 0 :=
  rfl

@[simp]
theorem byteLength_cons (c : Char) (rest : List Char) :
    byteLength (c :: rest) = c.utf8Size + byteLength rest :=
  rfl

@[simp]
theorem byteLength_append (first second : List Char) :
    byteLength (first ++ second) = byteLength first + byteLength second := by
  induction first with
  | nil => simp
  | cons c rest ih => simp [ih, Nat.add_assoc]

/-- A line and a column, both counted from one. -/
structure Position where
  line : Nat
  column : Nat
  deriving DecidableEq

namespace Position

/-- The first position of every text. -/
def start : Position :=
  ⟨1, 1⟩

/-- The position after one more character: a line feed opens the next line. -/
def advance (position : Position) (c : Char) : Position :=
  if c = '\n' then ⟨position.line + 1, 1⟩ else ⟨position.line, position.column + 1⟩

/-- The position just past a text. -/
def after (text : List Char) : Position :=
  text.foldl advance start

@[simp]
theorem after_nil : after [] = start :=
  rfl

@[simp]
theorem after_append_singleton (text : List Char) (c : Char) :
    after (text ++ [c]) = (after text).advance c := by
  simp [after]

/-- A position as it is written in messages. -/
def display (position : Position) : String :=
  toString position.line ++ ":" ++ toString position.column

end Position

/-- A stretch of a text by byte offsets; the end is not part of it. -/
structure Span where
  start : Nat
  stop : Nat
  deriving DecidableEq

/-- A stretch of a text with the positions of its first character and of the one after its last. -/
structure Location where
  start : Position
  stop : Position
  span : Span
  deriving DecidableEq

namespace Location

/-- The stretch from the start of `first` to the end of `last`. -/
def through (first last : Location) : Location where
  start := first.start
  stop := last.stop
  span := ⟨first.span.start, last.span.stop⟩

end Location

end InterfaceSchema
