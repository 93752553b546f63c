import InterfaceSchema.Lexeme
import InterfaceSchema.Schema.Node

/-!
# Reading lexemes

A `Cursor` stands between two lexemes of a schema text. It knows the token before it, the lexemes
ahead, and the notes that wait for the next declaration, field or method.

A function that reads something returns an `Advance`: the thing read, and a cursor that is further
on than the one before. The loops of the grammar end because every round is such an advance.

* `Cursor.next?`, `Cursor.take?`, `Cursor.expect` and `Cursor.ident` read single lexemes.
* `Cursor.trivia?` reads a line feed or a comment, and keeps or detaches notes.
-/

namespace InterfaceSchema

/-- A place between two lexemes. When no lexeme is left, the end of the text at `eof` is ahead. -/
structure Cursor where
  previous : Option Token
  ahead : List Lexeme
  eof : Location
  pending : Notes

/-- Something read from `cursor`, and the cursor behind it. -/
structure Advance (cursor : Cursor) (α : Type) where
  value : α
  after : Cursor
  shorter : after.ahead.length < cursor.ahead.length

namespace Advance

variable {cursor : Cursor} {α β : Type}

/-- The same advance with another value. -/
def map (f : α → β) (advance : Advance cursor α) : Advance cursor β :=
  ⟨f advance.value, advance.after, advance.shorter⟩

/-- An advance and one from where it ends, taken together. -/
def followedBy (first : Advance cursor α) (second : Advance first.after β) : Advance cursor β :=
  ⟨second.value, second.after, Nat.lt_trans second.shorter first.shorter⟩

/-- The same advance, with other notes waiting where it ends. -/
def withPending (advance : Advance cursor α) (notes : Notes) : Advance cursor α :=
  ⟨advance.value, { advance.after with pending := notes }, advance.shorter⟩

/-- The same advance, with no notes waiting where it ends. -/
def detach (advance : Advance cursor α) : Advance cursor α :=
  advance.withPending Notes.none

/-- Reads on from where an advance ends. -/
def andThen
    (first : Advance cursor α)
    (read : (after : Cursor) → Except Failure (Advance after β)) :
    Except Failure (Advance cursor β) :=
  (read first.after).map first.followedBy

theorem andThen_eq_ok_iff
    {first : Advance cursor α}
    {read : (after : Cursor) → Except Failure (Advance after β)}
    {result : Advance cursor β} :
    first.andThen read = .ok result ↔
      ∃ second, read first.after = .ok second ∧ result = first.followedBy second := by
  unfold andThen
  cases read first.after <;> simp [Except.map, eq_comm]

end Advance

namespace Cursor

/-- The cursor before the first of the lexemes. -/
def start (eof : Location) (lexemes : List Lexeme) : Cursor where
  previous := none
  ahead := lexemes
  eof := eof
  pending := Notes.none

/-- The lexeme ahead. -/
def peek (cursor : Cursor) : Lexeme :=
  cursor.ahead.head?.getD ⟨.eof, cursor.eof⟩

/-- Whether a comment here would stand on a line of its own: nothing or a line feed is before the
cursor. -/
def atLineStart (cursor : Cursor) : Bool :=
  match cursor.previous with
  | none => true
  | some token => token = .newline

/-- The failure to find what the grammar asks for. -/
def unexpected (cursor : Cursor) (expected : Expected) : Failure :=
  let found := cursor.peek
  match found.token with
  | .eof => ⟨.unexpectedEnd expected, found.location.span⟩
  | token => ⟨.unexpectedToken expected token, found.location.span⟩

/-- Reads the lexeme ahead, if there is one. -/
def next? : (cursor : Cursor) → Option (Advance cursor Lexeme)
  | ⟨_, [], _, _⟩ => none
  | ⟨_, lexeme :: rest, eof, pending⟩ =>
    some ⟨lexeme, ⟨some lexeme.token, rest, eof, pending⟩, Nat.lt_succ_self _⟩

/-- Reads the lexeme ahead if `select` picks something from its token. -/
def select?
    (cursor : Cursor)
    {α : Type}
    (select : Token → Option α) :
    Option (Advance cursor (α × Location)) :=
  match cursor.next? with
  | none => none
  | some next =>
    (select next.value.token).map fun value => next.map fun lexeme => (value, lexeme.location)

/-- Reads the given token, if it is ahead. -/
def take? (cursor : Cursor) (token : Token) : Option (Advance cursor Location) :=
  match cursor.next? with
  | none => none
  | some next => if next.value.token = token then some (next.map Lexeme.location) else none

/-- Reads what `select` picks from the token ahead, which must be something. -/
def select
    (cursor : Cursor)
    {α : Type}
    (expected : Expected)
    (select : Token → Option α) :
    Except Failure (Advance cursor (α × Location)) :=
  match cursor.select? select with
  | some advance => .ok advance
  | none => .error (cursor.unexpected expected)

/-- Reads an identifier. -/
def ident (cursor : Cursor) (expected : Expected) :
    Except Failure (Advance cursor (String × Location)) :=
  cursor.select expected Token.ident?

/-- Reads the given token, which must be ahead. -/
def expect (cursor : Cursor) (token : Token) : Except Failure (Advance cursor Location) :=
  match cursor.take? token with
  | some advance => .ok advance
  | none => .error (cursor.unexpected (.exactly token))

/-- Reads a line feed or a comment. An empty line detaches the notes collected so far; a comment
joins them if it stands on a line of its own. -/
def trivia? (cursor : Cursor) : Option (Advance cursor Unit) :=
  match cursor.next? with
  | none => none
  | some next =>
    match next.value.token with
    | .newline =>
      let pending := if cursor.atLineStart then Notes.none else cursor.pending
      some ((next.map fun _ => ()).withPending pending)
    | .comment text =>
      let comments := cursor.pending.comments ++ if cursor.atLineStart then [text] else []
      some ((next.map fun _ => ()).withPending { cursor.pending with comments := comments })
    | _ => none

theorem expect_eq_ok_iff
    {cursor : Cursor}
    {token : Token}
    {advance : Advance cursor Location} :
    cursor.expect token = .ok advance ↔ cursor.take? token = some advance := by
  unfold expect
  split <;> simp [*]

end Cursor

end InterfaceSchema
