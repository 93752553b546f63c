import InterfaceSchema.Token.Reading

/-!
# Lexemes

A lexeme is a token together with the place at which it stands.

* `scan` cuts a text into its lexemes, or finds the first place at which this fails. The last
  lexeme is the end of the text, and only the last.
* Separators between tokens are dropped; line feeds are kept, since they decide which comments and
  annotations belong to a declaration.
-/

namespace InterfaceSchema

/-- A token and the bytes it is read from. -/
structure Piece where
  token : Token
  span : Span
  deriving DecidableEq

/-- A token and its place. -/
structure Lexeme where
  token : Token
  location : Location
  deriving DecidableEq

/-- The tokens of a text that starts at byte `offset`, with their spans. -/
def pieces (offset : Nat) : List Char → Except Failure (List Piece)
  | [] => .ok [⟨.eof, ⟨offset, offset⟩⟩]
  | c :: rest =>
    if isSeparator c then
      pieces (offset + c.utf8Size) rest
    else
      match Token.read c rest with
      | .error (cause, more) =>
        .error ⟨cause, ⟨offset, offset + byteLength (c :: rest.take more)⟩⟩
      | .ok (token, more) =>
        let stop := offset + byteLength (c :: rest.take more)
        match pieces stop (rest.drop more) with
        | .error failure => .error failure
        | .ok later => .ok (⟨token, ⟨offset, stop⟩⟩ :: later)
termination_by text => text.length
decreasing_by
  · simp
  · simp only [List.length_drop, List.length_cons]
    omega

/-- The lexemes of a text. -/
def scanText (text : List Char) : Except Failure (List Lexeme) :=
  let index := LineIndex.ofText text
  (pieces 0 text).map fun found =>
    found.map fun piece => ⟨piece.token, index.locate piece.span⟩

/-- The lexemes of the text of a named file. -/
def scan (file text : String) : Except ParseError (List Lexeme) :=
  (scanText text.toList).mapError (ParseError.ofFailure file text.toList)

end InterfaceSchema
