import InterfaceSchema.Token.Quoted

/-!
# Tokens

The words and marks that a schema text consists of, and their written forms.

* `Token.display` is the form used in messages.
* `Token.value` is the form used in annotation values: names and string literals stand for
  themselves, without quotation marks.
-/

namespace InterfaceSchema

/-- A word or mark of a schema text. Comments hold their text without the blanks around it,
names of annotations come without the `@`, and string literals the text they denote. -/
inductive Token
  | ident (name : String)
  | number (value : UInt64)
  | stringLiteral (value : String)
  | comment (text : String)
  | atName (name : String)
  | arrow
  | leftParen
  | rightParen
  | leftAngle
  | rightAngle
  | leftBrace
  | rightBrace
  | comma
  | dot
  | equals
  | semicolon
  | newline
  | eof
  deriving DecidableEq

namespace Token

/-- A token as it is shown in messages. -/
def display : Token → String
  | ident name => name
  | number value => toString value.toNat
  | stringLiteral value => "\"" ++ String.ofList (Quoted.encode value.toList) ++ "\""
  | comment text => "# " ++ text
  | atName name => "@" ++ name
  | arrow => "->"
  | leftParen => "("
  | rightParen => ")"
  | leftAngle => "<"
  | rightAngle => ">"
  | leftBrace => "\x7b"
  | rightBrace => "\x7d"
  | comma => ","
  | dot => "."
  | equals => "="
  | semicolon => ";"
  | newline => "\\n"
  | eof => "end of file"

/-- A token as part of an annotation value. -/
def value : Token → String
  | ident name => name
  | stringLiteral text => text
  | token => token.display

/-- The name that an identifier spells. -/
def ident? : Token → Option String
  | ident name => some name
  | _ => none

/-- The text that a string literal denotes. -/
def stringLiteral? : Token → Option String
  | stringLiteral text => some text
  | _ => none

/-- The name of an annotation. -/
def atName? : Token → Option String
  | atName name => some name
  | _ => none

/-- The value of a number. -/
def number? : Token → Option UInt64
  | number value => some value
  | _ => none

/-! The words with a meaning of their own. They are identifiers and may also be used as names. -/

/-- The word that opens the package clause. -/
def packageWord : Token :=
  ident "package"

/-- The word that opens an import. -/
def importWord : Token :=
  ident "import"

/-- The word that opens a message. -/
def messageWord : Token :=
  ident "message"

/-- The word that opens a service. -/
def serviceWord : Token :=
  ident "service"

/-- The word that opens a oneof group. -/
def oneofWord : Token :=
  ident "oneof"

/-- The word that marks a stream of responses. -/
def streamWord : Token :=
  ident "stream"

/-- The word that opens an array type. -/
def arrayWord : Token :=
  ident "array"

/-- The word that opens a map type. -/
def mapWord : Token :=
  ident "map"

end Token

end InterfaceSchema
