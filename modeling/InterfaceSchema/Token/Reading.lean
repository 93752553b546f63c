import InterfaceSchema.ParseError
import InterfaceSchema.Text.Blank

/-!
# The first token of a text

`Token.read` takes the first character of a text and the characters after it, and finds the token
that they begin with, as long as possible. Both outcomes say how many of the characters after the
first belong to them, so that a token is never empty:

* `Token.read c rest = .ok (token, n)`: the token spans `c` and the first `n` characters of `rest`.
* `Token.read c rest = .error (cause, n)`: the offending stretch spans the same.
-/

namespace InterfaceSchema

/-- Characters between tokens that carry no meaning. A line feed is a token of its own. -/
def isSeparator (c : Char) : Bool :=
  c = '\t' || c = '\r' || c = ' '

/-- Characters that may open an identifier: the letters of ASCII and the underscore. -/
def isIdentStart (c : Char) : Bool :=
  ('A' ≤ c && c ≤ 'Z') || ('a' ≤ c && c ≤ 'z') || c = '_'

/-- The digits of ASCII. -/
def isDecimal (c : Char) : Bool :=
  '0' ≤ c && c ≤ '9'

/-- Characters that may continue an identifier. -/
def isIdentRest (c : Char) : Bool :=
  isIdentStart c || isDecimal c

/-- Characters that may belong to the name of an annotation. -/
def isAtNameRest (c : Char) : Bool :=
  !(c = '\t' || c = '\n' || c = '\r' || c = ' ' || c = '(')

/-- The number that a run of decimal digits spells. -/
def decimalValue (digits : List Char) : Nat :=
  digits.foldl (fun value c => 10 * value + (c.toNat - 48)) 0

namespace Token

/-- The token of one character that a mark stands for. -/
def ofMark? (c : Char) : Option Token :=
  if c = '(' then some leftParen
  else if c = ')' then some rightParen
  else if c = '<' then some leftAngle
  else if c = '>' then some rightAngle
  else if c = '\x7b' then some leftBrace
  else if c = '\x7d' then some rightBrace
  else if c = ',' then some comma
  else if c = '.' then some dot
  else if c = '=' then some equals
  else if c = ';' then some semicolon
  else if c = '\n' then some newline
  else none

/-- Reads an identifier: as many characters as may belong to it. -/
def readIdent (c : Char) (rest : List Char) : Token × Nat :=
  let more := rest.takeWhile isIdentRest
  (ident (String.ofList (c :: more)), more.length)

/-- Reads a number: as many digits as there are. Its value must fit in 64 bits. -/
def readNumber (c : Char) (rest : List Char) : Except (Cause × Nat) (Token × Nat) :=
  let more := rest.takeWhile isDecimal
  let value := decimalValue (c :: more)
  if value < UInt64.size then .ok (number (UInt64.ofNat value), more.length)
  else .error (.integerOutOfRange, more.length)

/-- Reads a string literal, given the text after its opening quotation mark. -/
def readString (rest : List Char) : Except (Cause × Nat) (Token × Nat) :=
  match Quoted.body? rest with
  | some body => .ok (stringLiteral (String.ofList (Quoted.decode body)), body.length + 1)
  | none => .error (.unterminatedString, (rest.takeWhile (· ≠ '\n')).length)

/-- Reads a comment, given the text after its `#`: all that is left of the line. -/
def readComment (rest : List Char) : Token × Nat :=
  let text := rest.takeWhile (· ≠ '\n')
  (comment (String.ofList (trim text)), text.length)

/-- Reads the name of an annotation, given the text after its `@`. -/
def readAtName (rest : List Char) : Except (Cause × Nat) (Token × Nat) :=
  let name := rest.takeWhile isAtNameRest
  if name = [] then .error (.emptyAnnotationName, 0)
  else .ok (atName (String.ofList name), name.length)

/-- Reads an arrow, given the text after its `-`. -/
def readArrow : List Char → Except (Cause × Nat) (Token × Nat)
  | [] => .error (.brokenArrow none, 0)
  | c :: _ => if c = '>' then .ok (arrow, 1) else .error (.brokenArrow (some c), 1)

/-- Reads the first token of a text that does not begin with a separator. -/
def read (c : Char) (rest : List Char) : Except (Cause × Nat) (Token × Nat) :=
  if isIdentStart c then .ok (readIdent c rest)
  else if isDecimal c then readNumber c rest
  else if c = '"' then readString rest
  else if c = '#' then .ok (readComment rest)
  else if c = '@' then readAtName rest
  else if c = '-' then readArrow rest
  else
    match ofMark? c with
    | some token => .ok (token, 0)
    | none => .error (.unexpectedCharacter c, 0)

end Token

end InterfaceSchema
