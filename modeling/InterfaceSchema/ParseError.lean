import InterfaceSchema.FieldType
import InterfaceSchema.Text.Escape
import InterfaceSchema.Text.LineIndex
import InterfaceSchema.Token

/-!
# Errors in a schema text

* `Expected`: what the grammar asks for at a place.
* `Cause`: what is wrong, without the wording; `Cause.message`, `Cause.labels` and `Cause.help?`
  hold the wording.
* `Failure`: a cause and the stretch of text it was found at.
* `ParseError`: a failure in a named file, with the position of its first character.
-/

namespace InterfaceSchema

/-- What the grammar asks for at a place in a schema. -/
inductive Expected
  | exactly (token : Token)
  | packageName
  | identifier
  | importPath
  | declaration
  | messageName
  | serviceName
  | fieldName
  | fieldType
  | mapKey
  | integer
  | methodName
  | argumentType
  | argumentTypeOrClose
  | returnType
  | arrowOrSemicolon
  deriving DecidableEq

/-- The words for what is asked for. -/
def Expected.describe : Expected → String
  | exactly token => "'" ++ token.display ++ "'"
  | packageName => "a package name"
  | identifier => "an identifier"
  | importPath => "a string literal"
  | declaration => "'message' or 'service'"
  | messageName => "a message name"
  | serviceName => "a service name"
  | fieldName => "a field name"
  | fieldType => "a type"
  | mapKey => "a map key type"
  | integer => "an integer"
  | methodName => "a method name"
  | argumentType => "an argument type"
  | argumentTypeOrClose => "an argument type or ')'"
  | returnType => "a return type"
  | arrowOrSemicolon => "'->' or ';'"

/-- What is wrong with a schema text. The first five arise while a text is cut into tokens, the
others while its tokens are read. A repetition remembers the span of what it repeats. -/
inductive Cause
  | unexpectedCharacter (found : Char)
  | brokenArrow (found : Option Char)
  | unterminatedString
  | emptyAnnotationName
  | integerOutOfRange
  | unexpectedToken (expected : Expected) (found : Token)
  | unexpectedEnd (expected : Expected)
  | duplicatePackage (first : Span)
  | misplacedImport
  | duplicateImport (path : String) (first : Span)
  | duplicateName (name : String) (first : Span)
  | invalidMapKey
  | nestedOneof
  | emptyAnnotationValue
  deriving DecidableEq

/-- A stretch of text with a remark. -/
structure Label where
  text : String
  span : Span
  deriving DecidableEq

namespace Cause

/-- Whether the text could not be cut into tokens. -/
def isLexical : Cause → Bool
  | unexpectedCharacter _ => true
  | brokenArrow _ => true
  | unterminatedString => true
  | emptyAnnotationName => true
  | integerOutOfRange => true
  | _ => false

/-- The one-line wording. -/
def message : Cause → String
  | unexpectedCharacter found => "unexpected character '" ++ escapeCharacter found ++ "'"
  | brokenArrow (some found) => "unexpected '" ++ escapeCharacter found ++ "', expected '>'"
  | brokenArrow none => "expected '>' after '-'"
  | unterminatedString => "unterminated string"
  | emptyAnnotationName => "expected an annotation name"
  | integerOutOfRange => "integer is too large"
  | unexpectedToken expected found =>
    "expected " ++ expected.describe ++ ", but found '" ++ found.display ++ "'"
  | unexpectedEnd expected => "expected " ++ expected.describe ++ ", but reached end of file"
  | duplicatePackage _ => "multiple package names specified"
  | misplacedImport => "imports are only allowed at the beginning of the file"
  | duplicateImport path _ => "'" ++ path ++ "' is imported more than once"
  | duplicateName name _ => name ++ " is already defined"
  | invalidMapKey =>
    "invalid type for map key, expected one of " ++ String.intercalate ", " Primitive.mapKeyNames
  | nestedOneof => "oneof field is not allowed at this point"
  | emptyAnnotationValue => "expected an annotation value"

/-- Advice on how to mend the text. -/
def help? : Cause → Option String
  | emptyAnnotationName => some "annotations are written as '@name' or '@name(value, ...)'"
  | misplacedImport => some "move this import directly after the package declaration"
  | nestedOneof => some "oneof groups may not be nested"
  | _ => none

/-- The remarks on a text in which the cause was found at `span`. Repetitions point at what they
repeat first. -/
def labels (span : Span) : Cause → List Label
  | unterminatedString => [⟨"string starts here", span⟩]
  | integerOutOfRange => [⟨"integer defined here", span⟩]
  | unexpectedEnd _ => [⟨"file ends here", span⟩]
  | duplicatePackage first => [⟨"defined here…", first⟩, ⟨"…and again here", span⟩]
  | duplicateImport _ first => [⟨"first imported here…", first⟩, ⟨"…and again here", span⟩]
  | duplicateName _ first => [⟨"first defined here…", first⟩, ⟨"…and again here", span⟩]
  | _ => [⟨"found here", span⟩]

end Cause

/-- A cause and the stretch of text at which it was found. -/
structure Failure where
  cause : Cause
  span : Span
  deriving DecidableEq

/-- An error in the text of a named file. -/
structure ParseError where
  file : String
  cause : Cause
  span : Span
  position : Position
  deriving DecidableEq

namespace ParseError

/-- Places a failure in the file whose text it was found in. -/
def ofFailure (file : String) (text : List Char) (failure : Failure) : ParseError where
  file := file
  cause := failure.cause
  span := failure.span
  position := (LineIndex.ofText text).resolve failure.span.start

/-- Whether the text could not be cut into tokens. -/
def isLexical (error : ParseError) : Bool :=
  error.cause.isLexical

/-- The one-line wording. -/
def message (error : ParseError) : String :=
  error.cause.message

/-- The wording with file and position in front. -/
def describe (error : ParseError) : String :=
  error.file ++ ":" ++ error.position.display ++ ": " ++ error.message

/-- Advice on how to mend the text. -/
def help? (error : ParseError) : Option String :=
  error.cause.help?

/-- The remarks on the text. -/
def labels (error : ParseError) : List Label :=
  error.cause.labels error.span

end ParseError

end InterfaceSchema
