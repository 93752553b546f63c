import InterfaceSchema.Grammar.Cursor

/-!
# Reading annotations

An annotation is a name, and possibly a list of values between parentheses on the same line. Commas
separate the values; a value is any run of other tokens, put together with single spaces. A comma
may follow the last value, but no value may be left out before a comma.
-/

namespace InterfaceSchema
namespace Grammar

/-- The value that consists of the given words, or nothing for no words. -/
def joinWords (words : List String) : List String :=
  if words = [] then [] else [String.intercalate " " words]

/-- Reads values up to the closing parenthesis, given the words of the value that has been begun.
Returns the values and the place of the parenthesis. -/
def annotationValues
    (cursor : Cursor)
    (words : List String) :
    Except Failure (Advance cursor (List String × Location)) :=
  match cursor.next? with
  | none => .error (cursor.unexpected (.exactly .rightParen))
  | some next =>
    match next.value.token with
    | .rightParen => .ok (next.map fun close => (joinWords words, close.location))
    | .newline => .error (cursor.unexpected (.exactly .rightParen))
    | .eof => .error (cursor.unexpected (.exactly .rightParen))
    | .comma =>
      if words = [] then .error ⟨.emptyAnnotationValue, next.value.location.span⟩
      else do
        let later ← annotationValues next.after []
        .ok ((next.followedBy later).map fun (values, close) =>
          (joinWords words ++ values, close))
    | token => do
      let found ← annotationValues next.after (words ++ [token.value])
      .ok (next.followedBy found)
termination_by cursor.ahead.length
decreasing_by
  all_goals exact next.shorter

/-- Reads what may follow the name of an annotation, which has been read just now, and leaves the
annotation with the waiting notes. -/
def annotationRest
    {cursor : Cursor}
    (name : Advance cursor (String × Location)) :
    Except Failure (Advance cursor Unit) :=
  let (text, start) := name.value
  let keep {α : Type} (read : Advance cursor α) (values : List String) (close : Location) :
      Advance cursor Unit :=
    let waiting := read.after.pending
    let mark : AnnotationMark := ⟨start.through close, text, values⟩
    (read.map fun _ => ()).withPending
      { waiting with annotations := waiting.annotations ++ [mark] }
  match name.after.take? .leftParen with
  | none => .ok (keep name [] start)
  | some opening => do
    let found ← (name.followedBy opening).andThen fun after => annotationValues after []
    .ok (keep found found.value.1 found.value.2)

end Grammar
end InterfaceSchema
