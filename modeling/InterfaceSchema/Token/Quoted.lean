/-!
# The text between quotation marks

Inside a string literal a quotation mark directly after a backslash does not end the literal, and
stands for a quotation mark. A backslash before any other character stands for itself.

* `Quoted.encode` and `Quoted.decode` go from a text to the way it is written and back.
* `Quoted.body?` finds the end of a literal.
-/

namespace InterfaceSchema
namespace Quoted

/-- The written form of a text: a backslash before each quotation mark. -/
def encode : List Char → List Char
  | [] => []
  | c :: rest => if c = '"' then '\\' :: c :: encode rest else c :: encode rest

/-- The text that a written form denotes: a backslash directly before a quotation mark is left
out. -/
def decode : List Char → List Char
  | [] => []
  | '\\' :: '"' :: rest => '"' :: decode rest
  | c :: rest => c :: decode rest

/-- The characters up to the quotation mark that ends the literal, or nothing if the line ends
first. `escaped` tells whether a backslash stands directly before the text. -/
def bodyAfter? (escaped : Bool) : List Char → Option (List Char)
  | [] => none
  | c :: rest =>
    if c = '\n' then none
    else if c = '"' ∧ escaped = false then some []
    else (bodyAfter? (c == '\\') rest).map (c :: ·)

/-- The characters of a literal, given the text after its opening quotation mark. -/
def body? (text : List Char) : Option (List Char) :=
  bodyAfter? false text

theorem decode_cons
    {c : Char}
    {rest : List Char}
    (plain : rest.head? ≠ some '"') :
    decode (c :: rest) = c :: decode rest := by
  rw [decode]
  rintro later rfl rfl
  simp at plain

theorem head?_encode (text : List Char) : (encode text).head? ≠ some '"' := by
  cases text with
  | nil => simp [encode]
  | cons c rest => by_cases h : c = '"' <;> simp [encode, h]

/-- Reading back the written form of a text gives the text. -/
@[simp]
theorem decode_encode (text : List Char) : decode (encode text) = text := by
  induction text with
  | nil => rfl
  | cons c rest ih =>
    by_cases h : c = '"'
    · subst h
      simp [encode, decode, ih]
    · rw [encode, if_neg h, decode_cons (head?_encode rest), ih]

end Quoted
end InterfaceSchema
