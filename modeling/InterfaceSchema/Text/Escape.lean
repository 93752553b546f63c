import InterfaceSchema.Text.GraphemeExtend
import InterfaceSchema.Text.Unprintable

/-!
# Text made visible

Messages quote characters and texts that may hold controls, combining marks or quotation marks.

* `isInvisible`: the characters that are written by number because they could not be read.
* `escapeCharacter` writes one character so that it can stand inside a message.
* `quote` writes a whole text between quotation marks.
-/

namespace InterfaceSchema

/-- The digits of a number in base sixteen, in lower case and without leading zeros. -/
def hexDigits (n : Nat) : String :=
  String.ofList (Nat.toDigits 16 n)

/-- A character by its number. -/
def escapeByNumber (c : Char) : String :=
  "\\u\x7b" ++ hexDigits c.toNat ++ "\x7d"

/-- The two-character form of the characters that have one. -/
def shortEscape? (c : Char) : Option String :=
  if c = Char.ofNat 0 then some "\\0"
  else if c = '\t' then some "\\t"
  else if c = '\n' then some "\\n"
  else if c = '\r' then some "\\r"
  else if c = '\\' then some "\\\\"
  else if c = '"' then some "\\\""
  else none

/-- The halfwidth voicing marks of katakana: letters that have the property Grapheme_Extend but do
not combine, so that they can be read alone. -/
def isHalfwidthVoicingMark (c : Char) : Bool :=
  0xFF9E ≤ c.toNat && c.toNat ≤ 0xFF9F

/-- The fillers of Hangul: letters that stand for a missing one and show nothing. -/
def isHangulFiller (c : Char) : Bool :=
  [0x115F, 0x1160, 0x3164, 0xFFA0].contains c.toNat

/-- Whether a character alone would not be seen, or would join what stands before it. -/
def isInvisible (c : Char) : Bool :=
  isUnprintable c || isHangulFiller c || (isGraphemeExtend c && !isHalfwidthVoicingMark c)

/-- A character that is seen alone stands for itself; the others are written by number. -/
def escapeInvisible (c : Char) : String :=
  if isInvisible c then escapeByNumber c else String.singleton c

/-- A character as it is shown between quotation marks. -/
def escapeQuoted (c : Char) : String :=
  (shortEscape? c).getD (escapeInvisible c)

/-- A character as it is shown between apostrophes in a message: an apostrophe is escaped too. -/
def escapeCharacter (c : Char) : String :=
  if c = Char.ofNat 39 then "\\" ++ String.singleton c else escapeQuoted c

/-- A text between quotation marks, with whatever would not be seen or would end it escaped. -/
def quote (text : String) : String :=
  "\"" ++ String.join (text.toList.map escapeQuoted) ++ "\""

end InterfaceSchema
