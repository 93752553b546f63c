import InterfaceSchema.Text.Position

/-!
# Positions by look-up

A `LineIndex` holds the lines of a text in order, each with the byte offset at which it starts.
It turns byte offsets into positions without counting from the start of the text each time.

* `LineIndex.ofText` cuts a text at its line feeds.
* `LineIndex.resolve` finds the line of an offset by binary search and counts characters in that
  line only.
-/

namespace InterfaceSchema

/-- One line of a text, without its line feed, and the byte offset at which it starts. -/
structure Line where
  start : Nat
  text : List Char
  deriving DecidableEq

namespace Line

/-- Cuts a text that starts at byte offset `start` into its first line and the lines after it. -/
def split (start : Nat) : List Char → Line × List Line
  | [] => (⟨start, []⟩, [])
  | c :: rest =>
    let (line, later) := split (start + c.utf8Size) rest
    if c = '\n' then (⟨start, []⟩, line :: later) else (⟨start, c :: line.text⟩, later)

/-- The number of characters in the first `bytes` bytes of a text, if they end between two of its
characters. -/
def charactersIn (bytes : Nat) : List Char → Option Nat
  | [] => if bytes = 0 then some 0 else none
  | c :: rest =>
    if bytes = 0 then some 0
    else if c.utf8Size ≤ bytes then (charactersIn (bytes - c.utf8Size) rest).map (· + 1)
    else none

/-- The column of a byte offset in this line. An offset inside a character has no column of its
own; its distance in bytes then stands for the count of characters. -/
def column (line : Line) (offset : Nat) : Nat :=
  (charactersIn (offset - line.start) line.text).getD (offset - line.start) + 1

end Line

/-- The lines of a text: the first, and those that follow a line feed. -/
structure LineIndex where
  first : Line
  later : Array Line

namespace LineIndex

/-- The lines of a text. -/
def ofText (text : List Char) : LineIndex :=
  let (first, later) := Line.split 0 text
  ⟨first, later.toArray⟩

/-- The number of lines that start at or before `offset`, for lines in order of their starts, when
those below `low` do and those from `high` on do not. -/
def countFrom
    (lines : Array Line)
    (offset low high : Nat)
    (bound : high ≤ lines.size) : Nat :=
  if _h : low < high then
    let middle := (low + high) / 2
    have inside : middle < lines.size := by omega
    if lines[middle].start ≤ offset then
      countFrom lines offset (middle + 1) high bound
    else
      countFrom lines offset low middle (by omega)
  else
    low
termination_by high - low

/-- The number of line feeds before `offset`. -/
def lineFeedsBefore (index : LineIndex) (offset : Nat) : Nat :=
  countFrom index.later offset 0 index.later.size (Nat.le_refl _)

/-- The line with the given number, counted from zero. -/
def line (index : LineIndex) : Nat → Line
  | 0 => index.first
  | n + 1 => index.later[n]?.getD index.first

/-- The position of a byte offset. -/
def resolve (index : LineIndex) (offset : Nat) : Position :=
  let number := index.lineFeedsBefore offset
  ⟨number + 1, (index.line number).column offset⟩

/-- The location of a stretch of the text. -/
def locate (index : LineIndex) (span : Span) : Location :=
  ⟨index.resolve span.start, index.resolve span.stop, span⟩

end LineIndex

end InterfaceSchema
