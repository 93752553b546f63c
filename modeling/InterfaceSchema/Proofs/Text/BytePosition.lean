import InterfaceSchema.Proofs.Text.LineIndex
import InterfaceSchema.Text.BytePosition

/-!
# Positions counted in two ways

Positions counted in bytes are those counted in characters only where no carriage return stands
alone, and where the line holds no character of several bytes before the place.

* `loneReturns`: the carriage returns that end a line by themselves.
* `line_bytePositionFrom`, `column_bytePositionFrom`: line and column of a place counted in bytes.
* `bytePosition_eq_after_iff`: where both counts agree.
-/

namespace InterfaceSchema

/-- The number of carriage returns that no line feed follows. -/
def loneReturns : List Char → Nat
  | [] => 0
  | c :: rest => (if c = '\r' ∧ rest.head? ≠ some '\n' then 1 else 0) + loneReturns rest

/-- A text has as many bytes as characters just if each character has one byte. -/
theorem byteLength_eq_length_iff {text : List Char} :
    byteLength text = text.length ↔ ∀ c ∈ text, c.utf8Size = 1 := by
  have hle (text : List Char) : text.length ≤ byteLength text := by
    induction text with
    | nil =>
        exact Nat.le_refl 0
    | cons c rest ih =>
        have hsize := Char.utf8Size_pos c
        simp only [List.length_cons, byteLength_cons]
        omega
  induction text with
  | nil =>
      simp
  | cons c rest ih =>
      have hsize := Char.utf8Size_pos c
      have hrest := hle rest
      rw [List.forall_mem_cons, byteLength_cons, List.length_cons]
      constructor
      · intro hsame
        exact ⟨by omega, ih.1 (by omega)⟩
      · rintro ⟨hfirst, hall⟩
        rw [hfirst, ih.2 hall, Nat.add_comm]

section Counting

variable {c : Char} (behind : List Char) (noFeed : c ≠ '\n')

include noFeed

/-- What is ahead begins with a line feed just if there is one before the place. -/
theorem head?_append_eq_feed_iff (before : List Char) :
    (before ++ c :: behind).head? = some '\n' ↔ before.head? = some '\n' := by
  cases before with
  | nil =>
      simp [noFeed]
  | cons d rest =>
      rfl

/-- One more character before a place. -/
theorem bytePositionFrom_cons (position : Position) (d : Char) (rest : List Char) :
    bytePositionFrom position (byteLength (d :: rest)) (d :: rest ++ c :: behind) =
      bytePositionFrom
        (if d = '\r' ∧ rest.head? = some '\n' then position
          else if d = '\n' ∨ d = '\r' then ⟨position.line + 1, 1⟩
          else ⟨position.line, position.column + d.utf8Size⟩)
        (byteLength rest) (rest ++ c :: behind) := by
  have hinside : ¬ byteLength (d :: rest) < d.utf8Size := by
    rw [byteLength_cons]
    omega
  have hleft : byteLength (d :: rest) - d.utf8Size = byteLength rest := by
    rw [byteLength_cons]
    omega
  rw [List.cons_append, bytePositionFrom, if_neg hinside, hleft]
  simp only [head?_append_eq_feed_iff behind noFeed]
  split
  · rfl
  · split
    · rfl
    · rfl

/-- A line ends at each line feed and at each carriage return that stands alone. -/
theorem line_bytePositionFrom (position : Position) (before : List Char) :
    (bytePositionFrom position (byteLength before) (before ++ c :: behind)).line =
      position.line + before.count '\n' + loneReturns before := by
  induction before generalizing position with
  | nil =>
      rw [List.nil_append, byteLength_nil, bytePositionFrom, if_pos (Char.utf8Size_pos c)]
      rfl
  | cons d rest ih =>
      rw [bytePositionFrom_cons behind noFeed, ih, List.count_cons, loneReturns]
      by_cases hreturn : d = '\r'
      · subst hreturn
        by_cases hpaired : rest.head? = some '\n'
        · simp [hpaired]
        · simp [hpaired]
          omega
      · by_cases hfeed : d = '\n'
        · subst hfeed
          simp
          omega
        · simp [hreturn, hfeed]

/-- If no carriage return stands alone, a column counts the bytes behind the last line feed. -/
theorem column_bytePositionFrom
    (position : Position)
    {before : List Char}
    (paired : loneReturns before = 0) :
    (bytePositionFrom position (byteLength before) (before ++ c :: behind)).column =
      (if '\n' ∈ before then 1 else position.column) + byteLength (Position.lastLine before) := by
  induction before generalizing position with
  | nil =>
      rw [List.nil_append, byteLength_nil, bytePositionFrom, if_pos (Char.utf8Size_pos c)]
      rfl
  | cons d rest ih =>
      rw [loneReturns, Nat.add_eq_zero_iff] at paired
      rw [bytePositionFrom_cons behind noFeed, ih _ paired.2, Position.lastLine_cons]
      by_cases hreturn : d = '\r'
      · subst hreturn
        have hpaired : rest.head? = some '\n' := by
          by_contra hother
          simp [hother] at paired
        have hmember : '\n' ∈ rest := List.mem_of_mem_head? hpaired
        simp [hmember]
      · by_cases hfeed : d = '\n'
        · subst hfeed
          simp
        · have hother : ¬ '\n' = d := fun hsame => hfeed hsame.symm
          by_cases hmember : '\n' ∈ rest
          · simp [hfeed, hother, hmember]
          · simp [hreturn, hfeed, hother, hmember]
            omega

/-- The position of a place counted in bytes is the one counted in characters just if no carriage
return before it stands alone, and every character before it on its line has one byte. -/
theorem bytePosition_eq_after_iff (before : List Char) :
    bytePosition (before ++ c :: behind) (byteLength before) = Position.after before ↔
      loneReturns before = 0 ∧ ∀ d ∈ Position.lastLine before, d.utf8Size = 1 := by
  have hline := line_bytePositionFrom behind noFeed Position.start before
  rw [← byteLength_eq_length_iff, Position.after_eq]
  unfold bytePosition
  constructor
  · intro hsame
    rw [hsame] at hline
    have hpaired : loneReturns before = 0 := by
      simp only [Position.start] at hline
      omega
    have hcolumn := column_bytePositionFrom behind noFeed Position.start hpaired
    rw [hsame] at hcolumn
    refine ⟨hpaired, ?_⟩
    simp only [Position.start, ite_self] at hcolumn
    omega
  · rintro ⟨hpaired, hbytes⟩
    have hcolumn := column_bytePositionFrom behind noFeed Position.start hpaired
    rw [hpaired] at hline
    rw [hbytes] at hcolumn
    generalize bytePositionFrom Position.start (byteLength before) (before ++ c :: behind) = found
      at hline hcolumn ⊢
    rcases found with ⟨line, column⟩
    simp only [Position.start, ite_self] at hline hcolumn
    rw [Position.mk.injEq]
    omega

end Counting

end InterfaceSchema
