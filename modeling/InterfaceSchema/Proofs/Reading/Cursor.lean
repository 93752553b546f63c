import InterfaceSchema.Grammar.Block
import InterfaceSchema.Proofs.Phrase.Shape

/-!
# Readers and phrases

What a reader of lexemes has to do with a phrase of the grammar.

* `Advance.Covers`: an advance took a given stretch of lexemes and left a given margin.
* `Reads`: a reader succeeds just on the stretches that a phrase allows, and returns what they
  spell. It is closed under reading one thing after another (`Reads.andThen_sound`,
  `Reads.andThen_complete`).
* The readers of single lexemes are the first instances.
-/

namespace InterfaceSchema

theorem bind_eq_ok_iff
    {ε α β : Type}
    {first : Except ε α}
    {next : α → Except ε β}
    {result : β} :
    (first >>= next) = .ok result ↔ ∃ value, first = .ok value ∧ next value = .ok result := by
  cases first with
  | error failure =>
      simp [bind, Except.bind]
  | ok value =>
      simp [bind, Except.bind]

/-- The margin at which a cursor stands. -/
def Cursor.margin (cursor : Cursor) : Margin :=
  ⟨cursor.atLineStart, cursor.pending⟩

namespace Advance

variable {cursor : Cursor} {α β : Type}

@[simp]
theorem value_map (advance : Advance cursor α) (f : α → β) :
    (advance.map f).value = f advance.value :=
  rfl

@[simp]
theorem value_followedBy (first : Advance cursor α) (second : Advance first.after β) :
    (first.followedBy second).value = second.value :=
  rfl

@[simp]
theorem after_followedBy (first : Advance cursor α) (second : Advance first.after β) :
    (first.followedBy second).after = second.after :=
  rfl

@[simp]
theorem value_detach (advance : Advance cursor α) : advance.detach.value = advance.value :=
  rfl

/-- The lexemes that an advance took, and the margin at which it ends. -/
structure Covers
    (advance : Advance cursor α)
    (taken : List Lexeme)
    (margin : Margin) : Prop where
  ahead : cursor.ahead = taken ++ advance.after.ahead
  margin : advance.after.margin = margin

namespace Covers

variable {advance : Advance cursor α} {taken : List Lexeme} {margin : Margin}

theorem pending (covers : advance.Covers taken margin) :
    advance.after.pending = margin.waiting :=
  congrArg Margin.waiting covers.margin

theorem rest_eq
    (covers : advance.Covers taken margin)
    {rest : List Lexeme}
    (ahead : cursor.ahead = taken ++ rest) :
    advance.after.ahead = rest := by
  have hsame : taken ++ advance.after.ahead = taken ++ rest := by
    rw [← covers.ahead, ahead]
  exact List.append_cancel_left hsame

/-- The lexeme that was taken is the first one that stood ahead. -/
theorem head_eq
    {lexeme other : Lexeme}
    {rest : List Lexeme}
    (covers : advance.Covers [lexeme] margin)
    (ahead : cursor.ahead = other :: rest) :
    lexeme = other ∧ advance.after.ahead = rest := by
  have hsame := covers.ahead
  rw [ahead] at hsame
  simp only [List.singleton_append, List.cons.injEq] at hsame
  exact ⟨hsame.1.symm, hsame.2.symm⟩

theorem map (covers : advance.Covers taken margin) (f : α → β) :
    (advance.map f).Covers taken margin :=
  ⟨covers.ahead, covers.margin⟩

theorem followedBy
    (covers : advance.Covers taken margin)
    {second : Advance advance.after β}
    {later : List Lexeme}
    {last : Margin}
    (rest : second.Covers later last) :
    (advance.followedBy second).Covers (taken ++ later) last := by
  constructor
  · rw [covers.ahead, rest.ahead, List.append_assoc]
    rfl
  · exact rest.margin

theorem withPending (covers : advance.Covers taken margin) (notes : Notes) :
    (advance.withPending notes).Covers taken ⟨margin.atLineStart, notes⟩ := by
  constructor
  · exact covers.ahead
  · rw [← covers.margin]
    rfl

theorem detach
    {notes : Notes}
    (covers : advance.Covers taken ⟨false, notes⟩) :
    advance.detach.Covers taken .clear :=
  covers.withPending Notes.none

end Covers

end Advance

/-! ## Readers -/

section Readers

variable {α β : Type}

/-- A reader accepts just the stretches of lexemes that a phrase allows, if what follows them does
not stand against it, and returns what they spell. The phrase may depend on the notes that wait
before it, and `left` are those that wait behind it. -/
structure Reads
    (read : (cursor : Cursor) → Except Failure (Advance cursor α))
    (Phrase : Notes → List Lexeme → α → Prop)
    (left : Notes → Notes)
    (Stops : List Lexeme → Prop) : Prop where
  sound
    {cursor : Cursor}
    {advance : Advance cursor α}
    (succeeds : read cursor = .ok advance) :
    ∃ taken,
      Phrase cursor.pending taken advance.value ∧
        advance.Covers taken ⟨false, left cursor.pending⟩
  complete
    {cursor : Cursor}
    (taken rest : List Lexeme)
    (value : α)
    (spelled : Phrase cursor.pending taken value)
    (stops : Stops rest)
    (ahead : cursor.ahead = taken ++ rest) :
    ∃ advance,
      read cursor = .ok advance ∧
        advance.value = value ∧ advance.Covers taken ⟨false, left cursor.pending⟩

namespace Reads

variable
  {read : (cursor : Cursor) → Except Failure (Advance cursor β)}
  {Phrase : Notes → List Lexeme → β → Prop}
  {left : Notes → Notes}
  {Stops : List Lexeme → Prop}
  {cursor : Cursor}
  {first : Advance cursor α}
  {taken : List Lexeme}
  {notes : Notes}

/-- What is read after an advance is a phrase that begins where the advance ends. -/
theorem andThen_sound
    (reads : Reads read Phrase left Stops)
    (covers : first.Covers taken ⟨false, notes⟩)
    {result : Advance cursor β}
    (succeeds : first.andThen read = .ok result) :
    ∃ later,
      Phrase notes later result.value ∧
        result.Covers (taken ++ later) ⟨false, left notes⟩ := by
  obtain ⟨second, hread, rfl⟩ := Advance.andThen_eq_ok_iff.1 succeeds
  obtain ⟨later, hphrase, hcovers⟩ := reads.sound hread
  rw [covers.pending] at hphrase hcovers
  exact ⟨later, hphrase, covers.followedBy hcovers⟩

/-- A phrase that begins where an advance ends is read after it. -/
theorem andThen_complete
    (reads : Reads read Phrase left Stops)
    (covers : first.Covers taken ⟨false, notes⟩)
    (later rest : List Lexeme)
    (value : β)
    (spelled : Phrase notes later value)
    (stops : Stops rest)
    (ahead : cursor.ahead = taken ++ (later ++ rest)) :
    ∃ result,
      first.andThen read = .ok result ∧
        result.value = value ∧ result.Covers (taken ++ later) ⟨false, left notes⟩ := by
  have hrest := covers.rest_eq ahead
  have hphrase : Phrase first.after.pending later value := by
    rw [covers.pending]
    exact spelled
  obtain ⟨second, hread, hvalue, hcovers⟩ := reads.complete later rest value hphrase stops hrest
  rw [covers.pending] at hcovers
  refine ⟨first.followedBy second, ?_, hvalue, covers.followedBy hcovers⟩
  exact Advance.andThen_eq_ok_iff.2 ⟨second, hread, rfl⟩

end Reads

end Readers

/-- Nothing that follows stands against a phrase with an end of its own. -/
def Anything (_ : List Lexeme) : Prop :=
  True

/-! ## Single lexemes -/

namespace Cursor

variable {cursor : Cursor}

theorem next?_covers
    {next : Advance cursor Lexeme}
    (found : cursor.next? = some next) :
    next.Covers [next.value] ⟨next.value.token = .newline, cursor.pending⟩ := by
  obtain ⟨previous, ahead, eof, waiting⟩ := cursor
  cases ahead with
  | nil =>
      simp [next?] at found
  | cons lexeme rest =>
      simp only [next?, Option.some.injEq] at found
      subst found
      exact ⟨rfl, rfl⟩

theorem exists_next?
    {lexeme : Lexeme}
    {rest : List Lexeme}
    (ahead : cursor.ahead = lexeme :: rest) :
    ∃ next, cursor.next? = some next ∧ next.value = lexeme := by
  obtain ⟨previous, lexemes, eof, waiting⟩ := cursor
  simp only at ahead
  subst ahead
  exact ⟨_, rfl, rfl⟩

theorem select?_covers
    {α : Type}
    {select : Token → Option α}
    {found : Advance cursor (α × Location)}
    (noBreak : select .newline = none)
    (selected : cursor.select? select = some found) :
    ∃ token,
      select token = some found.value.1 ∧
        found.Covers [⟨token, found.value.2⟩] ⟨false, cursor.pending⟩ := by
  unfold select? at selected
  split at selected
  · simp at selected
  · next next hnext =>
    obtain ⟨value, hvalue, rfl⟩ := Option.map_eq_some_iff.1 selected
    have hcovers := next?_covers hnext
    have hbreak : next.value.token ≠ .newline := by
      intro hnewline
      rw [hnewline, noBreak] at hvalue
      simp at hvalue
    rw [decide_eq_false hbreak] at hcovers
    exact ⟨next.value.token, hvalue, hcovers.map _⟩

theorem exists_select?
    {α : Type}
    {select : Token → Option α}
    {token : Token}
    {place : Location}
    {rest : List Lexeme}
    {value : α}
    (ahead : cursor.ahead = ⟨token, place⟩ :: rest)
    (selects : select token = some value) :
    ∃ found, cursor.select? select = some found ∧ found.value = (value, place) := by
  obtain ⟨next, hnext, hvalue⟩ := exists_next? ahead
  refine ⟨next.map fun lexeme => (value, lexeme.location), ?_, ?_⟩
  · simp [select?, hnext, hvalue, selects]
  · simp [Advance.map, hvalue]

theorem select?_eq_none_iff
    {α : Type}
    {select : Token → Option α} :
    cursor.select? select = none ↔
      ∀ lexeme rest, cursor.ahead = lexeme :: rest → select lexeme.token = none := by
  constructor
  · intro hnone lexeme rest hahead
    obtain ⟨next, hnext, rfl⟩ := exists_next? hahead
    simpa [select?, hnext] using hnone
  · intro hnone
    unfold select?
    split
    · rfl
    · next next hnext =>
      have hahead := (next?_covers hnext).ahead
      rw [hnone next.value _ hahead]
      rfl

theorem take?_covers
    {token : Token}
    {found : Advance cursor Location}
    (noBreak : token ≠ .newline)
    (taken : cursor.take? token = some found) :
    found.Covers [⟨token, found.value⟩] ⟨false, cursor.pending⟩ := by
  unfold take? at taken
  split at taken
  · simp at taken
  · next next hnext =>
    split at taken
    · next htoken =>
      simp only [Option.some.injEq] at taken
      subst taken
      have hcovers := next?_covers hnext
      rw [htoken, decide_eq_false noBreak] at hcovers
      have hlexeme : next.value = ⟨token, next.value.location⟩ := by
        rw [← htoken]
      rw [hlexeme] at hcovers
      exact hcovers.map _
    · simp at taken

theorem exists_take?
    {token : Token}
    {place : Location}
    {rest : List Lexeme}
    (ahead : cursor.ahead = ⟨token, place⟩ :: rest) :
    ∃ found, cursor.take? token = some found ∧ found.value = place := by
  obtain ⟨next, hnext, hvalue⟩ := exists_next? ahead
  refine ⟨next.map Lexeme.location, ?_, ?_⟩
  · simp [take?, hnext, hvalue]
  · simp [Advance.map, hvalue]

theorem take?_eq_none_iff {token : Token} :
    cursor.take? token = none ↔ NoToken token cursor.ahead := by
  constructor
  · intro hnone place more hahead
    obtain ⟨found, hfound, _⟩ := exists_take? hahead
    rw [hnone] at hfound
    simp at hfound
  · intro hother
    unfold take?
    split
    · rfl
    · next next hnext =>
      split
      · next htoken =>
        have hahead := (next?_covers hnext).ahead
        have hlexeme : next.value = ⟨token, next.value.location⟩ := by
          rw [← htoken]
        rw [hlexeme] at hahead
        exact absurd hahead (hother _ _)
      · rfl

/-- Reading a given token. -/
theorem expect_reads {token : Token} (noBreak : token ≠ .newline) :
    Reads (fun cursor => cursor.expect token)
      (fun _ taken place => taken = [⟨token, place⟩]) id Anything where
  sound := by
    intro cursor advance hsucceeds
    exact ⟨_, rfl, take?_covers noBreak (expect_eq_ok_iff.1 hsucceeds)⟩
  complete := by
    intro cursor taken rest place hspelled _ hahead
    subst hspelled
    obtain ⟨found, hfound, rfl⟩ := exists_take? hahead
    exact ⟨found, expect_eq_ok_iff.2 hfound, rfl, take?_covers noBreak hfound⟩

/-- Reading a token of one kind. -/
theorem select_reads
    {α : Type}
    {select : Token → Option α}
    (expected : Expected)
    (noBreak : select .newline = none) :
    Reads (fun cursor => cursor.select expected select)
      (fun _ taken (found : α × Location) =>
        ∃ token, select token = some found.1 ∧ taken = [⟨token, found.2⟩]) id Anything where
  sound := by
    intro cursor advance hsucceeds
    unfold Cursor.select at hsucceeds
    split at hsucceeds
    · next found hfound =>
      simp only [Except.ok.injEq] at hsucceeds
      subst hsucceeds
      obtain ⟨token, htoken, hcovers⟩ := select?_covers noBreak hfound
      exact ⟨_, ⟨token, htoken, rfl⟩, hcovers⟩
    · simp at hsucceeds
  complete := by
    rintro cursor taken rest ⟨value, place⟩ ⟨token, htoken, rfl⟩ _ hahead
    obtain ⟨found, hfound, hvalue⟩ := exists_select? hahead htoken
    obtain ⟨other, _, hcovers⟩ := select?_covers noBreak hfound
    have hsame : (⟨other, found.value.2⟩ : Lexeme) = ⟨token, place⟩ := by
      have hlists := hcovers.ahead
      rw [hahead] at hlists
      simp only [List.singleton_append, List.cons.injEq] at hlists
      exact hlists.1.symm
    rw [hsame] at hcovers
    refine ⟨found, ?_, hvalue, hcovers⟩
    simp [Cursor.select, hfound]

theorem take?_ahead
    {token : Token}
    {found : Advance cursor Location}
    (taken : cursor.take? token = some found) :
    cursor.ahead = ⟨token, found.value⟩ :: found.after.ahead := by
  unfold take? at taken
  split at taken
  · simp at taken
  · next next hnext =>
    split at taken
    · next htoken =>
      simp only [Option.some.injEq] at taken
      subst taken
      rw [← htoken]
      exact (next?_covers hnext).ahead
    · simp at taken

/-- Unless the text ends, what is seen ahead is there. -/
theorem exists_ahead_eq_peek (more : cursor.peek.token ≠ .eof) :
    ∃ rest, cursor.ahead = cursor.peek :: rest := by
  unfold peek at more ⊢
  cases hahead : cursor.ahead with
  | nil =>
      simp [hahead] at more
  | cons lexeme rest =>
      exact ⟨rest, rfl⟩

end Cursor

namespace Token

theorem ident?_eq_some_iff {token : Token} {name : String} :
    token.ident? = some name ↔ token = .ident name := by
  cases token <;> simp [ident?]

theorem number?_eq_some_iff {token : Token} {number : UInt64} :
    token.number? = some number ↔ token = .number number := by
  cases token <;> simp [number?]

theorem stringLiteral?_eq_some_iff {token : Token} {text : String} :
    token.stringLiteral? = some text ↔ token = .stringLiteral text := by
  cases token <;> simp [stringLiteral?]

theorem atName?_eq_some_iff {token : Token} {name : String} :
    token.atName? = some name ↔ token = .atName name := by
  cases token <;> simp [atName?]

end Token

/-- Reading an identifier. -/
theorem Cursor.ident_reads (expected : Expected) :
    Reads (fun cursor => cursor.ident expected)
      (fun _ taken (found : String × Location) => taken = [⟨.ident found.1, found.2⟩])
      id Anything where
  sound := by
    intro cursor advance hsucceeds
    obtain ⟨taken, ⟨token, htoken, rfl⟩, hcovers⟩ :=
      (Cursor.select_reads expected rfl).sound hsucceeds
    rw [Token.ident?_eq_some_iff] at htoken
    subst htoken
    exact ⟨_, rfl, hcovers⟩
  complete := by
    intro cursor taken rest found hspelled hstops hahead
    exact (Cursor.select_reads expected rfl).complete _ _ _ ⟨_, rfl, hspelled⟩ hstops hahead

end InterfaceSchema
