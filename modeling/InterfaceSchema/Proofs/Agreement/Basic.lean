import Mathlib.Data.List.Forall2
import InterfaceSchema.Grammar.Block
import InterfaceSchema.Proofs.Unplaced.Node

/-!
# Readers and places

The readers of the grammar decide by tokens alone. Before the same tokens at other places a reader
does the same: it reads the same thing but for places, or it fails for the same reason at the
lexeme that corresponds.

* `Agree`: two outcomes are both values or both failures, and the two correspond.
* `Pairing`: which places of a token correspond. `Pairing.Lexemes`, `Pairing.Cursors`,
  `Pairing.Failures` and `Pairing.Advances` extend this to what readers handle.
* `Pairing.Keeps`: a reader does the same before lexemes that correspond. The readers of single
  lexemes are the first such.

A pairing of each place with itself follows one text alone: it says at which lexemes of the text a
reader may fail.
-/

namespace InterfaceSchema

/-! ## Outcomes -/

section Outcomes

variable {ε ε' α α' β β' : Type}

/-- Two outcomes are both values or both failures, and the two correspond. -/
inductive Agree (fails : ε → ε' → Prop) (holds : α → α' → Prop) :
    Except ε α → Except ε' α' → Prop
  | ok {first : α} {second : α'} (values : holds first second) :
      Agree fails holds (.ok first) (.ok second)
  | error {first : ε} {second : ε'} (failures : fails first second) :
      Agree fails holds (.error first) (.error second)

namespace Agree

variable {fails wider : ε → ε' → Prop} {holds : α → α' → Prop} {later : β → β' → Prop}
variable {first : Except ε α} {second : Except ε' α'}

theorem mono
    (agree : Agree fails holds first second)
    (widens : ∀ failure other, fails failure other → wider failure other) :
    Agree wider holds first second := by
  cases agree with
  | ok values =>
      exact .ok values
  | error failures =>
      exact .error (widens _ _ failures)

theorem bind
    {next : α → Except ε β}
    {next' : α' → Except ε' β'}
    (agree : Agree fails holds first second)
    (rest : ∀ value other, holds value other → Agree fails later (next value) (next' other)) :
    Agree fails later (first >>= next) (second >>= next') := by
  cases agree with
  | ok values =>
      exact rest _ _ values
  | error failures =>
      exact .error failures

theorem map
    {f : α → β}
    {g : α' → β'}
    (agree : Agree fails holds first second)
    (values : ∀ value other, holds value other → later (f value) (g other)) :
    Agree fails later (first.map f) (second.map g) := by
  cases agree with
  | ok values' =>
      exact .ok (values _ _ values')
  | error failures =>
      exact .error failures

theorem mapError
    {δ δ' : Type}
    {wider : δ → δ' → Prop}
    {f : ε → δ}
    {g : ε' → δ'}
    (agree : Agree fails holds first second)
    (failures : ∀ failure other, fails failure other → wider (f failure) (g other)) :
    Agree wider holds (first.mapError f) (second.mapError g) := by
  cases agree with
  | ok values =>
      exact .ok values
  | error failures' =>
      exact .error (failures _ _ failures')

end Agree

end Outcomes

/-! ## Lexemes and cursors that correspond -/

/-- The causes of failures that the readers of single declarations know, and an import out of place.
They depend on the tokens at one place. -/
def Cause.IsLocal : Cause → Prop
  | unexpectedToken _ _ => True
  | unexpectedEnd _ => True
  | misplacedImport => True
  | invalidMapKey => True
  | nestedOneof => True
  | emptyAnnotationValue => True
  | _ => False

/-- For each token, which of its places in two texts correspond. -/
abbrev Pairing :=
  Token → Location → Location → Prop

namespace Pairing

variable (pairing : Pairing)

/-- Lexemes with the same token at places that correspond. -/
def Lexemes (first second : Lexeme) : Prop :=
  first.token = second.token ∧ pairing first.token first.location second.location

/-- Cursors before lexemes that correspond, with the same notes waiting but for places. -/
structure Cursors (first second : Cursor) : Prop where
  previous : first.previous = second.previous
  ahead : List.Forall₂ pairing.Lexemes first.ahead second.ahead
  eof : pairing .eof first.eof second.eof
  pending : first.pending.unplaced = second.pending.unplaced

/-- Failures of one cause, each at a lexeme. The two lexemes correspond, and a failure at the end of
a text is found where a text ends. -/
structure Failures (first second : Failure) : Prop where
  cause : first.cause = second.cause
  isLocal : first.cause.IsLocal
  place :
    ∃ token place other,
      pairing token place other ∧
        first.span = place.span ∧
        second.span = other.span ∧
        ∀ expected, first.cause = .unexpectedEnd expected → token = .eof

section Values

variable {α β : Type} {before other : Cursor}

/-- Advances to cursors that correspond, with values that do. -/
structure Advances
    (holds : α → β → Prop)
    (first : Advance before α)
    (second : Advance other β) : Prop where
  value : holds first.value second.value
  after : pairing.Cursors first.after second.after

/-- A reader does the same before lexemes that correspond. -/
def Keeps
    (holds : α → α → Prop)
    (read : (cursor : Cursor) → Except Failure (Advance cursor α)) : Prop :=
  ∀ first second,
    pairing.Cursors first second →
      Agree pairing.Failures (pairing.Advances holds) (read first) (read second)

/-- Two attempts to read a token both fail, or succeed alike. -/
def Attempts
    (holds : α → β → Prop)
    (first : Option (Advance before α))
    (second : Option (Advance other β)) : Prop :=
  (first = none ∧ second = none) ∨
    ∃ found twin, first = some found ∧ second = some twin ∧ pairing.Advances holds found twin

/-- Something was picked from tokens at places that correspond. -/
def Picked (first second : α × Location) : Prop :=
  first.1 = second.1 ∧ ∃ token, pairing token first.2 second.2

end Values

variable {pairing : Pairing}

namespace Advances

variable {α β γ δ : Type} {before other : Cursor}
variable {holds : α → β → Prop} {later : γ → δ → Prop}
variable {first : Advance before α} {second : Advance other β}

theorem map
    {f : α → γ}
    {g : β → δ}
    (advances : pairing.Advances holds first second)
    (values : ∀ value twin, holds value twin → later (f value) (g twin)) :
    pairing.Advances later (first.map f) (second.map g) :=
  ⟨values _ _ advances.value, advances.after⟩

theorem followedBy
    {further : Advance first.after γ}
    {twin : Advance second.after δ}
    (advances : pairing.Advances later further twin) :
    pairing.Advances later (first.followedBy further) (second.followedBy twin) :=
  ⟨advances.value, advances.after⟩

theorem withPending
    {notes twin : Notes}
    (advances : pairing.Advances holds first second)
    (same : notes.unplaced = twin.unplaced) :
    pairing.Advances holds (first.withPending notes) (second.withPending twin) :=
  ⟨advances.value, advances.after.previous, advances.after.ahead, advances.after.eof, same⟩

theorem detach (advances : pairing.Advances holds first second) :
    pairing.Advances holds first.detach second.detach :=
  advances.withPending rfl

end Advances

namespace Attempts

variable {α β : Type} {before other : Cursor} {holds : α → β → Prop}
variable {first : Option (Advance before α)} {second : Option (Advance other β)}

theorem of_none (attempts : pairing.Attempts holds first second) (none_eq : first = none) :
    second = none := by
  rcases attempts with ⟨_, hsecond⟩ | ⟨found, _, hfound, _⟩
  · exact hsecond
  · rw [none_eq] at hfound
    cases hfound

theorem of_some
    {found : Advance before α}
    (attempts : pairing.Attempts holds first second)
    (some_eq : first = some found) :
    ∃ twin, second = some twin ∧ pairing.Advances holds found twin := by
  rcases attempts with ⟨hnone, _⟩ | ⟨other, twin, hother, htwin, hadvances⟩
  · rw [some_eq] at hnone
    cases hnone
  · rw [some_eq] at hother
    cases hother
    exact ⟨twin, htwin, hadvances⟩

end Attempts

section AndThen

variable {α β γ : Type} {before other : Cursor} {holds : α → β → Prop} {later : γ → γ → Prop}
variable {first : Advance before α} {second : Advance other β}
variable {read twin : (cursor : Cursor) → Except Failure (Advance cursor γ)}

/-- Reading on behind advances to cursors that correspond. -/
theorem andThen_agrees
    {fails : Failure → Failure → Prop}
    (agree : Agree fails (pairing.Advances later) (read first.after) (twin second.after)) :
    Agree fails (pairing.Advances later) (first.andThen read) (second.andThen twin) := by
  unfold Advance.andThen
  generalize read first.after = outcome at agree
  generalize twin second.after = other at agree
  cases agree with
  | ok values =>
      exact .ok values.followedBy
  | error failures =>
      exact .error failures

/-- A reader that does the same does so behind advances, too. -/
theorem Keeps.andThen
    (keeps : pairing.Keeps later read)
    (advances : pairing.Advances holds first second) :
    Agree pairing.Failures (pairing.Advances later) (first.andThen read) (second.andThen read) :=
  andThen_agrees (keeps _ _ advances.after)

end AndThen

/-! ## Single lexemes -/

/-- A failure at a token that was picked. -/
theorem Picked.failures
    {α : Type}
    {first second : α × Location}
    {cause : Cause}
    (picked : pairing.Picked first second)
    (isLocal : cause.IsLocal)
    (noEnd : ∀ expected, cause ≠ .unexpectedEnd expected) :
    pairing.Failures ⟨cause, first.2.span⟩ ⟨cause, second.2.span⟩ := by
  rcases picked with ⟨_, token, hplaces⟩
  exact
    ⟨rfl, isLocal, token, _, _, hplaces, rfl, rfl, fun expected hcause =>
      absurd hcause (noEnd expected)⟩

namespace Cursors

variable {first second : Cursor} (cursors : pairing.Cursors first second)

include cursors

theorem peek : pairing.Lexemes first.peek second.peek := by
  have hahead := cursors.ahead
  unfold Cursor.peek
  generalize first.ahead = ahead at hahead
  generalize second.ahead = other at hahead
  cases hahead with
  | nil =>
      exact ⟨rfl, cursors.eof⟩
  | cons lexemes rest =>
      exact lexemes

/-- A failure at what is ahead. -/
theorem failures
    {cause : Cause}
    (isLocal : cause.IsLocal)
    (atEnd : ∀ expected, cause = .unexpectedEnd expected → first.peek.token = .eof) :
    pairing.Failures ⟨cause, first.peek.location.span⟩ ⟨cause, second.peek.location.span⟩ :=
  ⟨rfl, isLocal, _, _, _, cursors.peek.2, rfl, rfl, atEnd⟩

theorem unexpected (expected : Expected) :
    pairing.Failures (first.unexpected expected) (second.unexpected expected) := by
  have htoken := cursors.peek.1
  unfold Cursor.unexpected
  dsimp only
  rw [← htoken]
  split
  · next heof =>
    exact cursors.failures trivial fun _ _ => heof
  · exact cursors.failures trivial (by simp)

theorem atLineStart : first.atLineStart = second.atLineStart := by
  unfold Cursor.atLineStart
  rw [cursors.previous]

theorem next? : pairing.Attempts pairing.Lexemes first.next? second.next? := by
  rcases first with ⟨previous, ahead, eof, pending⟩
  rcases second with ⟨previous', ahead', eof', pending'⟩
  rcases cursors with ⟨hprevious, hahead, heof, hpending⟩
  dsimp only at hprevious hahead heof hpending
  cases hahead with
  | nil =>
      exact Or.inl ⟨rfl, rfl⟩
  | cons lexemes rest =>
      refine Or.inr ⟨_, _, rfl, rfl, lexemes, ?_, rest, heof, hpending⟩
      exact congrArg some lexemes.1

theorem select? {α : Type} (select : Token → Option α) :
    pairing.Attempts pairing.Picked (first.select? select) (second.select? select) := by
  unfold Cursor.select?
  rcases cursors.next? with ⟨hfirst, hsecond⟩ | ⟨found, twin, hfirst, hsecond, hnext⟩
  · rw [hfirst, hsecond]
    exact Or.inl ⟨rfl, rfl⟩
  · rcases hnext.value with ⟨htoken, hplaces⟩
    rw [hfirst, hsecond]
    dsimp only
    rw [← htoken]
    cases select found.value.token with
    | none =>
        exact Or.inl ⟨rfl, rfl⟩
    | some value =>
        exact Or.inr ⟨_, _, rfl, rfl, ⟨rfl, _, hplaces⟩, hnext.after⟩

theorem take? (token : Token) :
    pairing.Attempts (pairing token) (first.take? token) (second.take? token) := by
  unfold Cursor.take?
  rcases cursors.next? with ⟨hfirst, hsecond⟩ | ⟨found, twin, hfirst, hsecond, hnext⟩
  · rw [hfirst, hsecond]
    exact Or.inl ⟨rfl, rfl⟩
  · rcases hnext.value with ⟨htoken, hplaces⟩
    rw [hfirst, hsecond]
    dsimp only
    rw [← htoken]
    split
    · next hfound =>
      rw [hfound] at hplaces
      exact Or.inr ⟨_, _, rfl, rfl, hplaces, hnext.after⟩
    · exact Or.inl ⟨rfl, rfl⟩

/-- An empty line and a comment are passed over alike, and leave the same notes waiting. -/
theorem trivia? : pairing.Attempts Eq first.trivia? second.trivia? := by
  unfold Cursor.trivia?
  rcases cursors.next? with ⟨hfirst, hsecond⟩ | ⟨found, twin, hfirst, hsecond, hnext⟩
  · rw [hfirst, hsecond]
    exact Or.inl ⟨rfl, rfl⟩
  · have hpending := cursors.pending
    rw [hfirst, hsecond]
    dsimp only
    rw [← hnext.value.1, ← cursors.atLineStart]
    split
    · refine Or.inr ⟨_, _, rfl, rfl, (hnext.map fun _ _ _ => rfl).withPending ?_⟩
      split
      · rfl
      · exact hpending
    · refine Or.inr ⟨_, _, rfl, rfl, (hnext.map fun _ _ _ => rfl).withPending ?_⟩
      simp only [Notes.unplaced, Notes.mk.injEq] at hpending ⊢
      rw [hpending.1]
      exact ⟨rfl, hpending.2⟩
    · exact Or.inl ⟨rfl, rfl⟩

end Cursors

theorem select_keeps
    {α : Type}
    (expected : Expected)
    (select : Token → Option α) :
    pairing.Keeps pairing.Picked fun cursor => cursor.select expected select := by
  intro first second hcursors
  dsimp only
  unfold Cursor.select
  rcases hcursors.select? select with ⟨hfirst, hsecond⟩ | ⟨found, twin, hfirst, hsecond, hfound⟩
  · rw [hfirst, hsecond]
    exact .error (hcursors.unexpected expected)
  · rw [hfirst, hsecond]
    exact .ok hfound

theorem ident_keeps (expected : Expected) :
    pairing.Keeps pairing.Picked fun cursor => cursor.ident expected :=
  select_keeps expected Token.ident?

theorem expect_keeps (token : Token) :
    pairing.Keeps (pairing token) fun cursor => cursor.expect token := by
  intro first second hcursors
  dsimp only
  unfold Cursor.expect
  rcases hcursors.take? token with ⟨hfirst, hsecond⟩ | ⟨found, twin, hfirst, hsecond, hfound⟩
  · rw [hfirst, hsecond]
    exact .error (hcursors.unexpected _)
  · rw [hfirst, hsecond]
    exact .ok hfound

end Pairing
end InterfaceSchema
