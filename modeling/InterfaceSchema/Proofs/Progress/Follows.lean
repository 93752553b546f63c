import InterfaceSchema.Proofs.Progress.Numbered
import InterfaceSchema.Proofs.Reading.Cursor

/-!
# Readers by number that follow readers of cursors

A reader by number *follows* a reader of cursors if it finds the same from the same place and keeps
its record sound: it goes one lexeme further at a time and never past the end, it looks only at
lexemes that are there, and each round that it goes on from gets on.

* `Page`: lexemes that end with the end of the text. No other lexeme is one.
* `Desk.Sound`: what a record must show. `Stands`: a desk and a cursor are at the same place.
* `Matches` compares what is found. It is closed under reading one thing after another
  (`Matches.bind`, `Matches.andThen`).
* `rounds_follow`: a loop follows what each of its rounds is a step of.
-/

namespace InterfaceSchema
namespace Numbered

/-! ## Runs -/

section Runs

variable {α β : Type} {sheet : Sheet} {desk after : Desk}

theorem run_pure (value : α) : run (pure value) sheet desk = (.ok value, desk) :=
  rfl

theorem run_fail (failure : Failure) :
    run (fail failure : Reader α) sheet desk = (.error (.failure failure), desk) :=
  rfl

theorem run_bind_of_ok
    {reader : Reader α}
    {later : α → Reader β}
    {found : α}
    (reads : run reader sheet desk = (.ok found, after)) :
    run (reader >>= later) sheet desk = run (later found) sheet after := by
  unfold run at reads ⊢
  simp [bind, ReaderT.bind, ExceptT.bind, ExceptT.mk, ExceptT.bindCont, StateT.bind, reads]

theorem run_bind_of_error
    {reader : Reader α}
    {later : α → Reader β}
    {stop : Stop}
    (stops : run reader sheet desk = (.error stop, after)) :
    run (reader >>= later) sheet desk = (.error stop, after) := by
  unfold run at stops ⊢
  simp only [bind, ReaderT.bind, ExceptT.bind, ExceptT.mk, ExceptT.bindCont, StateT.bind, stops]
  rfl

theorem run_number_bind (later : Nat → Reader β) :
    run (number >>= later) sheet desk = run (later desk.number) sheet desk :=
  rfl

theorem run_waiting_bind (later : Notes → Reader β) :
    run (waiting >>= later) sheet desk = run (later desk.pending) sheet desk :=
  rfl

theorem run_setWaiting_bind (notes : Notes) (later : Unit → Reader β) :
    run (setWaiting notes >>= later) sheet desk =
      run (later ()) sheet { desk with pending := notes } :=
  rfl

end Runs

/-! ## Records -/

/-- The numbers between which a move goes. -/
def Event.move? : Event → Option (Nat × Nat)
  | .move start stop => some (start, stop)
  | _ => none

namespace Desk

/-- The desk at the next number. -/
def moved (desk : Desk) : Desk :=
  { desk.noted (.move desk.number (desk.number + 1)) with number := desk.number + 1 }

/-- A record is sound: the moves on it lead through all numbers up to the one that is reached, one
by one; that one is not past the last; no look was at or behind the last; and each round got on. -/
structure Sound (desk : Desk) (last : Nat) : Prop where
  moves :
    desk.record.filterMap Event.move? =
      (List.range desk.number).map fun number => (number, number + 1)
  inside : desk.number ≤ last
  looks : ∀ number, Event.look number ∈ desk.record → number < last
  rounds : ∀ start stop, Event.round start stop ∈ desk.record → start < stop

variable {desk : Desk} {last : Nat}

theorem sound_start : Desk.start.Sound last where
  moves := rfl
  inside := Nat.zero_le last
  looks := by simp [Desk.start]
  rounds := by simp [Desk.start]

namespace Sound

theorem withPending (sound : desk.Sound last) (notes : Notes) :
    { desk with pending := notes }.Sound last :=
  ⟨sound.moves, sound.inside, sound.looks, sound.rounds⟩

theorem look
    (sound : desk.Sound last)
    {number : Nat}
    (inside : number < last) :
    (desk.noted (.look number)).Sound last where
  moves := by
    simpa [Desk.noted, List.filterMap, Event.move?] using sound.moves
  inside := sound.inside
  looks := by
    simp only [Desk.noted, List.mem_append, List.mem_singleton, Event.look.injEq]
    rintro other (hold | rfl)
    · exact sound.looks other hold
    · exact inside
  rounds := by
    simpa [Desk.noted] using sound.rounds

theorem round
    (sound : desk.Sound last)
    {start : Nat}
    (gotOn : start < desk.number) :
    (desk.noted (.round start desk.number)).Sound last where
  moves := by
    simpa [Desk.noted, List.filterMap, Event.move?] using sound.moves
  inside := sound.inside
  looks := by
    simpa [Desk.noted] using sound.looks
  rounds := by
    simp only [Desk.noted, List.mem_append, List.mem_singleton, Event.round.injEq]
    rintro first next (hold | ⟨rfl, rfl⟩)
    · exact sound.rounds first next hold
    · exact gotOn

theorem moved (sound : desk.Sound last) (more : desk.number < last) :
    desk.moved.Sound last where
  moves := by
    simp [Desk.moved, Desk.noted, List.filterMap, Event.move?, sound.moves, List.range_succ]
  inside := more
  looks := by
    simpa [Desk.moved, Desk.noted] using sound.looks
  rounds := by
    simpa [Desk.moved, Desk.noted] using sound.rounds

end Sound

end Desk

/-! ## Places -/

/-- Lexemes of a whole text, whose end is the last of them. -/
structure Page where
  front : List Lexeme
  stop : Location
  eof : Location
  inside : NoEnd front

namespace Page

/-- All lexemes of the page. -/
def sheet (page : Page) : Sheet :=
  ⟨page.front ++ [⟨.eof, page.stop⟩], page.eof⟩

/-- The number of the end of the text. -/
def last (page : Page) : Nat :=
  page.front.length

variable {page : Page}

theorem length_sheet : page.sheet.lexemes.length = page.last + 1 := by
  simp [sheet, last]

theorem eof_iff
    {number : Nat}
    {lexeme : Lexeme}
    (found : page.sheet.lexemes[number]? = some lexeme) :
    lexeme.token = .eof ↔ number = page.last := by
  have hbound : number < page.last + 1 := by
    rw [← length_sheet]
    exact (List.getElem?_eq_some_iff.1 found).1
  by_cases hfront : number < page.last
  · have hmem : lexeme ∈ page.front := by
      rw [sheet, List.getElem?_append_left hfront] at found
      exact List.mem_of_getElem? found
    have hinside := page.inside lexeme hmem
    exact ⟨fun hend => absurd hend hinside, fun hlast => by omega⟩
  · have hlast : number = page.last := by
      omega
    subst hlast
    simp only [sheet, last, List.getElem?_concat_length, Option.some.injEq] at found
    simp [← found]

end Page

/-- The token before the lexeme of a number. -/
def tokenBefore (sheet : Sheet) : Nat → Option Token
  | 0 => none
  | before + 1 => sheet.lexemes[before]?.map Lexeme.token

/-- A desk and a cursor are at the same place of a page, and the record of the desk is sound. -/
structure Stands (page : Page) (desk : Desk) (cursor : Cursor) : Prop where
  sound : desk.Sound page.last
  ahead : cursor.ahead = page.sheet.lexemes.drop desk.number
  previous : cursor.previous = tokenBefore page.sheet desk.number
  pending : cursor.pending = desk.pending

variable {page : Page} {desk after : Desk} {cursor : Cursor}

theorem stands_start (page : Page) :
    Stands page Desk.start (Cursor.start page.eof page.sheet.lexemes) where
  sound := Desk.sound_start
  ahead := rfl
  previous := rfl
  pending := rfl

namespace Stands

theorem ahead_eq (stands : Stands page desk cursor) :
    ∃ rest,
      cursor.ahead = cursor.peek :: rest ∧
        page.sheet.lexemes[desk.number]? = some cursor.peek ∧
        rest = page.sheet.lexemes.drop (desk.number + 1) := by
  have hbound : desk.number < page.sheet.lexemes.length := by
    rw [Page.length_sheet]
    exact Nat.lt_succ_of_le stands.sound.inside
  have hahead := stands.ahead
  rw [List.drop_eq_getElem_cons hbound] at hahead
  have hpeek : cursor.peek = page.sheet.lexemes[desk.number] := by
    rw [Cursor.peek, hahead]
    rfl
  refine ⟨page.sheet.lexemes.drop (desk.number + 1), ?_, ?_, rfl⟩
  · rw [hahead, hpeek]
  · rw [hpeek, List.getElem?_eq_getElem hbound]

theorem length_ahead (stands : Stands page desk cursor) :
    cursor.ahead.length + desk.number = page.last + 1 := by
  have hinside := stands.sound.inside
  rw [stands.ahead, List.length_drop, Page.length_sheet]
  omega

/-- At least the end of the text is ahead. -/
theorem length_ahead_pos (stands : Stands page desk cursor) : 0 < cursor.ahead.length := by
  have hlength := stands.length_ahead
  have hinside := stands.sound.inside
  omega

theorem length_ahead_le (stands : Stands page desk cursor) :
    cursor.ahead.length ≤ page.sheet.lexemes.length := by
  have hlength := stands.length_ahead
  rw [Page.length_sheet]
  omega

/-- Who has less ahead has got on. -/
theorem number_lt
    {further : Cursor}
    (stands : Stands page desk cursor)
    (arrived : Stands page after further)
    (shorter : further.ahead.length < cursor.ahead.length) :
    desk.number < after.number := by
  have hbefore := stands.length_ahead
  have hafter := arrived.length_ahead
  omega

theorem eof_iff (stands : Stands page desk cursor) :
    cursor.peek.token = .eof ↔ desk.number = page.last := by
  obtain ⟨rest, _, hpeek, _⟩ := stands.ahead_eq
  exact Page.eof_iff hpeek

theorem number_lt_last (stands : Stands page desk cursor) (more : cursor.peek.token ≠ .eof) :
    desk.number < page.last :=
  Nat.lt_of_le_of_ne stands.sound.inside fun hlast => more (stands.eof_iff.2 hlast)

theorem withPending (stands : Stands page desk cursor) (notes : Notes) :
    Stands page { desk with pending := notes } { cursor with pending := notes } where
  sound := stands.sound.withPending notes
  ahead := stands.ahead
  previous := stands.previous
  pending := rfl

theorem round
    (stands : Stands page desk cursor)
    {start : Nat}
    (gotOn : start < desk.number) :
    Stands page (desk.noted (.round start desk.number)) cursor where
  sound := stands.sound.round gotOn
  ahead := stands.ahead
  previous := stands.previous
  pending := stands.pending

theorem run_peek (stands : Stands page desk cursor) :
    run peek page.sheet desk = (.ok cursor.peek, desk) := by
  obtain ⟨rest, _, hpeek, _⟩ := stands.ahead_eq
  change (Except.ok (page.sheet.lexemes[desk.number]?.getD _), desk) = _
  rw [hpeek]
  rfl

theorem run_unexpected (stands : Stands page desk cursor) {α : Type} (expected : Expected) :
    run (unexpected expected : Reader α) page.sheet desk =
      (.error (.failure (cursor.unexpected expected)), desk) := by
  unfold unexpected
  rw [run_bind_of_ok stands.run_peek]
  rfl

theorem run_bump (stands : Stands page desk cursor) (more : cursor.peek.token ≠ .eof) :
    run bump page.sheet desk = (.ok (), desk.moved) := by
  have hbound := stands.number_lt_last more
  unfold bump
  rw [run_number_bind]
  change run (if desk.number < page.sheet.lexemes.length then _ else _) _ _ = _
  rw [if_pos (by rw [Page.length_sheet]; omega)]
  rfl

/-- A cursor reads the lexeme ahead. Where it is not the end of the text, a desk goes past it. -/
theorem exists_next (stands : Stands page desk cursor) :
    ∃ next,
      cursor.next? = some next ∧
        next.value = cursor.peek ∧
        (cursor.peek.token ≠ .eof → Stands page desk.moved next.after) := by
  obtain ⟨rest, hahead, hpeek, hrest⟩ := stands.ahead_eq
  obtain ⟨next, hnext, hvalue⟩ := Cursor.exists_next? hahead
  refine ⟨next, hnext, hvalue, fun hmore => ?_⟩
  obtain ⟨previous, lexemes, eof, waiting⟩ := cursor
  cases lexemes with
  | nil =>
      simp at hahead
  | cons lexeme others =>
      simp only [Cursor.next?, Option.some.injEq] at hnext
      subst hnext
      exact
        { sound := stands.sound.moved (stands.number_lt_last hmore)
          ahead := (List.cons.inj hahead).2.trans hrest
          previous := by
            simp [tokenBefore, Desk.moved, hpeek, Cursor.peek]
          pending := stands.pending }

/-- A desk looks back at the lexeme before. -/
theorem exists_atLineStart (stands : Stands page desk cursor) :
    ∃ after,
      run atLineStart page.sheet desk = (.ok cursor.atLineStart, after) ∧
        Stands page after cursor := by
  have hprevious := stands.previous
  unfold atLineStart
  rw [run_number_bind]
  cases hnumber : desk.number with
  | zero =>
      rw [hnumber, tokenBefore] at hprevious
      refine ⟨desk, ?_, stands⟩
      simp [Cursor.atLineStart, hprevious, run_pure]
  | succ before =>
      have hinside : before < page.last := by
        have := stands.sound.inside
        omega
      have hbound : before < page.sheet.lexemes.length := by
        rw [Page.length_sheet]
        omega
      rw [hnumber, tokenBefore, List.getElem?_eq_getElem hbound] at hprevious
      refine ⟨desk.noted (.look before), ?_, ?_⟩
      · change (Except.ok (page.sheet.lexemes[before]?.any _), _) = _
        rw [List.getElem?_eq_getElem hbound]
        simp [Cursor.atLineStart, hprevious]
      · exact
          { sound := stands.sound.look hinside
            ahead := stands.ahead
            previous := stands.previous
            pending := stands.pending }

end Stands

/-! ## What is found -/

/-- What a reader by number finds matches an outcome of a reader of cursors: both succeed and
`holds` relates the values and the desk, or both fail for the same reason. -/
inductive Matches {α β : Type} (page : Page) (holds : α → β → Desk → Prop) :
    Except Failure α → Except Stop β × Desk → Prop
  | ok
      {value : α}
      {found : β}
      {desk : Desk}
      (related : holds value found desk) :
      Matches page holds (.ok value) (.ok found, desk)
  | error
      {failure : Failure}
      {desk : Desk}
      (sound : desk.Sound page.last) :
      Matches page holds (.error failure) (.error (.failure failure), desk)

/-- An advance and a reader by number arrive at the same place with the same value. -/
structure Arrives
    {α : Type}
    (page : Page)
    (advance : Advance cursor α)
    (found : α)
    (desk : Desk) : Prop where
  value : advance.value = found
  stands : Stands page desk advance.after

/-- A reader by number follows a reader of cursors from each place of a page. -/
def Follows
    {α : Type}
    (page : Page)
    (read : (cursor : Cursor) → Except Failure (Advance cursor α))
    (reader : Reader α) : Prop :=
  ∀ desk cursor, Stands page desk cursor →
    Matches page (Arrives page) (read cursor) (run reader page.sheet desk)

namespace Matches

variable {α β γ δ : Type} {holds : α → β → Desk → Prop} {outcome : Except Failure α}

theorem imp
    {result : Except Stop β × Desk}
    {other : α → β → Desk → Prop}
    (compared : Matches page holds outcome result)
    (weaker : ∀ value found desk, holds value found desk → other value found desk) :
    Matches page other outcome result := by
  cases compared with
  | ok related => exact .ok (weaker _ _ _ related)
  | error sound => exact .error sound

/-- What is found may be seen in another way. -/
theorem map
    {result : Except Stop β × Desk}
    {other : γ → β → Desk → Prop}
    {next : α → Except Failure γ}
    (compared : Matches page holds outcome result)
    (transfer : ∀ value found desk, holds value found desk →
      ∃ image, next value = .ok image ∧ other image found desk) :
    Matches page other (outcome >>= next) result := by
  cases compared with
  | ok related =>
      obtain ⟨image, hnext, himage⟩ := transfer _ _ _ related
      change Matches page other (next _) _
      rw [hnext]
      exact .ok himage
  | error sound =>
      exact .error sound

/-- What comes after what matches has to hold of both ways that it may end. -/
theorem run_bind
    {reader : Reader β}
    {later : β → Reader δ}
    {goal : Except Stop δ × Desk → Prop}
    (compared : Matches page holds outcome (run reader page.sheet desk))
    (fails : ∀ failure after,
      outcome = .error failure → after.Sound page.last → goal (.error (.failure failure), after))
    (succeeds : ∀ value found after,
      outcome = .ok value → holds value found after →
        goal (run (later found) page.sheet after)) :
    goal (run (reader >>= later) page.sheet desk) := by
  generalize hresult : run reader page.sheet desk = result at compared
  cases compared with
  | ok related =>
      rw [run_bind_of_ok hresult]
      exact succeeds _ _ _ rfl related
  | error sound =>
      rw [run_bind_of_error hresult]
      exact fails _ _ rfl sound

/-- Readers that go on alike from what matches find what matches. -/
theorem bind
    {reader : Reader β}
    {next : α → Except Failure γ}
    {later : β → Reader δ}
    {other : γ → δ → Desk → Prop}
    (compared : Matches page holds outcome (run reader page.sheet desk))
    (succeeds : ∀ value found after, holds value found after →
      Matches page other (next value) (run (later found) page.sheet after)) :
    Matches page other (outcome >>= next) (run (reader >>= later) page.sheet desk) := by
  refine compared.run_bind ?_ ?_
  · intro failure after houtcome hsound
    subst houtcome
    exact .error hsound
  · intro value found after houtcome hrelated
    subst houtcome
    exact succeeds value found after hrelated

/-- A reader that is followed may come after an advance. -/
theorem andThen
    {read : (cursor : Cursor) → Except Failure (Advance cursor α)}
    {reader : Reader α}
    (first : Advance cursor γ)
    (follows : Follows page read reader)
    (stands : Stands page desk first.after) :
    Matches page (Arrives page) (first.andThen read) (run reader page.sheet desk) := by
  have hcompared := follows desk first.after stands
  unfold Advance.andThen
  generalize hread : read first.after = outcome at hcompared
  generalize run reader page.sheet desk = result at hcompared
  cases hcompared with
  | ok related =>
      exact .ok ⟨related.value, related.stands⟩
  | error sound =>
      exact .error sound

end Matches

/-! ## Single lexemes -/

section Single

variable {α β : Type} {goal : Except Stop β × Desk → Prop}

/-- A given token is taken if it is ahead. -/
theorem Stands.take
    {token : Token}
    {found other : Reader β}
    (stands : Stands page desk cursor)
    (inside : token ≠ .eof)
    (taken : ∀ advance after,
      cursor.take? token = some advance → Arrives page advance cursor.peek.location after →
        goal (run found page.sheet after))
    (missing : cursor.take? token = none → cursor.peek.token ≠ token →
      goal (run other page.sheet desk)) :
    goal
      (run (if cursor.peek.token = token then bump >>= fun _ => found else other)
        page.sheet desk) := by
  by_cases htoken : cursor.peek.token = token
  · have hmore : cursor.peek.token ≠ .eof := htoken ▸ inside
    obtain ⟨next, hnext, hvalue, hmoved⟩ := stands.exists_next
    rw [if_pos htoken, run_bind_of_ok (stands.run_bump hmore)]
    refine taken (next.map Lexeme.location) desk.moved ?_ ⟨?_, hmoved hmore⟩
    · simp [Cursor.take?, hnext, hvalue, htoken]
    · simp [hvalue]
  · rw [if_neg htoken]
    refine missing ?_ htoken
    obtain ⟨rest, hahead, _, _⟩ := stands.ahead_eq
    rw [Cursor.take?_eq_none_iff]
    intro place more hother
    rw [hahead, List.cons.injEq] at hother
    exact htoken (by rw [hother.1])

/-- What is picked by a cursor is picked from the lexeme that is seen, and a desk goes past it. -/
theorem Stands.of_select?
    {pick : Token → Option α}
    {found : Advance cursor (α × Location)}
    (stands : Stands page desk cursor)
    (selected : cursor.select? pick = some found) :
    pick cursor.peek.token = some found.value.1 ∧
      cursor.peek.location = found.value.2 ∧
      (cursor.peek.token ≠ .eof → Stands page desk.moved found.after) := by
  obtain ⟨next, hnext, hvalue, hmoved⟩ := stands.exists_next
  rw [Cursor.select?, hnext] at selected
  obtain ⟨value, hpick, rfl⟩ := Option.map_eq_some_iff.1 selected
  rw [hvalue] at hpick
  exact ⟨hpick, by simp [hvalue], hmoved⟩

theorem Stands.of_select?_eq_none
    {pick : Token → Option α}
    (stands : Stands page desk cursor)
    (missing : cursor.select? pick = none) :
    pick cursor.peek.token = none := by
  obtain ⟨rest, hahead, _, _⟩ := stands.ahead_eq
  exact Cursor.select?_eq_none_iff.1 missing _ _ hahead

/-- What a token ahead is picked for is read. -/
theorem select_follows
    {pick : Token → Option α}
    (expected : Expected)
    (inside : pick .eof = none) :
    Follows page (fun cursor => cursor.select expected pick) (select expected pick) := by
  intro desk cursor hstands
  unfold select Cursor.select
  rw [run_bind_of_ok hstands.run_peek]
  cases hselect : cursor.select? pick with
  | none =>
      simp only [hselect, hstands.of_select?_eq_none hselect, hstands.run_unexpected]
      exact .error hstands.sound
  | some found =>
      obtain ⟨hpick, hplace, hmoved⟩ := hstands.of_select? hselect
      have hmore : cursor.peek.token ≠ .eof := by
        intro hend
        rw [hend, inside] at hpick
        simp at hpick
      simp only [hselect, hpick]
      rw [run_bind_of_ok (hstands.run_bump hmore), hplace]
      exact .ok ⟨rfl, hmoved hmore⟩

theorem ident_follows (expected : Expected) :
    Follows page (fun cursor => cursor.ident expected) (ident expected) :=
  select_follows expected rfl

/-- A token that must be ahead is read. -/
theorem expect_follows {token : Token} (inside : token ≠ .eof) :
    Follows page (fun cursor => cursor.expect token) (expect token) := by
  intro desk cursor hstands
  unfold expect
  rw [run_bind_of_ok hstands.run_peek]
  refine hstands.take inside ?_ ?_
  · intro advance after htake harrives
    simp only [Cursor.expect, htake]
    exact .ok harrives
  · intro htake _
    simp only [Cursor.expect, htake, hstands.run_unexpected]
    exact .error hstands.sound

end Single

/-! ## Loops -/

section Loops

variable {α σ : Type}

/-- A round of a loop. `goal` says what the loop has to come to from a state at a place. The round
may decide this at once. Or it goes on from a place with less ahead and a state that still `keeps`
what the rounds need, and then what the loop comes to from there decides it. -/
inductive Round
    (page : Page)
    (keeps : σ → Prop)
    (goal : σ → Cursor → Except Stop α × Desk → Prop)
    (state : σ)
    (cursor : Cursor) :
    Except Stop (σ ⊕ α) × Desk → Prop
  | ends
      {value : α}
      {desk : Desk}
      (decided : goal state cursor (.ok value, desk)) :
      Round page keeps goal state cursor (.ok (.inr value), desk)
  | fails
      {stop : Stop}
      {desk : Desk}
      (decided : goal state cursor (.error stop, desk)) :
      Round page keeps goal state cursor (.error stop, desk)
  | goesOn
      {next : σ}
      {desk : Desk}
      {further : Cursor}
      (stands : Stands page desk further)
      (shorter : further.ahead.length < cursor.ahead.length)
      (kept : keeps next)
      (decides : ∀ result, goal next further result → goal state cursor result) :
      Round page keeps goal state cursor (.ok (.inl next), desk)

/-- Each round of a loop is a step to its goal. -/
def Steps
    (page : Page)
    (keeps : σ → Prop)
    (goal : σ → Cursor → Except Stop α × Desk → Prop)
    (round : σ → Reader (σ ⊕ α)) : Prop :=
  ∀ state desk cursor, keeps state → Stands page desk cursor →
    Round page keeps goal state cursor (run (round state) page.sheet desk)

variable
  {keeps : σ → Prop}
  {goal : σ → Cursor → Except Stop α × Desk → Prop}
  {round : σ → Reader (σ ⊕ α)}
  {state : σ}

/-- A loop comes to its goal within as many rounds as there are lexemes ahead. -/
theorem rounds_follow
    (steps : Steps page keeps goal round)
    (kept : keeps state)
    (stands : Stands page desk cursor)
    {more : Nat}
    (enough : cursor.ahead.length ≤ more) :
    goal state cursor (run (rounds round more state) page.sheet desk) := by
  induction more generalizing desk cursor state with
  | zero =>
      have hahead := stands.length_ahead_pos
      omega
  | succ more ih =>
      have hround := steps state desk cursor kept stands
      unfold rounds
      rw [run_number_bind]
      generalize hresult : run (round state) page.sheet desk = result at hround
      cases hround with
      | ends decided =>
          rw [run_bind_of_ok hresult]
          exact decided
      | fails decided =>
          rw [run_bind_of_error hresult]
          exact decided
      | goesOn arrived shorter stays decides =>
          rw [run_bind_of_ok hresult]
          -- The round is put on record before the next one begins.
          have hrecorded := arrived.round (stands.number_lt arrived shorter)
          exact decides _ (ih stays hrecorded (by omega))

theorem loop_follows
    (steps : Steps page keeps goal round)
    (kept : keeps state)
    (stands : Stands page desk cursor) :
    goal state cursor (run (loop round state) page.sheet desk) :=
  rounds_follow steps kept stands stands.length_ahead_le

end Loops

end Numbered
end InterfaceSchema
