import InterfaceSchema.Proofs.Reading.Annotation

/-!
# Reading blocks

* `Cursor.trivia?_sound`, `Cursor.trivia?_complete`: line feeds and comments.
* `Grammar.entry_sound`, `Grammar.entry_of_filler`, `Grammar.entry_of_item`: one entry of a body.
* `Grammar.block_sound`, `Grammar.block_complete`: a body up to its closing brace consists of just
  the phrases `Entries`, for every kind of item whose reader is exact.
-/

namespace InterfaceSchema

/-! ## Trivia -/

namespace Cursor

variable {cursor : Cursor}

theorem trivia?_sound
    {passed : Advance cursor Unit}
    (found : cursor.trivia? = some passed) :
    ∃ taken next, Trivia cursor.margin taken next ∧ passed.Covers taken next := by
  unfold trivia? at found
  split at found
  · simp at found
  · next next hnext =>
    have hcovers := next?_covers hnext
    split at found
    · next hnewline =>
      simp only [Option.some.injEq] at found
      subst found
      have hlexeme : next.value = ⟨.newline, next.value.location⟩ := by
        rw [← hnewline]
      rw [hlexeme] at hcovers
      exact ⟨_, _, .newline cursor.margin next.value.location, (hcovers.map _).withPending _⟩
    · next text hcomment =>
      simp only [Option.some.injEq] at found
      subst found
      have hlexeme : next.value = ⟨.comment text, next.value.location⟩ := by
        rw [← hcomment]
      rw [hlexeme] at hcovers
      exact ⟨_, _, .comment cursor.margin text next.value.location, (hcovers.map _).withPending _⟩
    · simp at found

theorem trivia?_complete
    {next : Margin}
    {taken rest : List Lexeme}
    (passed : Trivia cursor.margin taken next)
    (ahead : cursor.ahead = taken ++ rest) :
    ∃ result, cursor.trivia? = some result ∧ result.Covers taken next := by
  obtain ⟨lexeme, htaken, hkind⟩ := passed.singleton
  have hhead : cursor.ahead = lexeme :: rest := by
    rw [ahead, htaken]
    rfl
  obtain ⟨advance, hnext, hvalue⟩ := exists_next? hhead
  have hcovers := next?_covers hnext
  cases passed with
  | newline place =>
      simp only [List.cons.injEq, and_true] at htaken
      subst htaken
      rw [hvalue] at hcovers
      refine ⟨_, ?_, (hcovers.map fun _ => ()).withPending _⟩
      simp only [trivia?, hnext, hvalue]
      rfl
  | comment text place =>
      simp only [List.cons.injEq, and_true] at htaken
      subst htaken
      rw [hvalue] at hcovers
      refine ⟨_, ?_, (hcovers.map fun _ => ()).withPending _⟩
      simp only [trivia?, hnext, hvalue]
      rfl

theorem trivia?_eq_none
    {lexeme : Lexeme}
    {rest : List Lexeme}
    (ahead : cursor.ahead = lexeme :: rest)
    (noBreak : lexeme.token ≠ .newline)
    (noComment : ∀ text, lexeme.token ≠ .comment text) :
    cursor.trivia? = none := by
  obtain ⟨next, hnext, rfl⟩ := exists_next? ahead
  unfold trivia?
  rw [hnext]
  dsimp only
  split
  · next hnewline =>
    exact absurd hnewline noBreak
  · next text hcomment =>
    exact absurd hcomment (noComment text)
  · rfl

end Cursor

/-! ## Entries -/

namespace Grammar

/-- Before an annotation stands nothing but its name. -/
theorem exists_atName
    {cursor : Cursor}
    {text : String}
    {start : Location}
    {rest : List Lexeme}
    (ahead : cursor.ahead = ⟨.atName text, start⟩ :: rest) :
    ∃ name,
      cursor.trivia? = none ∧
        cursor.select? Token.atName? = some name ∧
        name.value = (text, start) ∧
        name.Covers [⟨.atName text, start⟩] ⟨false, cursor.pending⟩ := by
  obtain ⟨found, hfound, hvalue⟩ :=
    Cursor.exists_select? ahead (Token.atName?_eq_some_iff.2 rfl)
  obtain ⟨token, htoken, hcovers⟩ := Cursor.select?_covers rfl hfound
  rw [Token.atName?_eq_some_iff] at htoken
  subst htoken
  rw [hvalue] at hcovers
  exact ⟨found, Cursor.trivia?_eq_none ahead (by simp) (by simp), hfound, hvalue, hcovers⟩

section Entry

variable
  {α : Type}
  {item : Item α}
  {Phrase : Notes → List Lexeme → α → Prop}
  {cursor : Cursor}

theorem entry_sound
    (reads : Reads item Phrase (fun _ => Notes.none) Anything)
    {found : Advance cursor (Option α)}
    (succeeds : entry item cursor = .ok found) :
    (∃ taken next,
        Filler cursor.margin taken next ∧ found.value = none ∧ found.Covers taken next) ∨
      ∃ taken value,
        Phrase cursor.pending taken value ∧
          found.value = some value ∧ found.Covers taken .clear := by
  unfold entry at succeeds
  split at succeeds
  · next passed hpassed =>
    simp only [Except.ok.injEq] at succeeds
    subst succeeds
    obtain ⟨taken, next, htrivia, hcovers⟩ := Cursor.trivia?_sound hpassed
    exact Or.inl ⟨taken, next, .trivia htrivia, rfl, hcovers.map _⟩
  · split at succeeds
    · next name hname =>
      simp only [bind_eq_ok_iff, Except.ok.injEq] at succeeds
      obtain ⟨passed, hpassed, rfl⟩ := succeeds
      obtain ⟨token, htoken, hcovers⟩ := Cursor.select?_covers rfl hname
      rw [Token.atName?_eq_some_iff] at htoken
      subst htoken
      obtain ⟨taken, mark, hmarked, hlast⟩ := annotationRest_sound hcovers hpassed
      exact Or.inl ⟨taken, _, .noted cursor.margin hmarked, rfl, hlast.map _⟩
    · simp only [bind_eq_ok_iff, Except.ok.injEq] at succeeds
      obtain ⟨result, hresult, rfl⟩ := succeeds
      obtain ⟨taken, hspelled, hcovers⟩ := reads.sound hresult
      exact Or.inr ⟨taken, result.value, hspelled, rfl, hcovers.map _⟩

theorem entry_of_filler
    {next : Margin}
    {taken rest : List Lexeme}
    (passed : Filler cursor.margin taken next)
    (stops : NoToken .leftParen rest)
    (ahead : cursor.ahead = taken ++ rest) :
    ∃ found,
      entry item cursor = .ok found ∧ found.value = none ∧ found.Covers taken next := by
  cases passed with
  | trivia passed =>
      obtain ⟨result, hresult, hcovers⟩ := Cursor.trivia?_complete passed ahead
      refine ⟨result.map fun _ => none, ?_, rfl, hcovers.map _⟩
      simp only [entry, hresult]
  | noted _ marked =>
      obtain ⟨name, place, more, rfl⟩ := marked.opens
      obtain ⟨found, hnone, hfound, hvalue, hcovers⟩ := exists_atName ahead
      obtain ⟨rfl, rfl⟩ := Prod.mk.inj hvalue
      obtain ⟨result, hresult, hlast⟩ := annotationRest_complete hcovers marked stops ahead
      refine ⟨result.map fun _ => none, ?_, rfl, hlast.map _⟩
      simp only [entry, hnone, hfound, bind_eq_ok_iff]
      exact ⟨result, hresult, rfl⟩

theorem entry_of_item
    (reads : Reads item Phrase (fun _ => Notes.none) Anything)
    (opens : OpensWithName Phrase)
    {taken rest : List Lexeme}
    {value : α}
    (spelled : Phrase cursor.pending taken value)
    (ahead : cursor.ahead = taken ++ rest) :
    ∃ found,
      entry item cursor = .ok found ∧ found.value = some value ∧ found.Covers taken .clear := by
  obtain ⟨result, hresult, rfl, hcovers⟩ := reads.complete _ _ _ spelled trivial ahead
  obtain ⟨name, place, more, rfl⟩ := opens _ _ _ spelled
  have hnone : cursor.trivia? = none :=
    Cursor.trivia?_eq_none ahead (by simp) (by simp)
  have hnoName : cursor.select? Token.atName? = none := by
    rw [Cursor.select?_eq_none_iff]
    intro lexeme later hahead
    rw [ahead] at hahead
    simp only [List.cons_append, List.cons.injEq] at hahead
    rw [← hahead.1]
    rfl
  refine ⟨result.map some, ?_, rfl, hcovers.map _⟩
  simp only [entry, hnone, hnoName, bind_eq_ok_iff]
  exact ⟨result, hresult, rfl⟩

end Entry

/-! ## Bodies -/

section Block

variable
  {α : Type}
  {item : Item α}
  {Phrase : Notes → List Lexeme → α → Prop}
  {cursor : Cursor}

/-- A body goes on behind its first entry. -/
theorem block_of_entry
    {found : Advance cursor (Option α)}
    {later : Advance found.after (List α × Location)}
    (noBrace : cursor.take? .rightBrace = none)
    (first : entry item cursor = .ok found)
    (rest : block item found.after = .ok later) :
    block item cursor =
      .ok ((found.followedBy later).map fun (items, close) =>
        (found.value.toList ++ items, close)) := by
  rw [block, noBrace]
  simp only [bind_eq_ok_iff]
  exact ⟨found, first, later, rest, rfl⟩

theorem block_sound
    (reads : Reads item Phrase (fun _ => Notes.none) Anything)
    {result : Advance cursor (List α × Location)}
    (succeeds : block item cursor = .ok result) :
    ∃ body notes,
      Entries Phrase cursor.margin body result.value.1 ∧
        result.Covers (body ++ [⟨.rightBrace, result.value.2⟩]) ⟨false, notes⟩ := by
  induction cursor using block.induct with
  | case1 cursor close hclose =>
      rw [block, hclose] at succeeds
      simp only [Except.ok.injEq] at succeeds
      subst succeeds
      exact
        ⟨[], _, .nil _, (Cursor.take?_covers (by simp) hclose).map fun place => ([], place)⟩
  | case2 cursor hnone ih =>
      rw [block, hnone] at succeeds
      simp only [bind_eq_ok_iff, Except.ok.injEq] at succeeds
      obtain ⟨found, hfound, later, hlater, rfl⟩ := succeeds
      obtain ⟨body, notes, hentries, hlast⟩ := ih found hlater
      rcases entry_sound reads hfound with
        ⟨taken, next, hfiller, hvalue, hcovers⟩ | ⟨taken, value, hspelled, hvalue, hcovers⟩
      · rw [hcovers.margin] at hentries
        refine ⟨taken ++ body, notes, ?_, ?_⟩
        · simp only [Advance.value_map, Advance.value_followedBy, hvalue]
          exact .filler hfiller hentries
        · rw [List.append_assoc]
          exact (hcovers.followedBy hlast).map _
      · rw [hcovers.margin] at hentries
        refine ⟨taken ++ body, notes, ?_, ?_⟩
        · simp only [Advance.value_map, Advance.value_followedBy, hvalue]
          exact .item hspelled hentries
        · rw [List.append_assoc]
          exact (hcovers.followedBy hlast).map _

/-- A closing brace opens neither a filler nor an item. -/
theorem rightBrace_opensNothing : Token.OpensNothing .rightBrace := by
  constructor <;> simp

theorem leftParen_opensNothing : Token.OpensNothing .leftParen := by
  constructor <;> simp

theorem block_complete
    (reads : Reads item Phrase (fun _ => Notes.none) Anything)
    (opens : OpensWithName Phrase)
    {margin : Margin}
    {body rest : List Lexeme}
    {items : List α}
    {close : Location}
    (entries : Entries Phrase margin body items)
    (stands : cursor.margin = margin)
    (ahead : cursor.ahead = body ++ ⟨.rightBrace, close⟩ :: rest) :
    ∃ result notes,
      block item cursor = .ok result ∧
        result.value = (items, close) ∧
        result.Covers (body ++ [⟨.rightBrace, close⟩]) ⟨false, notes⟩ := by
  induction entries generalizing cursor with
  | nil margin =>
      obtain ⟨found, hfound, rfl⟩ := Cursor.exists_take? ahead
      refine
        ⟨found.map fun place => ([], place), _, ?_, rfl,
          (Cursor.take?_covers (by simp) hfound).map _⟩
      rw [block, hfound]
  | @filler margin next taken body items passed later ih =>
      subst stands
      have hstop : NoToken .leftParen (body ++ ⟨.rightBrace, close⟩ :: rest) :=
        later.noToken opens leftParen_opensNothing (noToken_cons (by simp))
      rw [List.append_assoc] at ahead
      obtain ⟨found, hfound, hvalue, hcovers⟩ := entry_of_filler passed hstop ahead
      obtain ⟨result, notes, hresult, hitems, hlast⟩ :=
        ih hcovers.margin (hcovers.rest_eq ahead)
      have hnone : cursor.take? .rightBrace = none := by
        rw [Cursor.take?_eq_none_iff, ahead]
        exact passed.noToken rightBrace_opensNothing
      refine ⟨_, notes, block_of_entry hnone hfound hresult, ?_, ?_⟩
      · simp [hitems, hvalue]
      · rw [List.append_assoc]
        exact (hcovers.followedBy hlast).map _
  | @item margin taken body value items spelled later ih =>
      subst stands
      rw [List.append_assoc] at ahead
      obtain ⟨found, hfound, hvalue, hcovers⟩ := entry_of_item reads opens spelled ahead
      obtain ⟨result, notes, hresult, hitems, hlast⟩ :=
        ih hcovers.margin (hcovers.rest_eq ahead)
      have hnone : cursor.take? .rightBrace = none := by
        rw [Cursor.take?_eq_none_iff, ahead]
        exact opens.noToken (by simp) spelled
      refine ⟨_, notes, block_of_entry hnone hfound hresult, ?_, ?_⟩
      · simp [hitems, hvalue]
      · rw [List.append_assoc]
        exact (hcovers.followedBy hlast).map _

end Block

end Grammar
end InterfaceSchema
