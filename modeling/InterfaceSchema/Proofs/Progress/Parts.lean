import InterfaceSchema.Proofs.Progress.Follows
import InterfaceSchema.Proofs.Reading.Block

/-!
# Progress in the parts of a declaration

The readers by number of names, types, annotations and bodies follow those of cursors.

* Each loop goes on only from places with less ahead: a dotted name from behind a part, the values
  of an annotation from behind a word or a comma, a body from behind an entry.
* `fieldType_follows`: a type inside a type begins further on than the type around it, so that no
  more types are around one another than there are lexemes.
-/

namespace InterfaceSchema
namespace Numbered

variable {page : Page} {desk : Desk} {cursor : Cursor}

/-! ## Names and types -/

section Names

/-- What the loop of a dotted name has to come to from its first parts. -/
def DottedGoal
    (page : Page)
    (cursor : Cursor)
    (text : String)
    (here : Cursor)
    (result : Except Stop String × Desk) : Prop :=
  ∀ name : Advance cursor String, name.value = text → name.after = here →
    Matches page (Arrives page) (Grammar.dottedRest name) result

theorem dottedRound_steps :
    Steps page (fun _ => True) (DottedGoal page cursor) dottedRound := by
  intro text desk here _ hstands
  unfold dottedRound
  rw [run_bind_of_ok hstands.run_peek]
  refine hstands.take (by simp) ?_ ?_
  · intro dot behind hdot harrives
    refine (ident_follows .identifier _ _ harrives.stands).run_bind ?_ ?_
    · intro failure last hpart hsound
      refine .fails ?_
      rintro name rfl rfl
      rw [Grammar.dottedRest, hdot]
      simp only [hpart]
      exact .error hsound
    · rintro part _ last hpart ⟨rfl, hpassed⟩
      refine .goesOn hpassed (Nat.lt_trans part.shorter dot.shorter) trivial ?_
      intro result hgoal
      rintro name rfl rfl
      rw [Grammar.dottedRest, hdot]
      simp only [hpart]
      exact hgoal _ rfl rfl
  · intro hnone _
    refine .ends ?_
    rintro name rfl rfl
    rw [Grammar.dottedRest, hnone]
    exact .ok ⟨rfl, hstands⟩

theorem dottedRest_follows
    (name : Advance cursor String)
    (stands : Stands page desk name.after) :
    Matches page (Arrives page) (Grammar.dottedRest name)
      (run (dottedRest name.value) page.sheet desk) :=
  loop_follows dottedRound_steps trivial stands name rfl rfl

theorem dottedName_follows (expected : Expected) :
    Follows page (fun cursor => Grammar.dottedName cursor expected) (dottedName expected) := by
  intro desk cursor hstands
  refine (ident_follows expected desk cursor hstands).bind ?_
  rintro first _ behind ⟨rfl, hbehind⟩
  exact dottedRest_follows (first.map Prod.fst) hbehind

theorem mapKey_follows : Follows page Grammar.mapKey mapKey := by
  intro desk cursor hstands
  refine (ident_follows .mapKey desk cursor hstands).bind ?_
  rintro name _ behind ⟨rfl, hbehind⟩
  cases (Primitive.ofName? name.value.1).filter Primitive.isMapKey with
  | some key => exact .ok ⟨rfl, hbehind⟩
  | none => exact .error hbehind.sound

/-- A type is followed if the types inside it are, which begin further on. -/
theorem typeAround_follows
    {inner : Reader FieldType}
    (stands : Stands page desk cursor)
    (insides : ∀ after further, Stands page after further →
      further.ahead.length < cursor.ahead.length →
        Matches page (Arrives page) (Grammar.fieldType further) (run inner page.sheet after)) :
    Matches page (Arrives page) (Grammar.fieldType cursor)
      (run (typeAround inner) page.sheet desk) := by
  rw [Grammar.fieldType]
  refine (ident_follows .fieldType desk cursor stands).bind ?_
  rintro name _ behind ⟨rfl, hname⟩
  cases Primitive.ofName? name.value.1 with
  | some primitive => exact .ok ⟨rfl, hname⟩
  | none =>
      dsimp only
      by_cases harray : Token.ident name.value.1 = Token.arrayWord
      · simp only [if_pos harray]
        refine (Matches.andThen name (expect_follows (by simp)) hname).bind ?_
        rintro opening _ _ ⟨_, hopening⟩
        refine (insides _ _ hopening opening.shorter).bind ?_
        rintro element _ _ ⟨rfl, helement⟩
        have hend : Stands page _ (opening.followedBy element).after := helement
        refine (Matches.andThen _ (expect_follows (by simp)) hend).bind ?_
        rintro close _ _ ⟨_, hclose⟩
        exact .ok ⟨rfl, hclose⟩
      · by_cases hmap : Token.ident name.value.1 = Token.mapWord
        · simp only [if_neg harray, if_pos hmap]
          refine (Matches.andThen name (expect_follows (by simp)) hname).bind ?_
          rintro opening _ _ ⟨_, hopening⟩
          refine (Matches.andThen opening mapKey_follows hopening).bind ?_
          rintro key _ _ ⟨rfl, hkey⟩
          refine (Matches.andThen key (expect_follows (by simp)) hkey).bind ?_
          rintro comma _ _ ⟨_, hcomma⟩
          refine (insides _ _ hcomma comma.shorter).bind ?_
          rintro value _ _ ⟨rfl, hvalue⟩
          have hend : Stands page _ (comma.followedBy value).after := hvalue
          refine (Matches.andThen _ (expect_follows (by simp)) hend).bind ?_
          rintro close _ _ ⟨_, hclose⟩
          exact .ok ⟨rfl, hclose⟩
        · simp only [if_neg harray, if_neg hmap]
          refine (dottedRest_follows (name.map Prod.fst) hname).bind ?_
          rintro reference _ _ ⟨rfl, hreference⟩
          exact .ok ⟨rfl, hreference⟩

theorem typeWithin_follows
    {depth : Nat}
    (stands : Stands page desk cursor)
    (enough : cursor.ahead.length ≤ depth) :
    Matches page (Arrives page) (Grammar.fieldType cursor)
      (run (typeWithin depth) page.sheet desk) := by
  induction depth generalizing desk cursor with
  | zero =>
      have hahead := stands.length_ahead_pos
      omega
  | succ depth ih =>
      unfold typeWithin
      rw [run_number_bind]
      refine (typeAround_follows stands ?_).run_bind ?_ ?_
      · intro after further harrived hshorter
        exact ih (harrived.round (stands.number_lt harrived hshorter)) (by omega)
      · intro failure after hfailure hsound
        rw [hfailure]
        exact .error hsound
      · rintro type _ after htype ⟨rfl, harrived⟩
        rw [htype]
        exact .ok ⟨rfl, harrived.round (stands.number_lt harrived type.shorter)⟩

theorem fieldType_follows : Follows page Grammar.fieldType fieldType := by
  intro desk cursor hstands
  exact typeWithin_follows hstands hstands.length_ahead_le

end Names

/-! ## Between items -/

section Between

theorem ne_eof_of_isIdle {token : Token} (idle : isIdle token = true) : token ≠ .eof := by
  intro hend
  simp [hend, isIdle] at idle

/-- A line feed or a comment is passed alike, and leaves the same notes. -/
theorem exists_trivia (stands : Stands page desk cursor) (idle : isIdle cursor.peek.token = true) :
    ∃ passed after,
      cursor.trivia? = some passed ∧
        run trivia page.sheet desk = (.ok (), after) ∧ Stands page after passed.after := by
  have hmore := ne_eof_of_isIdle idle
  obtain ⟨looked, hlook, hlooked⟩ := stands.exists_atLineStart
  obtain ⟨next, hnext, hvalue, hstands⟩ := hlooked.exists_next
  have hbump := hlooked.run_bump hmore
  unfold trivia Cursor.trivia?
  rw [run_bind_of_ok stands.run_peek]
  simp only [hnext, hvalue, hlooked.pending]
  cases htoken : cursor.peek.token with
  | newline =>
      refine ⟨_, _, rfl, ?_, (hstands hmore).withPending _⟩
      simp only [run_bind_of_ok hlook]
      by_cases hstart : cursor.atLineStart = true
      · simp only [if_pos hstart, run_setWaiting_bind]
        exact (hlooked.withPending _).run_bump hmore
      · simp only [if_neg hstart, hbump]
        rfl
  | comment text =>
      refine ⟨_, _, rfl, ?_, (hstands hmore).withPending _⟩
      simp only [run_bind_of_ok hlook]
      by_cases hstart : cursor.atLineStart = true
      · simp only [if_pos hstart, run_setWaiting_bind, run_waiting_bind]
        exact (hlooked.withPending _).run_bump hmore
      · simp only [if_neg hstart, hbump, List.append_nil]
        rfl
  | _ => simp [htoken, isIdle] at idle

theorem trivia?_eq_none
    (stands : Stands page desk cursor)
    (busy : isIdle cursor.peek.token = false) :
    cursor.trivia? = none := by
  obtain ⟨rest, hahead, _, _⟩ := stands.ahead_eq
  refine Cursor.trivia?_eq_none hahead ?_ ?_
  · intro hnewline
    simp [hnewline, isIdle] at busy
  · intro text hcomment
    simp [hcomment, isIdle] at busy

/-- An advance takes a reader behind things that it has found before. -/
structure ArrivesBehind
    {α β : Type}
    (page : Page)
    (before : List α)
    (advance : Advance cursor (List α × β))
    (found : List α × β)
    (desk : Desk) : Prop where
  value : found = (before ++ advance.value.1, advance.value.2)
  stands : Stands page desk advance.after

theorem ArrivesBehind.arrives
    {α β : Type}
    {advance : Advance cursor (List α × β)}
    {found : List α × β}
    (behind : ArrivesBehind page [] advance found desk) :
    Arrives page advance found desk :=
  ⟨behind.value.symm, behind.stands⟩

/-- What the loop of annotation values has to come to from complete values and the words of one that
has been begun. -/
def ValuesGoal
    (page : Page)
    (state : List String × List String)
    (here : Cursor)
    (result : Except Stop (List String × Location) × Desk) : Prop :=
  Matches page (ArrivesBehind page state.1) (Grammar.annotationValues here state.2) result

theorem valueRound_steps :
    Steps page (fun _ => True) (ValuesGoal page) valueRound := by
  rintro ⟨values, words⟩ desk cursor _ stands
  obtain ⟨next, hnext, hvalue, hmoved⟩ := stands.exists_next
  have hbump := stands.run_bump
  unfold valueRound
  rw [run_bind_of_ok stands.run_peek]
  rw [← hvalue] at hmoved hbump ⊢
  split
  · next hclose =>
    have hmore : next.value.token ≠ .eof := by
      simp [hclose]
    rw [run_bind_of_ok (hbump hmore)]
    refine .ends ?_
    rw [ValuesGoal, Grammar.annotationValues_close hnext hclose]
    exact .ok ⟨rfl, hmoved hmore⟩
  · next hnewline =>
    rw [stands.run_unexpected]
    refine .fails ?_
    rw [ValuesGoal, Grammar.annotationValues_unclosed hnext (.inl hnewline)]
    exact .error stands.sound
  · next hend =>
    rw [stands.run_unexpected]
    refine .fails ?_
    rw [ValuesGoal, Grammar.annotationValues_unclosed hnext (.inr hend)]
    exact .error stands.sound
  · next hcomma =>
    have hmore : next.value.token ≠ .eof := by
      simp [hcomma]
    by_cases hempty : words = []
    · subst hempty
      rw [if_pos rfl]
      refine .fails ?_
      rw [ValuesGoal, Grammar.annotationValues_bare hnext hcomma]
      exact .error stands.sound
    · rw [if_neg hempty, run_bind_of_ok (hbump hmore)]
      refine .goesOn (hmoved hmore) next.shorter trivial ?_
      intro result hgoal
      rw [ValuesGoal, Grammar.annotationValues_comma hnext hcomma hempty]
      refine hgoal.map ?_
      rintro later _ last ⟨rfl, hlater⟩
      exact ⟨_, rfl, by simp, hlater⟩
  · next hparen hnewline hend hcomma =>
    rw [run_bind_of_ok (hbump hend)]
    refine .goesOn (hmoved hend) next.shorter trivial ?_
    intro result hgoal
    rw [ValuesGoal, Grammar.annotationValues_word hnext ⟨hcomma, hparen, hnewline, hend⟩]
    refine hgoal.map ?_
    rintro later _ last ⟨rfl, hlater⟩
    exact ⟨_, rfl, rfl, hlater⟩

/-- The values of an annotation and the place at which it ends, if they are read behind its name. -/
def valuesBehind (name : Advance cursor (String × Location)) :
    Except Failure (Advance cursor (List String × Location)) :=
  match name.after.take? .leftParen with
  | none => .ok (name.map fun found => ([], found.2))
  | some opening =>
    (name.followedBy opening).andThen fun after => Grammar.annotationValues after []

theorem annotationRest_eq (name : Advance cursor (String × Location)) :
    Grammar.annotationRest name = (do
      let last ← valuesBehind name
      let mark : AnnotationMark :=
        ⟨name.value.2.through last.value.2, name.value.1, last.value.1⟩
      let notes := last.after.pending
      .ok ((last.map fun _ => ()).withPending
        { notes with annotations := notes.annotations ++ [mark] })) := by
  unfold Grammar.annotationRest valuesBehind
  cases name.after.take? .leftParen <;> rfl

theorem annotationValues_follows :
    Follows page (fun cursor => Grammar.annotationValues cursor []) (loop valueRound ([], [])) := by
  intro desk cursor hstands
  have hgoal : ValuesGoal page ([], []) cursor _ :=
    loop_follows valueRound_steps trivial hstands
  exact hgoal.imp fun _ _ _ hbehind => hbehind.arrives

theorem annotationEnd_follows
    (name : Advance cursor (String × Location))
    (stands : Stands page desk name.after) :
    Matches page (Arrives page) (valuesBehind name)
      (run (annotationEnd name.value.2) page.sheet desk) := by
  unfold annotationEnd valuesBehind
  rw [run_bind_of_ok stands.run_peek]
  refine stands.take (by simp) ?_ ?_
  · intro opening after hopening harrives
    rw [hopening]
    exact Matches.andThen (name.followedBy opening) annotationValues_follows harrives.stands
  · intro hnone _
    rw [hnone]
    exact .ok ⟨rfl, stands⟩

theorem annotation_follows
    (stands : Stands page desk cursor)
    {name : Advance cursor (String × Location)}
    (found : cursor.select? Token.atName? = some name) :
    Matches page (Arrives page) (Grammar.annotationRest name)
      (run annotation page.sheet desk) := by
  obtain ⟨hname, hplace, hmoved⟩ := stands.of_select? found
  have hmore : cursor.peek.token ≠ .eof := by
    intro hend
    simp [hend, Token.atName?] at hname
  unfold annotation
  rw [run_bind_of_ok stands.run_peek]
  simp only [hname]
  rw [run_bind_of_ok (stands.run_bump hmore), hplace, annotationRest_eq]
  refine (annotationEnd_follows name (hmoved hmore)).bind ?_
  rintro last _ behind ⟨rfl, hbehind⟩
  rw [run_waiting_bind, ← hbehind.pending]
  exact .ok ⟨rfl, hbehind.withPending _⟩

section Block

variable {α : Type} {item : Grammar.Item α} {reader : Reader α}

theorem entry_follows (follows : Follows page item reader) :
    Follows page (Grammar.entry item) (entry reader) := by
  intro desk cursor hstands
  unfold entry Grammar.entry
  rw [run_bind_of_ok hstands.run_peek]
  by_cases hidle : isIdle cursor.peek.token = true
  · obtain ⟨passed, after, htrivia, hrun, hpassed⟩ := exists_trivia hstands hidle
    simp only [if_pos hidle, htrivia]
    rw [run_bind_of_ok hrun]
    exact .ok ⟨rfl, hpassed⟩
  · simp only [if_neg hidle, trivia?_eq_none hstands (by simpa using hidle)]
    cases hselect : cursor.select? Token.atName? with
    | none =>
        simp only [hstands.of_select?_eq_none hselect]
        refine (follows desk cursor hstands).bind ?_
        rintro found _ after ⟨rfl, hfound⟩
        exact .ok ⟨rfl, hfound⟩
    | some name =>
        simp only [(hstands.of_select? hselect).1]
        refine (annotation_follows hstands hselect).bind ?_
        rintro passed _ after ⟨_, hpassed⟩
        exact .ok ⟨rfl, hpassed⟩

/-- What the loop of a body has to come to behind items. -/
def BlockGoal
    (page : Page)
    (item : Grammar.Item α)
    (items : List α)
    (here : Cursor)
    (result : Except Stop (List α × Location) × Desk) : Prop :=
  Matches page (ArrivesBehind page items) (Grammar.block item here) result

theorem blockRound_steps (follows : Follows page item reader) :
    Steps page (fun _ => True) (BlockGoal page item) (blockRound reader) := by
  intro items desk cursor _ stands
  unfold blockRound
  rw [run_bind_of_ok stands.run_peek]
  refine stands.take (by simp) ?_ ?_
  · intro close after hclose harrives
    refine .ends ?_
    rw [BlockGoal, Grammar.block, hclose]
    exact .ok ⟨by simp [harrives.value], harrives.stands⟩
  · intro hnone _
    refine (entry_follows follows desk cursor stands).run_bind ?_ ?_
    · intro failure after hentry hsound
      refine .fails ?_
      rw [BlockGoal, Grammar.block, hnone]
      simp only [hentry]
      exact .error hsound
    · rintro found _ after hentry ⟨rfl, hfound⟩
      refine .goesOn hfound found.shorter trivial ?_
      intro result hgoal
      rw [BlockGoal, Grammar.block, hnone]
      simp only [hentry]
      refine hgoal.map ?_
      rintro later _ last ⟨rfl, hlater⟩
      exact ⟨_, rfl, by simp, hlater⟩

theorem block_follows (follows : Follows page item reader) :
    Follows page (Grammar.block item) (block reader) := by
  intro desk cursor hstands
  have hgoal : BlockGoal page item [] cursor _ :=
    loop_follows (blockRound_steps follows) trivial hstands
  exact hgoal.imp fun _ _ _ hbehind => hbehind.arrives

end Block

end Between

end Numbered
end InterfaceSchema
