import InterfaceSchema.Proofs.Reading.Cursor

/-!
# Reading annotations

* `Grammar.annotationValues_sound`, `Grammar.annotationValues_complete`: the reader of values goes
  up to the first closing parenthesis, and succeeds just on the phrases `ValueList`.
* `Grammar.annotationRest_sound`, `Grammar.annotationRest_complete`: the same for whole annotations,
  which join the notes that wait.
-/

namespace InterfaceSchema
namespace Grammar

/-- A run grows by a word. -/
theorem words_append_singleton
    {run : List Lexeme}
    {lexeme : Lexeme}
    (words : ∀ found ∈ run, found.token.IsWord)
    (word : lexeme.token.IsWord) :
    ∀ found ∈ run ++ [lexeme], found.token.IsWord := by
  intro found hmem
  rcases List.mem_append.1 hmem with hbefore | hlast
  · exact words found hbefore
  · rw [List.mem_singleton.1 hlast]
    exact word

theorem joinWords_run (run : List Lexeme) :
    joinWords (run.map fun lexeme => lexeme.token.value) =
      if run = [] then [] else [runValue run] := by
  simp [joinWords, runValue]

/-- A run that has been read makes the value that its words make. -/
theorem valueList_joinWords
    {run : List Lexeme}
    (words : ∀ lexeme ∈ run, lexeme.token.IsWord) :
    ValueList run (joinWords (run.map fun lexeme => lexeme.token.value)) := by
  rw [joinWords_run]
  by_cases hempty : run = []
  · subst hempty
    exact .nil
  · rw [if_neg hempty]
    exact .last ⟨hempty, words⟩

section Values

variable {cursor : Cursor} {words : List String}

theorem annotationValues_close
    {next : Advance cursor Lexeme}
    (found : cursor.next? = some next)
    (closes : next.value.token = .rightParen) :
    annotationValues cursor words =
      .ok (next.map fun close => (joinWords words, close.location)) := by
  rw [annotationValues, found]
  simp only [closes]

theorem annotationValues_comma
    {next : Advance cursor Lexeme}
    (found : cursor.next? = some next)
    (parts : next.value.token = .comma)
    (begun : words ≠ []) :
    annotationValues cursor words =
      (do
        let later ← annotationValues next.after []
        .ok ((next.followedBy later).map fun (values, close) =>
          (joinWords words ++ values, close))) := by
  rw [annotationValues, found]
  simp only [parts, if_neg begun]

theorem annotationValues_word
    {next : Advance cursor Lexeme}
    (found : cursor.next? = some next)
    (word : next.value.token.IsWord) :
    annotationValues cursor words =
      (do
        let found ← annotationValues next.after (words ++ [next.value.token.value])
        .ok (next.followedBy found)) := by
  obtain ⟨hcomma, hparen, hnewline, heof⟩ := word
  rw [annotationValues, found]
  dsimp only
  split <;> simp_all

/-- A comma with no value begun before it is refused. -/
theorem annotationValues_bare
    {next : Advance cursor Lexeme}
    (found : cursor.next? = some next)
    (parts : next.value.token = .comma) :
    annotationValues cursor [] = .error ⟨.emptyAnnotationValue, next.value.location.span⟩ := by
  rw [annotationValues, found]
  simp only [parts, ↓reduceIte]

/-- Where a line or the text ends, whatever value has been begun, the closing parenthesis is
missed. -/
theorem annotationValues_unclosed
    {next : Advance cursor Lexeme}
    (found : cursor.next? = some next)
    (unclosed : next.value.token = .newline ∨ next.value.token = .eof) :
    annotationValues cursor words = .error (cursor.unexpected (.exactly .rightParen)) := by
  rw [annotationValues, found]
  obtain hnewline | hend := unclosed
  · simp only [hnewline]
  · simp only [hend]

end Values

/-- The words read so far are those of a run; what is read then completes it to a list. -/
theorem annotationValues_sound
    {cursor : Cursor}
    {words : List String}
    {run : List Lexeme}
    {result : Advance cursor (List String × Location)}
    (begun : (run.map fun lexeme => lexeme.token.value) = words)
    (runWords : ∀ lexeme ∈ run, lexeme.token.IsWord)
    (succeeds : annotationValues cursor words = .ok result) :
    ∃ inner,
      ValueList (run ++ inner) result.value.1 ∧
        result.Covers (inner ++ [⟨.rightParen, result.value.2⟩]) ⟨false, cursor.pending⟩ := by
  induction cursor, words using annotationValues.induct generalizing run with
  | case1 cursor words hnone =>
      rw [annotationValues, hnone] at succeeds
      simp at succeeds
  | case2 cursor words next hnext hclose =>
      rw [annotationValues_close hnext hclose] at succeeds
      simp only [Except.ok.injEq] at succeeds
      subst succeeds
      subst begun
      have hcovers := Cursor.next?_covers hnext
      have hlexeme : next.value = ⟨.rightParen, next.value.location⟩ := by
        rw [← hclose]
      rw [hlexeme] at hcovers
      refine ⟨[], ?_, hcovers.map _⟩
      rw [List.append_nil]
      exact valueList_joinWords runWords
  | case3 cursor words next hnext hnewline =>
      rw [annotationValues, hnext] at succeeds
      simp [hnewline] at succeeds
  | case4 cursor words next hnext heof =>
      rw [annotationValues, hnext] at succeeds
      simp [heof] at succeeds
  | case5 cursor next hnext hcomma =>
      rw [annotationValues, hnext] at succeeds
      simp [hcomma] at succeeds
  | case6 cursor words next hnext hcomma hbegun ih =>
      rw [annotationValues_comma hnext hcomma hbegun] at succeeds
      simp only [bind_eq_ok_iff, Except.ok.injEq] at succeeds
      obtain ⟨later, hlater, rfl⟩ := succeeds
      subst begun
      have hrun : run ≠ [] := by
        intro hempty
        simp [hempty] at hbegun
      have hcovers := Cursor.next?_covers hnext
      have hlexeme : next.value = ⟨.comma, next.value.location⟩ := by
        rw [← hcomma]
      rw [hlexeme] at hcovers
      obtain ⟨inner, hlisted, hlast⟩ := ih List.map_nil (by simp) hlater
      rw [hcovers.pending] at hlast
      refine ⟨⟨.comma, next.value.location⟩ :: inner, ?_, ?_⟩
      · have hjoined : joinWords (run.map fun lexeme => lexeme.token.value) = [runValue run] := by
          rw [joinWords_run, if_neg hrun]
        simp only [Advance.value_map, Advance.value_followedBy, hjoined, List.singleton_append]
        exact .comma next.value.location ⟨hrun, runWords⟩ hlisted
      · exact (hcovers.followedBy hlast).map _
  | case7 cursor words next hnext hparen hnewline heof hcomma ih =>
      have hword : next.value.token.IsWord := ⟨hcomma, hparen, hnewline, heof⟩
      rw [annotationValues_word hnext hword] at succeeds
      simp only [bind_eq_ok_iff, Except.ok.injEq] at succeeds
      obtain ⟨found, hfound, rfl⟩ := succeeds
      subst begun
      have hcovers := Cursor.next?_covers hnext
      rw [decide_eq_false hnewline] at hcovers
      obtain ⟨inner, hlisted, hlast⟩ :=
        ih (by simp) (words_append_singleton runWords hword) hfound
      rw [hcovers.pending] at hlast
      refine ⟨next.value :: inner, by simpa using hlisted, ?_⟩
      exact hcovers.followedBy hlast

/-- What completes a run of words to a list is read after them. -/
theorem annotationValues_complete
    {cursor : Cursor}
    {run inner rest : List Lexeme}
    {values : List String}
    {close : Location}
    (runWords : ∀ lexeme ∈ run, lexeme.token.IsWord)
    (listed : ValueList (run ++ inner) values)
    (ahead : cursor.ahead = inner ++ ⟨.rightParen, close⟩ :: rest) :
    ∃ result,
      annotationValues cursor (run.map fun lexeme => lexeme.token.value) = .ok result ∧
        result.value = (values, close) ∧
        result.Covers (inner ++ [⟨.rightParen, close⟩]) ⟨false, cursor.pending⟩ := by
  induction inner generalizing cursor run values with
  | nil =>
      obtain ⟨next, hnext, hvalue⟩ := Cursor.exists_next? ahead
      have hcovers := Cursor.next?_covers hnext
      rw [hvalue] at hcovers
      rw [List.append_nil] at listed
      refine ⟨_, annotationValues_close hnext (by rw [hvalue]), ?_, hcovers.map _⟩
      simp [Advance.map, hvalue, joinWords_run, listed.eq_of_words runWords]
  | cons lexeme inner ih =>
      obtain ⟨next, hnext, hvalue⟩ := Cursor.exists_next? ahead
      subst hvalue
      have hcovers := Cursor.next?_covers hnext
      have hrest := hcovers.rest_eq ahead
      rcases listed.word_or_comma next.value (by simp) with hword | hcomma
      · rw [decide_eq_false hword.2.2.1] at hcovers
        obtain ⟨result, hresult, hvalue, hlast⟩ :=
          ih (words_append_singleton runWords hword) (by simpa using listed) hrest
        rw [hcovers.pending] at hlast
        refine ⟨next.followedBy result, ?_, hvalue, hcovers.followedBy hlast⟩
        rw [annotationValues_word hnext hword]
        simp only [bind_eq_ok_iff, Except.ok.injEq]
        exact ⟨result, by simpa using hresult, rfl⟩
      · have hlexeme : next.value = ⟨.comma, next.value.location⟩ := by
          rw [← hcomma]
        rw [hlexeme] at hcovers listed ⊢
        obtain ⟨later, hwhole, rfl, hlisted⟩ := listed.of_comma runWords
        obtain ⟨result, hresult, hvalue, hlast⟩ := ih (List.forall_mem_nil _) hlisted hrest
        rw [hcovers.pending] at hlast
        refine
          ⟨_, ?_, ?_,
            (hcovers.followedBy hlast).map fun (found : List String × Location) =>
              (joinWords (run.map fun lexeme => lexeme.token.value) ++ found.1, found.2)⟩
        · have hbegun : (run.map fun lexeme => lexeme.token.value) ≠ [] := by
            simpa using hwhole.1
          rw [annotationValues_comma hnext hcomma hbegun]
          simp only [bind_eq_ok_iff, Except.ok.injEq]
          exact ⟨result, hresult, rfl⟩
        · simp [hvalue, joinWords_run, hwhole.1]

/-- Notes with one more annotation. -/
def withMark (notes : Notes) (mark : AnnotationMark) : Notes :=
  { notes with annotations := notes.annotations ++ [mark] }

section Rest

variable {cursor : Cursor} {notes : Notes} {name : Advance cursor (String × Location)}

theorem annotationRest_sound
    (covers :
      name.Covers [⟨.atName name.value.1, name.value.2⟩] ⟨false, notes⟩)
    {result : Advance cursor Unit}
    (succeeds : annotationRest name = .ok result) :
    ∃ taken mark,
      AnnotationPhrase taken mark ∧ result.Covers taken ⟨false, withMark notes mark⟩ := by
  unfold annotationRest at succeeds
  dsimp only at succeeds
  split at succeeds
  · simp only [Except.ok.injEq] at succeeds
    subst succeeds
    refine ⟨_, _, .bare name.value.1 name.value.2, ?_⟩
    rw [covers.pending]
    exact
      (covers.map fun _ => ()).withPending (withMark notes ⟨name.value.2, name.value.1, []⟩)
  · next opening hopening =>
    simp only [bind_eq_ok_iff, Except.ok.injEq] at succeeds
    obtain ⟨found, hfound, rfl⟩ := succeeds
    have hopeningCovers := Cursor.take?_covers (by simp) hopening
    have hcovers := covers.followedBy hopeningCovers
    rw [covers.pending] at hcovers
    obtain ⟨second, hvalues, rfl⟩ := Advance.andThen_eq_ok_iff.1 hfound
    obtain ⟨inner, hlisted, hlast⟩ :=
      annotationValues_sound List.map_nil (List.forall_mem_nil _) hvalues
    rw [hcovers.pending] at hlast
    have hwhole := hcovers.followedBy hlast
    refine
      ⟨_, _, .list name.value.1 name.value.2 opening.value second.value.2 hlisted, ?_⟩
    rw [hwhole.pending]
    exact
      (hwhole.map fun _ => ()).withPending
        (withMark notes ⟨name.value.2.through second.value.2, name.value.1, second.value.1⟩)

/-- A list of values between parentheses belongs to the annotation, whatever follows it. -/
theorem annotationRest_list
    (covers :
      name.Covers [⟨.atName name.value.1, name.value.2⟩] ⟨false, notes⟩)
    {inner rest : List Lexeme}
    {values : List String}
    {opening closing : Location}
    (listed : ValueList inner values)
    (ahead :
      cursor.ahead =
        ⟨.atName name.value.1, name.value.2⟩ :: ⟨.leftParen, opening⟩ ::
          (inner ++ ⟨.rightParen, closing⟩ :: rest)) :
    ∃ result,
      annotationRest name = .ok result ∧
        result.Covers
          (⟨.atName name.value.1, name.value.2⟩ :: ⟨.leftParen, opening⟩ ::
            (inner ++ [⟨.rightParen, closing⟩]))
          ⟨false, withMark notes ⟨name.value.2.through closing, name.value.1, values⟩⟩ := by
  obtain ⟨_, hrest⟩ := covers.head_eq ahead
  obtain ⟨opened, hopened, rfl⟩ := Cursor.exists_take? hrest
  have hopenedCovers := Cursor.take?_covers (by simp) hopened
  have hcovers := covers.followedBy hopenedCovers
  rw [covers.pending] at hcovers
  obtain ⟨found, hfound, hvalue, hlast⟩ :=
    annotationValues_complete (List.forall_mem_nil _) listed
      (hopenedCovers.rest_eq hrest)
  rw [hopenedCovers.pending, covers.pending] at hlast
  have hwhole := hcovers.followedBy hlast
  refine
    ⟨_, ?_, (hwhole.map fun _ => ()).withPending
      (withMark notes ⟨name.value.2.through closing, name.value.1, values⟩)⟩
  simp only [annotationRest, hopened, bind_eq_ok_iff, Except.ok.injEq]
  refine ⟨_, Advance.andThen_eq_ok_iff.2 ⟨found, hfound, rfl⟩, ?_⟩
  have hlastValue : ((name.followedBy opened).followedBy found).value = (values, closing) :=
    hvalue
  rw [hlastValue, hwhole.pending]
  rfl

theorem annotationRest_complete
    (covers :
      name.Covers [⟨.atName name.value.1, name.value.2⟩] ⟨false, notes⟩)
    {taken rest : List Lexeme}
    {mark : AnnotationMark}
    (marked : AnnotationPhrase taken mark)
    (stops : NoToken .leftParen rest)
    (ahead : cursor.ahead = taken ++ rest) :
    ∃ result,
      annotationRest name = .ok result ∧
        result.Covers taken ⟨false, withMark notes mark⟩ := by
  cases marked with
  | bare text place =>
      obtain ⟨hlexeme, hrest⟩ := covers.head_eq ahead
      simp only [Lexeme.mk.injEq, Token.atName.injEq] at hlexeme
      obtain ⟨rfl, rfl⟩ := hlexeme
      have hnone : name.after.take? .leftParen = none := by
        rw [Cursor.take?_eq_none_iff, hrest]
        exact stops
      refine
        ⟨_, ?_, (covers.map fun _ => ()).withPending
          (withMark notes ⟨name.value.2, name.value.1, []⟩)⟩
      simp only [annotationRest, hnone, covers.pending]
      rfl
  | @list inner values text start opening closing listed =>
      have hahead :
          cursor.ahead =
            ⟨.atName text, start⟩ :: ⟨.leftParen, opening⟩ ::
              (inner ++ ⟨.rightParen, closing⟩ :: rest) := by
        simpa using ahead
      obtain ⟨hlexeme, _⟩ := covers.head_eq hahead
      simp only [Lexeme.mk.injEq, Token.atName.injEq] at hlexeme
      obtain ⟨rfl, rfl⟩ := hlexeme
      exact annotationRest_list covers listed hahead

end Rest

end Grammar
end InterfaceSchema
