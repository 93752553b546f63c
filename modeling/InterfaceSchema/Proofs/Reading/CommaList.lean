import InterfaceSchema.Proofs.Reading.Block
import InterfaceSchema.Proofs.Failures.Repetition
import Mathlib.Data.List.TakeWhile

/-!
# Values between commas

The values of an annotation are what stands between the commas of its parentheses.

* `commaParts`: a stretch of lexemes cut at its commas; `Filled` says that every comma has something
  before it.
* `valueList_of_filled`: a filled stretch is a list of the values that its parts make.
* `annotationValues_walk`: the reader of values goes through a filled stretch and fails as it does
  behind it; `exists_bare_comma` finds the first comma without a value before it.
* `ListFails`: the failures of a list, said without the reader.
* `entry_annotation_list`: when an annotation with parentheses is read, what it holds, and where it
  fails.
-/

namespace InterfaceSchema

/-! ## Cutting at commas -/

/-- Tokens at which a list of values ends, whether it is closed there or breaks off. -/
def Token.endsList (token : Token) : Bool :=
  token = .rightParen || token = .newline || token = .eof

theorem Token.isWord_of_endsList
    {token : Token}
    (inside : token.endsList = false)
    (noComma : token ≠ .comma) :
    token.IsWord := by
  simp only [endsList, Bool.or_eq_false_iff, decide_eq_false_iff_not] at inside
  exact ⟨noComma, inside.1.1, inside.1.2, inside.2⟩

/-- The stretches of lexemes between commas. -/
def commaParts (lexemes : List Lexeme) : List (List Lexeme) :=
  lexemes.splitOnP fun lexeme => lexeme.token = .comma

/-- Before each comma something stands that no other comma cuts off. -/
def Filled (lexemes : List Lexeme) : Prop :=
  ∀ part ∈ (commaParts lexemes).dropLast, part ≠ []

/-- The values that the parts between commas make. Parts without lexemes make none. -/
def commaValues (lexemes : List Lexeme) : List String :=
  ((commaParts lexemes).filter fun part => part ≠ []).map runValue

section Parts

variable {run rest : List Lexeme}

theorem commaParts_ne_nil (lexemes : List Lexeme) : commaParts lexemes ≠ [] :=
  List.splitOnP_ne_nil _ lexemes

theorem isComma_eq_false
    (words : ∀ lexeme ∈ run, lexeme.token.IsWord) :
    ∀ lexeme ∈ run, decide (lexeme.token = .comma) = false := by
  intro lexeme hmember
  exact decide_eq_false (words lexeme hmember).1

/-- Words without a comma are one part. -/
theorem commaParts_words (words : ∀ lexeme ∈ run, lexeme.token.IsWord) : commaParts run = [run] :=
  List.splitOnP_eq_singleton (isComma_eq_false words)

/-- The first comma cuts off the words before it. -/
theorem commaParts_comma
    {comma : Lexeme}
    (words : ∀ lexeme ∈ run, lexeme.token.IsWord)
    (parts : comma.token = .comma) :
    commaParts (run ++ comma :: rest) = run :: commaParts rest :=
  List.splitOnP_append_cons_of_forall_mem (isComma_eq_false words) comma (decide_eq_true parts) rest

theorem filled_words (words : ∀ lexeme ∈ run, lexeme.token.IsWord) : Filled run := by
  unfold Filled
  rw [commaParts_words words]
  simp

theorem filled_comma_iff
    {comma : Lexeme}
    (words : ∀ lexeme ∈ run, lexeme.token.IsWord)
    (parts : comma.token = .comma) :
    Filled (run ++ comma :: rest) ↔ run ≠ [] ∧ Filled rest := by
  unfold Filled
  rw [commaParts_comma words parts, List.dropLast_cons_of_ne_nil (commaParts_ne_nil rest),
    List.forall_mem_cons]

theorem getLast?_commaParts_comma
    {comma : Lexeme}
    (words : ∀ lexeme ∈ run, lexeme.token.IsWord)
    (parts : comma.token = .comma) :
    (commaParts (run ++ comma :: rest)).getLast? = (commaParts rest).getLast? := by
  obtain ⟨first, others, hparts⟩ := List.exists_cons_of_ne_nil (commaParts_ne_nil rest)
  rw [commaParts_comma words parts, hparts, List.getLast?_cons_cons]

end Parts

/-- A filled stretch of words and commas is a list of values. -/
theorem valueList_of_filled
    (run : List Lexeme)
    {inner : List Lexeme}
    (words : ∀ lexeme ∈ run, lexeme.token.IsWord)
    (inside : ∀ lexeme ∈ inner, lexeme.token.endsList = false)
    (filled : Filled (run ++ inner)) :
    ValueList (run ++ inner) (commaValues (run ++ inner)) := by
  induction inner generalizing run with
  | nil =>
      rw [List.append_nil, commaValues, commaParts_words words]
      by_cases hempty : run = []
      · subst hempty
        exact .nil
      · simpa [hempty] using ValueList.last ⟨hempty, words⟩
  | cons lexeme inner ih =>
      rw [List.forall_mem_cons] at inside
      by_cases hcomma : lexeme.token = .comma
      · obtain ⟨hrun, hfilled⟩ := (filled_comma_iff words hcomma).1 filled
        have hlater := ih [] (List.forall_mem_nil _) inside.2 hfilled
        obtain ⟨token, place⟩ := lexeme
        dsimp only at hcomma
        subst hcomma
        have hvalues :
            commaValues (run ++ ⟨.comma, place⟩ :: inner) = runValue run :: commaValues inner := by
          rw [commaValues, commaParts_comma words rfl]
          simp [hrun, commaValues]
        rw [hvalues]
        exact .comma place ⟨hrun, words⟩ hlater
      · have hword := Token.isWord_of_endsList inside.1 hcomma
        rw [← List.singleton_append, ← List.append_assoc] at filled ⊢
        exact ih _ (Grammar.words_append_singleton words hword) inside.2 filled

/-- A stretch that is not filled has a first comma without a value before it. -/
theorem exists_bare_comma
    (run : List Lexeme)
    {inner : List Lexeme}
    (words : ∀ lexeme ∈ run, lexeme.token.IsWord)
    (inside : ∀ lexeme ∈ inner, lexeme.token.endsList = false)
    (bare : ¬ Filled (run ++ inner)) :
    ∃ before comma after,
      inner = before ++ comma :: after ∧
        comma.token = .comma ∧
        Filled (run ++ before) ∧ (commaParts (run ++ before)).getLast? = some [] := by
  induction inner generalizing run with
  | nil =>
      rw [List.append_nil] at bare
      exact absurd (filled_words words) bare
  | cons lexeme inner ih =>
      rw [List.forall_mem_cons] at inside
      by_cases hcomma : lexeme.token = .comma
      · by_cases hrun : run = []
        · subst hrun
          exact ⟨[], lexeme, inner, rfl, hcomma, filled_words (List.forall_mem_nil _), rfl⟩
        · have hbare : ¬ Filled ([] ++ inner) := by
            intro hfilled
            exact bare ((filled_comma_iff words hcomma).2 ⟨hrun, hfilled⟩)
          obtain ⟨before, comma, after, rfl, hcommaToo, hfilled, hlast⟩ :=
            ih [] (List.forall_mem_nil _) inside.2 hbare
          refine ⟨lexeme :: before, comma, after, rfl, hcommaToo, ?_, ?_⟩
          · exact (filled_comma_iff words hcomma).2 ⟨hrun, hfilled⟩
          · rw [getLast?_commaParts_comma words hcomma]
            exact hlast
      · have hword := Token.isWord_of_endsList inside.1 hcomma
        rw [← List.singleton_append, ← List.append_assoc] at bare
        obtain ⟨before, comma, after, rfl, hcommaToo, hfilled, hlast⟩ :=
          ih _ (Grammar.words_append_singleton words hword) inside.2 bare
        refine ⟨lexeme :: before, comma, after, rfl, hcommaToo, ?_, ?_⟩
        · rwa [List.append_assoc, List.singleton_append] at hfilled
        · rwa [List.append_assoc, List.singleton_append] at hlast

/-! ## Where a list ends -/

/-- The lexemes of a list of values, given what stands behind its opening parenthesis. -/
def listInner (ahead : List Lexeme) : List Lexeme :=
  ahead.takeWhile fun lexeme => !lexeme.token.endsList

/-- The lexeme at which a list of values ends. If nothing ends it before, the text does. -/
def listStop (eof : Location) (ahead : List Lexeme) : Lexeme :=
  (ahead.dropWhile fun lexeme => !lexeme.token.endsList).head?.getD ⟨.eof, eof⟩

/-- The failure to find the closing parenthesis of a list of values where the list ends. -/
def unclosedAt (stop : Lexeme) : Failure :=
  ⟨if stop.token = .eof then .unexpectedEnd (.exactly .rightParen)
    else .unexpectedToken (.exactly .rightParen) stop.token, stop.location.span⟩

/-- The failure of a list of values, given what stands behind its opening parenthesis: at the first
comma without a value before it or, if there is none, where the list ends without being closed. -/
inductive ListFails (eof : Location) (ahead : List Lexeme) : Failure → Prop
  | bare
      {before after : List Lexeme}
      {comma : Lexeme}
      (split : listInner ahead = before ++ comma :: after)
      (parts : comma.token = .comma)
      (filled : Filled before)
      (empty : (commaParts before).getLast? = some []) :
      ListFails eof ahead ⟨.emptyAnnotationValue, comma.location.span⟩
  | unclosed
      (filled : Filled (listInner ahead))
      (unclosed : (listStop eof ahead).token ≠ .rightParen) :
      ListFails eof ahead (unclosedAt (listStop eof ahead))

section Ends

variable {eof : Location} {ahead : List Lexeme}

theorem endsList_of_mem_listInner : ∀ lexeme ∈ listInner ahead, lexeme.token.endsList = false := by
  intro lexeme hmember
  simpa using List.mem_takeWhile_imp hmember

theorem endsList_listStop : (listStop eof ahead).token.endsList = true := by
  unfold listStop
  have hhead := List.head?_dropWhile_not (fun lexeme : Lexeme => !lexeme.token.endsList) ahead
  cases hstop : (ahead.dropWhile fun lexeme => !lexeme.token.endsList).head? with
  | none =>
      rfl
  | some stop =>
      rw [hstop] at hhead
      simpa using hhead

/-- A list is cut off at what ends it. -/
theorem exists_tail (ahead : List Lexeme) :
    ∃ tail,
      ahead = listInner ahead ++ tail ∧
        ∀ eof, listStop eof ahead = tail.head?.getD ⟨.eof, eof⟩ :=
  ⟨_, List.takeWhile_append_dropWhile.symm, fun _ => rfl⟩

/-- What ends a list stands behind its lexemes, unless the text ends there. -/
theorem ahead_eq_of_listStop (more : (listStop eof ahead).token ≠ .eof) :
    ∃ rest, ahead = listInner ahead ++ listStop eof ahead :: rest := by
  obtain ⟨tail, hahead, hstop⟩ := exists_tail ahead
  rw [hstop] at more ⊢
  cases tail with
  | nil =>
      exact absurd rfl more
  | cons stop rest =>
      exact ⟨rest, hahead⟩

/-- A list that is not closed, or has a comma without a value before it, fails. -/
theorem exists_listFails
    (fails : ¬ ((listStop eof ahead).token = .rightParen ∧ Filled (listInner ahead))) :
    ∃ failure, ListFails eof ahead failure := by
  by_cases hfilled : Filled (listInner ahead)
  · exact ⟨_, .unclosed hfilled fun hcloses => fails ⟨hcloses, hfilled⟩⟩
  · obtain ⟨before, comma, after, hsplit, hparts, hbefore, hempty⟩ :=
      exists_bare_comma [] (List.forall_mem_nil _) endsList_of_mem_listInner hfilled
    exact ⟨_, .bare hsplit hparts hbefore hempty⟩

end Ends

namespace Grammar

/-! ## Going through a list -/

/-- The reader of values fails at a cursor as it does further on, behind a filled stretch. There the
last part of the stretch is the value that has been begun. -/
theorem annotationValues_walk
    {cursor : Cursor}
    {run front rest : List Lexeme}
    (words : ∀ lexeme ∈ run, lexeme.token.IsWord)
    (inside : ∀ lexeme ∈ front, lexeme.token.endsList = false)
    (filled : Filled (run ++ front))
    (ahead : cursor.ahead = front ++ rest) :
    ∃ after last,
      after.ahead = rest ∧
        after.eof = cursor.eof ∧
        (commaParts (run ++ front)).getLast? = some last ∧
        ∀ failure,
          annotationValues after (last.map fun lexeme => lexeme.token.value) = .error failure →
            annotationValues cursor (run.map fun lexeme => lexeme.token.value) =
              .error failure := by
  induction front generalizing cursor run with
  | nil =>
      rw [List.append_nil, commaParts_words words]
      exact ⟨cursor, run, ahead, rfl, rfl, fun _ hfails => hfails⟩
  | cons lexeme front ih =>
      rw [List.forall_mem_cons] at inside
      obtain ⟨previous, lexemes, eof, waiting⟩ := cursor
      dsimp only at ahead
      subst ahead
      let next : Cursor := ⟨some lexeme.token, front ++ rest, eof, waiting⟩
      by_cases hcomma : lexeme.token = .comma
      · obtain ⟨hrun, hfilled⟩ := (filled_comma_iff words hcomma).1 filled
        obtain ⟨after, last, hahead, heof, hlast, hfails⟩ :=
          @ih next [] (List.forall_mem_nil _) inside.2 hfilled rfl
        refine ⟨after, last, hahead, heof, ?_, ?_⟩
        · rw [getLast?_commaParts_comma words hcomma]
          exact hlast
        · intro failure hfailure
          rw [annotationValues_comma rfl hcomma (by simpa using hrun)]
          exact congrArg (· >>= _) (hfails failure hfailure)
      · have hword := Token.isWord_of_endsList inside.1 hcomma
        rw [← List.singleton_append, ← List.append_assoc] at filled ⊢
        obtain ⟨after, last, hahead, heof, hlast, hfails⟩ :=
          @ih next (run ++ [lexeme]) (words_append_singleton words hword) inside.2 filled rfl
        refine ⟨after, last, hahead, heof, hlast, ?_⟩
        intro failure hfailure
        have hlater := hfails failure hfailure
        rw [List.map_append, List.map_singleton] at hlater
        rw [annotationValues_word rfl hword]
        exact congrArg (· >>= _) hlater

/-! ## Failures -/

theorem unexpected_eq_unclosedAt (cursor : Cursor) :
    cursor.unexpected (.exactly .rightParen) = unclosedAt cursor.peek := by
  unfold Cursor.unexpected unclosedAt
  dsimp only
  split
  · next heof =>
    rw [if_pos heof]
  · next hother =>
    rw [if_neg hother]

/-- Where a list breaks off, whatever value has been begun, its closing parenthesis is missed. -/
theorem annotationValues_of_ends
    {cursor : Cursor}
    (words : List String)
    (ends : cursor.peek.token.endsList = true)
    (unclosed : cursor.peek.token ≠ .rightParen) :
    annotationValues cursor words = .error (unclosedAt cursor.peek) := by
  rw [← unexpected_eq_unclosedAt]
  obtain ⟨previous, lexemes, eof, waiting⟩ := cursor
  cases lexemes with
  | nil =>
      rw [annotationValues]
      rfl
  | cons lexeme rest =>
      have hends : lexeme.token.endsList = true := ends
      simp only [Token.endsList, Bool.or_eq_true, decide_eq_true_eq] at hends
      refine annotationValues_unclosed rfl ?_
      obtain (hclose | hnewline) | heof := hends
      · exact absurd hclose unclosed
      · exact Or.inl hnewline
      · exact Or.inr heof

/-- The reader of values fails as the list ahead does. -/
theorem annotationValues_of_listFails
    {cursor : Cursor}
    {failure : Failure}
    (fails : ListFails cursor.eof cursor.ahead failure) :
    annotationValues cursor [] = .error failure := by
  obtain ⟨tail, htail, hstop⟩ := exists_tail cursor.ahead
  cases fails with
  | @bare before after comma split parts filled empty =>
      have hinside : ∀ lexeme ∈ before, lexeme.token.endsList = false := by
        intro lexeme hmember
        have hinner : lexeme ∈ listInner cursor.ahead := by
          rw [split]
          exact List.mem_append_left _ hmember
        exact endsList_of_mem_listInner lexeme hinner
      have hahead : cursor.ahead = before ++ comma :: (after ++ tail) := by
        rw [htail, split, List.append_assoc, List.cons_append]
      obtain ⟨place, last, hplace, _, hlast, hfails⟩ :=
        annotationValues_walk (List.forall_mem_nil _) hinside filled hahead
      rw [List.nil_append, empty, Option.some.injEq] at hlast
      subst hlast
      obtain ⟨next, hnext, rfl⟩ := Cursor.exists_next? hplace
      exact hfails _ (annotationValues_bare hnext parts)
  | unclosed filled unclosed =>
      obtain ⟨place, last, hplace, heof, _, hfails⟩ :=
        annotationValues_walk (List.forall_mem_nil _) endsList_of_mem_listInner filled htail
      have hpeek : place.peek = listStop cursor.eof cursor.ahead := by
        rw [Cursor.peek, hplace, heof, hstop]
      rw [← hpeek] at unclosed ⊢
      refine hfails _ (annotationValues_of_ends _ ?_ unclosed)
      rw [hpeek]
      exact endsList_listStop

/-! ## Annotations with parentheses -/

section Annotation

variable
  {α : Type}
  {cursor : Cursor}
  {text : String}
  {start opening : Location}
  {rest : List Lexeme}

/-- An annotation fails as the list of its values does. -/
theorem entry_of_listFails
    (item : Item α)
    {failure : Failure}
    (ahead : cursor.ahead = ⟨.atName text, start⟩ :: ⟨.leftParen, opening⟩ :: rest)
    (fails : ListFails cursor.eof rest failure) :
    entry item cursor = .error failure := by
  obtain ⟨previous, lexemes, eof, waiting⟩ := cursor
  dsimp only at ahead
  subst ahead
  let name :
      Advance ⟨previous, ⟨.atName text, start⟩ :: ⟨.leftParen, opening⟩ :: rest, eof, waiting⟩
        (String × Location) :=
    ⟨(text, start), ⟨some (.atName text), ⟨.leftParen, opening⟩ :: rest, eof, waiting⟩,
      Nat.lt_succ_self _⟩
  have hvalues : annotationValues ⟨some .leftParen, rest, eof, waiting⟩ [] = .error failure :=
    annotationValues_of_listFails fails
  have hrest : annotationRest name = .error failure :=
    bind_eq_error_iff.2 (Or.inl (Advance.andThen_eq_error_iff.2 hvalues))
  exact bind_eq_error_iff.2 (Or.inl hrest)

/-- A filled list that is closed is read. -/
theorem exists_entry_of_filled
    (item : Item α)
    (ahead : cursor.ahead = ⟨.atName text, start⟩ :: ⟨.leftParen, opening⟩ :: rest)
    (closes : (listStop cursor.eof rest).token = .rightParen)
    (filled : Filled (listInner rest)) :
    ∃ found,
      entry item cursor = .ok found ∧
        found.value = none ∧
        found.Covers
          (⟨.atName text, start⟩ :: ⟨.leftParen, opening⟩ ::
            (listInner rest ++ [listStop cursor.eof rest]))
          ⟨false,
            withMark cursor.pending
              ⟨start.through (listStop cursor.eof rest).location, text,
                commaValues (listInner rest)⟩⟩ := by
  obtain ⟨behind, hrest⟩ := ahead_eq_of_listStop (by rw [closes]; simp)
  obtain ⟨name, hnone, hname, hvalue, hcovers⟩ := exists_atName ahead
  obtain ⟨rfl, rfl⟩ := Prod.mk.inj hvalue
  have hlisted :=
    valueList_of_filled [] (List.forall_mem_nil _) endsList_of_mem_listInner filled
  have hstop :
      listStop cursor.eof rest = ⟨.rightParen, (listStop cursor.eof rest).location⟩ := by
    rw [← closes]
  rw [hstop] at hrest ⊢
  rw [hrest] at ahead
  obtain ⟨passed, hpassed, hlast⟩ := annotationRest_list hcovers hlisted ahead
  refine ⟨passed.map fun _ => none, ?_, rfl, hlast.map _⟩
  simp only [entry, hnone, hname, bind_eq_ok_iff]
  exact ⟨passed, hpassed, rfl⟩

end Annotation

/-- The values of an annotation are the parts between the commas of its parentheses, up to the first
closing parenthesis, line feed or end of the text.

It is read just if a closing parenthesis comes first and each comma has a value before it. Then the
values that are not empty parts are kept in order, the cursor ends behind the parenthesis, and the
annotation joins those that wait. Otherwise it fails as the list does. -/
theorem entry_annotation_list
    {α : Type}
    (item : Item α)
    {cursor : Cursor}
    {text : String}
    {start opening : Location}
    {rest : List Lexeme}
    (ahead : cursor.ahead = ⟨.atName text, start⟩ :: ⟨.leftParen, opening⟩ :: rest) :
    ((∃ found, entry item cursor = .ok found) ↔
        (listStop cursor.eof rest).token = .rightParen ∧ Filled (listInner rest)) ∧
      (∀ found,
        entry item cursor = .ok found →
          found.value = none ∧
            found.Covers
              (⟨.atName text, start⟩ :: ⟨.leftParen, opening⟩ ::
                (listInner rest ++ [listStop cursor.eof rest]))
              ⟨false,
                { comments := cursor.pending.comments
                  annotations :=
                    cursor.pending.annotations ++
                      [⟨start.through (listStop cursor.eof rest).location, text,
                        commaValues (listInner rest)⟩] }⟩) ∧
      ∀ failure,
        entry item cursor = .error failure ↔ ListFails cursor.eof rest failure := by
  by_cases hgood : (listStop cursor.eof rest).token = .rightParen ∧ Filled (listInner rest)
  · obtain ⟨found, hfound, hresult⟩ := exists_entry_of_filled item ahead hgood.1 hgood.2
    refine ⟨⟨fun _ => hgood, fun _ => ⟨found, hfound⟩⟩, ?_, ?_⟩
    · intro other hother
      rw [hfound, Except.ok.injEq] at hother
      subst hother
      exact hresult
    · intro failure
      constructor
      · intro hfails
        rw [hfound] at hfails
        cases hfails
      · exact entry_of_listFails item ahead
  · obtain ⟨failure, hlist⟩ := exists_listFails hgood
    have hfails := entry_of_listFails item ahead hlist
    refine ⟨⟨?_, fun hboth => absurd hboth hgood⟩, ?_, ?_⟩
    · rintro ⟨found, hfound⟩
      rw [hfails] at hfound
      cases hfound
    · intro found hfound
      rw [hfails] at hfound
      cases hfound
    · intro other
      constructor
      · intro hother
        rw [hfails, Except.error.injEq] at hother
        rw [← hother]
        exact hlist
      · exact entry_of_listFails item ahead

/-- The place at the start of a text. -/
def startPlace : Location :=
  ⟨.start, .start, ⟨0, 0⟩⟩

/-- A cursor before tokens that all stand at one place. -/
def cursorBefore (tokens : List Token) : Cursor :=
  Cursor.start startPlace (tokens.map fun token => ⟨token, startPlace⟩)

/-- Values with several words, an empty literal and a comma behind them; two commas in a line that
breaks off; and a list that breaks off. -/
theorem entry_annotation_list_samples :
    (∃ found,
        entry member
            (cursorBefore
              [.atName "x", .leftParen, .ident "a", .number 7, .comma, .stringLiteral "", .comma,
                .rightParen, .leftParen]) =
          .ok found ∧
        found.after.pending.annotations.map AnnotationMark.values = [["a 7", ""]]) ∧
      entry method
          (cursorBefore [.atName "x", .leftParen, .dot, .comma, .comma, .newline]) =
        .error ⟨.emptyAnnotationValue, ⟨0, 0⟩⟩ ∧
      entry method (cursorBefore [.atName "x", .leftParen, .dot, .comma]) =
        .error ⟨.unexpectedEnd (.exactly .rightParen), ⟨0, 0⟩⟩ := by
  have hread := entry_annotation_list member (show (cursorBefore
    [.atName "x", .leftParen, .ident "a", .number 7, .comma, .stringLiteral "", .comma,
      .rightParen, .leftParen]).ahead = _ from rfl)
  have hbare := entry_annotation_list method (show (cursorBefore
    [.atName "x", .leftParen, .dot, .comma, .comma, .newline]).ahead = _ from rfl)
  have hopen := entry_annotation_list method (show (cursorBefore
    [.atName "x", .leftParen, .dot, .comma]).ahead = _ from rfl)
  refine ⟨?_, (hbare.2.2 _).2 ?_, (hopen.2.2 _).2 ?_⟩
  · obtain ⟨found, hfound⟩ := hread.1.2 ⟨rfl, by unfold Filled; decide⟩
    refine ⟨found, hfound, ?_⟩
    rw [(hread.2.1 found hfound).2.pending]
    decide +kernel
  · have hsplit :
        listInner [⟨.dot, startPlace⟩, ⟨.comma, startPlace⟩, ⟨.comma, startPlace⟩,
            ⟨.newline, startPlace⟩] =
          [⟨.dot, startPlace⟩, ⟨.comma, startPlace⟩] ++ ⟨.comma, startPlace⟩ :: [] :=
      rfl
    exact .bare hsplit rfl (by unfold Filled; decide) rfl
  · exact .unclosed (by unfold Filled; decide) (by decide)

end Grammar
end InterfaceSchema
