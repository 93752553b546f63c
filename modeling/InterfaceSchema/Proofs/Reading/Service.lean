import InterfaceSchema.Grammar.Service
import InterfaceSchema.Proofs.Reading.Block
import InterfaceSchema.Proofs.Reading.FieldType

/-!
# Reading the body of a service

`Grammar.method_reads`: the reader of methods accepts just the phrases `MethodPhrase`. Its parts are
`Grammar.argument_reads` for what stands between the parentheses and `Grammar.result_reads` for what
follows them.
-/

namespace InterfaceSchema
namespace Grammar

/-! ## Arguments -/

/-- Reading the argument type of a method with the parenthesis that closes it. -/
theorem argument_reads :
    Reads argument
      (fun _ taken type =>
        ∃ inner place, ArgumentPhrase inner type ∧ taken = inner ++ [⟨.rightParen, place⟩])
      id Anything where
  sound := by
    intro cursor advance hsucceeds
    unfold argument at hsucceeds
    split at hsucceeds
    · next close hclose =>
      simp only [Except.ok.injEq] at hsucceeds
      subst hsucceeds
      have hcovers := Cursor.take?_covers (by simp) hclose
      exact ⟨_, ⟨[], close.value, .none, rfl⟩, hcovers.map _⟩
    · split at hsucceeds
      · simp at hsucceeds
      · simp only [bind_eq_ok_iff, Except.ok.injEq] at hsucceeds
        obtain ⟨type, htype, close, hclose, rfl⟩ := hsucceeds
        obtain ⟨inner, hspelled, htypeCovers⟩ := (dottedName_reads .argumentType).sound htype
        obtain ⟨_, rfl, hcovers⟩ :=
          (Cursor.expect_reads (by simp)).andThen_sound htypeCovers hclose
        exact ⟨_, ⟨inner, close.value, .named hspelled, rfl⟩, hcovers.map _⟩
  complete := by
    rintro cursor taken rest value ⟨inner, place, hspelled, rfl⟩ _ hahead
    cases hspelled with
    | none =>
        obtain ⟨close, hclose, rfl⟩ := Cursor.exists_take? hahead
        have hcovers := Cursor.take?_covers (by simp) hclose
        refine ⟨close.map fun _ => voidName, ?_, rfl, hcovers.map _⟩
        simp only [argument, hclose]
    | named spelled =>
        obtain ⟨first, start, more, hopens⟩ := spelled.opens
        rw [List.append_assoc] at hahead
        obtain ⟨type, htype, rfl, htypeCovers⟩ :=
          (dottedName_reads .argumentType).complete _ _ _ spelled
            (noToken_cons (by simp)) hahead
        obtain ⟨close, hclose, _, hcovers⟩ :=
          (Cursor.expect_reads (by simp)).andThen_complete htypeCovers
            [⟨.rightParen, place⟩] _ _ rfl trivial hahead
        rw [hopens] at hahead
        have hnone : cursor.take? .rightParen = none := by
          rw [Cursor.take?_eq_none_iff, hahead]
          exact noToken_cons (by simp)
        obtain ⟨name, hname, _⟩ :=
          Cursor.exists_select? hahead (Token.ident?_eq_some_iff.2 rfl)
        refine ⟨close.map fun _ => type.value, ?_, rfl, hcovers.map _⟩
        simp only [argument, hnone, hname, bind_eq_ok_iff]
        exact ⟨type, htype, close, hclose, rfl⟩

/-! ## Results -/

section ResultType

variable {cursor : Cursor} {notes : Notes} {arrow : Advance cursor Location}

theorem resultType_sound
    (covers : arrow.Covers [⟨.arrow, arrow.value⟩] ⟨false, notes⟩)
    {found : Advance cursor Result}
    (succeeds : resultType arrow = .ok found) :
    ∃ taken,
      ResultPhrase taken found.value.type found.value.isStream ∧
        found.Covers taken ⟨false, notes⟩ := by
  unfold resultType at succeeds
  split at succeeds
  · next word hword =>
    simp only [bind_eq_ok_iff, Except.ok.injEq] at succeeds
    obtain ⟨type, htype, rfl⟩ := succeeds
    have hwordCovers := Cursor.take?_covers (by simp [Token.streamWord]) hword
    rw [covers.pending] at hwordCovers
    obtain ⟨name, hspelled, hcovers⟩ :=
      (dottedName_reads .returnType).andThen_sound (covers.followedBy hwordCovers) htype
    exact ⟨_, .stream arrow.value word.value hspelled, hcovers.map _⟩
  · next hnone =>
    simp only [bind_eq_ok_iff, Except.ok.injEq] at succeeds
    obtain ⟨type, htype, rfl⟩ := succeeds
    obtain ⟨name, hspelled, hcovers⟩ :=
      (dottedName_reads .returnType).andThen_sound covers htype
    rw [Cursor.take?_eq_none_iff] at hnone
    simp only [Advance.value_map]
    generalize type.value = text at hspelled
    cases hspelled with
    | @mk rest text first place tail =>
        have hahead : arrow.after.ahead = ⟨.ident first, place⟩ :: rest ++ type.after.ahead :=
          covers.rest_eq (by simpa using hcovers.ahead)
        have hother : Token.ident first ≠ Token.streamWord := by
          intro hsame
          rw [hsame] at hahead
          exact hnone _ _ hahead
        exact ⟨_, .single arrow.value place hother tail, hcovers.map _⟩

theorem resultType_complete
    (covers : arrow.Covers [⟨.arrow, arrow.value⟩] ⟨false, notes⟩)
    {taken rest : List Lexeme}
    {type : String}
    {isStream : Bool}
    (spelled : ResultPhrase (⟨.arrow, arrow.value⟩ :: taken) type isStream)
    (stops : NoToken .dot rest)
    (ahead : cursor.ahead = ⟨.arrow, arrow.value⟩ :: (taken ++ rest)) :
    ∃ found,
      resultType arrow = .ok found ∧
        found.value = ⟨type, isStream⟩ ∧
        found.Covers (⟨.arrow, arrow.value⟩ :: taken) ⟨false, notes⟩ := by
  have hrest : arrow.after.ahead = taken ++ rest := covers.rest_eq ahead
  cases spelled with
  | @single more text first _ place noStream tail =>
      have hnone : arrow.after.take? .streamWord = none := by
        rw [Cursor.take?_eq_none_iff, hrest]
        exact noToken_cons noStream
      obtain ⟨name, hname, hvalue, hcovers⟩ :=
        (dottedName_reads .returnType).andThen_complete covers
          (⟨.ident first, place⟩ :: more) rest _ (.mk first place tail) stops ahead
      refine ⟨name.map fun text => ⟨text, false⟩, ?_, ?_, hcovers.map _⟩
      · simp only [resultType, hnone, bind_eq_ok_iff]
        exact ⟨name, hname, rfl⟩
      · simp [hvalue]
  | @stream inner _ _ word spelled =>
      obtain ⟨mark, hmark, rfl⟩ := Cursor.exists_take? hrest
      have hmarkCovers := Cursor.take?_covers (by simp [Token.streamWord]) hmark
      rw [covers.pending] at hmarkCovers
      obtain ⟨name, hname, hvalue, hcovers⟩ :=
        (dottedName_reads .returnType).andThen_complete (covers.followedBy hmarkCovers)
          inner rest _ spelled stops (by simpa using ahead)
      refine ⟨name.map fun text => ⟨text, true⟩, ?_, ?_, hcovers.map _⟩
      · simp only [resultType, hmark, bind_eq_ok_iff]
        exact ⟨name, hname, rfl⟩
      · simp [hvalue]

end ResultType

/-- Reading the result of a method with the semicolon that ends it. -/
theorem result_reads :
    Reads result
      (fun _ taken (found : Result × Location) =>
        ∃ inner,
          ResultPhrase inner found.1.type found.1.isStream ∧
            taken = inner ++ [⟨.semicolon, found.2⟩])
      id Anything where
  sound := by
    intro cursor advance hsucceeds
    unfold result at hsucceeds
    split at hsucceeds
    · next close hclose =>
      simp only [Except.ok.injEq] at hsucceeds
      subst hsucceeds
      have hcovers := Cursor.take?_covers (by simp) hclose
      exact ⟨_, ⟨[], .none, rfl⟩, hcovers.map _⟩
    · split at hsucceeds
      · simp at hsucceeds
      · next arrow harrow =>
        simp only [bind_eq_ok_iff, Except.ok.injEq] at hsucceeds
        obtain ⟨found, hfound, close, hclose, rfl⟩ := hsucceeds
        obtain ⟨inner, hspelled, hfoundCovers⟩ :=
          resultType_sound (Cursor.take?_covers (by simp) harrow) hfound
        obtain ⟨_, rfl, hcovers⟩ :=
          (Cursor.expect_reads (by simp)).andThen_sound hfoundCovers hclose
        exact ⟨_, ⟨inner, hspelled, rfl⟩, hcovers.map _⟩
  complete := by
    rintro cursor taken rest ⟨⟨type, isStream⟩, stop⟩ ⟨inner, hspelled, rfl⟩ _ hahead
    rcases hspelled.none_or_arrow with ⟨rfl, rfl, rfl⟩ | ⟨place, more, rfl⟩
    · obtain ⟨close, hclose, rfl⟩ := Cursor.exists_take? hahead
      have hcovers := Cursor.take?_covers (by simp) hclose
      refine ⟨close.map fun place => (⟨voidName, false⟩, place), ?_, rfl, hcovers.map _⟩
      simp only [result, hclose]
    · have hnone : cursor.take? .semicolon = none := by
        rw [Cursor.take?_eq_none_iff, hahead]
        exact noToken_cons (by simp)
      obtain ⟨arrow, harrow, rfl⟩ := Cursor.exists_take? hahead
      have hstops : NoToken .dot (⟨.semicolon, stop⟩ :: rest) := noToken_cons (by simp)
      obtain ⟨found, hfound, hvalue, hfoundCovers⟩ :=
        resultType_complete (Cursor.take?_covers (by simp) harrow) hspelled hstops
          (by simpa using hahead)
      obtain ⟨close, hclose, hstop, hcovers⟩ :=
        (Cursor.expect_reads (by simp)).andThen_complete hfoundCovers
          [⟨.semicolon, stop⟩] rest stop rfl trivial (by simpa using hahead)
      refine ⟨close.map fun place => (found.value, place), ?_, ?_, hcovers.map _⟩
      · simp only [result, hnone, harrow, bind_eq_ok_iff]
        exact ⟨found, hfound, close, hclose, rfl⟩
      · simp [hvalue, hstop]

/-! ## Methods -/

/-- Reading a method. -/
theorem method_reads :
    Reads method MethodPhrase (fun _ => Notes.none) Anything where
  sound := by
    intro cursor advance hsucceeds
    simp only [method, bind_eq_ok_iff, Except.ok.injEq] at hsucceeds
    obtain ⟨name, hname, opening, hopening, argumentType, hargument, close, hclose, rfl⟩ :=
      hsucceeds
    obtain ⟨_, rfl, hnameCovers⟩ := (Cursor.ident_reads .methodName).sound hname
    obtain ⟨_, rfl, hopeningCovers⟩ :=
      (Cursor.expect_reads (by simp)).andThen_sound hnameCovers.detach hopening
    obtain ⟨_, ⟨argument, closing, hargumentSpelled, rfl⟩, hargumentCovers⟩ :=
      argument_reads.andThen_sound hopeningCovers hargument
    obtain ⟨_, ⟨result, hresultSpelled, rfl⟩, hcovers⟩ :=
      result_reads.andThen_sound hargumentCovers hclose
    refine
      ⟨_, .mk name.value.1 name.value.2 opening.value closing close.value.2
        hargumentSpelled hresultSpelled, ?_⟩
    simpa using hcovers.map _
  complete := by
    intro cursor taken rest value hspelled _ hahead
    cases hspelled with
    | @mk argument result argumentType returnType returnsStream name start opening closing stop
        argumentSpelled resultSpelled =>
        have hlexemes :
            cursor.ahead =
              [⟨.ident name, start⟩] ++ ([⟨.leftParen, opening⟩] ++
                ((argument ++ [⟨.rightParen, closing⟩]) ++
                  ((result ++ [⟨.semicolon, stop⟩]) ++ rest))) := by
          simpa using hahead
        obtain ⟨first, hfirst, hname, hfirstCovers⟩ :=
          (Cursor.ident_reads .methodName).complete _ _ (name, start) rfl trivial hlexemes
        obtain ⟨second, hsecond, _, hsecondCovers⟩ :=
          (Cursor.expect_reads (by simp)).andThen_complete hfirstCovers.detach
            _ _ opening rfl trivial hlexemes
        obtain ⟨third, hthird, hargument, hthirdCovers⟩ :=
          argument_reads.andThen_complete hsecondCovers _ _ argumentType
            ⟨argument, closing, argumentSpelled, rfl⟩ trivial (by simpa using hlexemes)
        obtain ⟨last, hlast, hresult, hlastCovers⟩ :=
          result_reads.andThen_complete hthirdCovers _ rest
            (⟨returnType, returnsStream⟩, stop) ⟨result, resultSpelled, rfl⟩ trivial
            (by simpa using hlexemes)
        have hcovers :
            last.Covers
              (⟨.ident name, start⟩ :: ⟨.leftParen, opening⟩ ::
                (argument ++ ⟨.rightParen, closing⟩ :: (result ++ [⟨.semicolon, stop⟩])))
              .clear := by
          simpa [Margin.clear] using hlastCovers
        refine
          ⟨last.map fun found =>
              { location := first.value.2.through found.2
                name := first.value.1
                notes := cursor.pending
                argumentType := third.value
                returnType := found.1.type
                returnsStream := found.1.isStream },
            ?_, ?_, hcovers.map _⟩
        · simp only [method, bind_eq_ok_iff]
          exact ⟨first, hfirst, second, hsecond, third, hthird, last, hlast, rfl⟩
        · simp [hname, hargument, hresult]

end Grammar
end InterfaceSchema
