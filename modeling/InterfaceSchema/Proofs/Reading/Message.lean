import InterfaceSchema.Grammar.Message
import InterfaceSchema.Proofs.Reading.Block
import InterfaceSchema.Proofs.Reading.FieldType

/-!
# Reading the body of a message

`Grammar.oneofField_reads` and `Grammar.member_reads`: the readers of entries in a group and in the
body of a message accept just the phrases `FieldPhrase` and `MemberPhrase`.
-/

namespace InterfaceSchema

/-- An index does not go on with a dotted name. -/
theorem IndexPhrase.noDot
    {taken : List Lexeme}
    {number : UInt64}
    {stop : Location}
    (indexed : IndexPhrase taken number stop)
    (rest : List Lexeme) :
    NoToken .dot (taken ++ rest) := by
  cases indexed
  exact noToken_cons (by simp)

namespace Grammar

/-- Reading an index with its semicolon. -/
theorem index_reads :
    Reads index
      (fun _ taken (found : UInt64 × Location) => IndexPhrase taken found.1 found.2)
      id Anything where
  sound := by
    intro cursor advance hsucceeds
    simp only [index, bind_eq_ok_iff, Except.ok.injEq] at hsucceeds
    obtain ⟨equals, hequals, number, hnumber, close, hclose, rfl⟩ := hsucceeds
    obtain ⟨_, rfl, hequalsCovers⟩ := (Cursor.expect_reads (by simp)).sound hequals
    obtain ⟨_, ⟨token, htoken, rfl⟩, hnumberCovers⟩ :=
      (Cursor.select_reads .integer rfl).andThen_sound hequalsCovers hnumber
    rw [Token.number?_eq_some_iff] at htoken
    subst htoken
    obtain ⟨_, rfl, hcovers⟩ := (Cursor.expect_reads (by simp)).andThen_sound hnumberCovers hclose
    exact ⟨_, .mk number.value.1 equals.value number.value.2 close.value, hcovers.map _⟩
  complete := by
    rintro cursor taken rest ⟨number, stop⟩ hspelled _ hahead
    cases hspelled with
    | mk number equals digits stop =>
        obtain ⟨first, hfirst, _, hfirstCovers⟩ :=
          (Cursor.expect_reads (by simp)).complete [⟨.equals, equals⟩] _ _ rfl trivial hahead
        obtain ⟨second, hsecond, hnumber, hsecondCovers⟩ :=
          (Cursor.select_reads .integer rfl).andThen_complete hfirstCovers
            [⟨.number number, digits⟩] _ (number, digits)
            ⟨_, Token.number?_eq_some_iff.2 rfl, rfl⟩ trivial hahead
        obtain ⟨third, hthird, hstop, hthirdCovers⟩ :=
          (Cursor.expect_reads (by simp)).andThen_complete hsecondCovers
            [⟨.semicolon, stop⟩] _ _ rfl trivial hahead
        refine ⟨third.map fun place => (second.value.1, place), ?_, ?_, hthirdCovers.map _⟩
        · simp only [index, bind_eq_ok_iff]
          exact ⟨first, hfirst, second, hsecond, third, hthird, rfl⟩
        · simp [hnumber, hstop]

/-! ## Fields -/

theorem field_sound
    {cursor : Cursor}
    {result : Advance cursor Field}
    (noGroup : cursor.take? .oneofWord = none)
    (succeeds : field cursor = .ok result) :
    ∃ taken, FieldPhrase cursor.pending taken result.value ∧ result.Covers taken .clear := by
  simp only [field, bind_eq_ok_iff, Except.ok.injEq] at succeeds
  obtain ⟨name, hname, type, htype, close, hclose, rfl⟩ := succeeds
  obtain ⟨_, rfl, hnameCovers⟩ := (Cursor.ident_reads .fieldName).sound hname
  obtain ⟨typeLexemes, htyped, htypeCovers⟩ :=
    fieldType_reads.andThen_sound hnameCovers.detach htype
  obtain ⟨indexLexemes, hindexed, hcovers⟩ := index_reads.andThen_sound htypeCovers hclose
  have hother : Token.ident name.value.1 ≠ Token.oneofWord := by
    intro hsame
    have hahead := hnameCovers.ahead
    rw [hsame] at hahead
    exact Cursor.take?_eq_none_iff.1 noGroup _ _ hahead
  refine ⟨_, .mk name.value.2 hother htyped hindexed, ?_⟩
  simpa [Margin.clear] using hcovers.map _

theorem field_complete
    {cursor : Cursor}
    {taken rest : List Lexeme}
    {value : Field}
    (spelled : FieldPhrase cursor.pending taken value)
    (ahead : cursor.ahead = taken ++ rest) :
    ∃ result,
      field cursor = .ok result ∧ result.value = value ∧ result.Covers taken .clear := by
  cases spelled with
  | @mk typeLexemes indexLexemes name type number stop start noGroup typed indexed =>
      have hahead :
          cursor.ahead =
            [⟨.ident name, start⟩] ++ (typeLexemes ++ (indexLexemes ++ rest)) := by
        simpa using ahead
      obtain ⟨first, hfirst, hname, hfirstCovers⟩ :=
        (Cursor.ident_reads .fieldName).complete _ _ (name, start) rfl trivial hahead
      obtain ⟨second, hsecond, htype, hsecondCovers⟩ :=
        fieldType_reads.andThen_complete hfirstCovers.detach _ _ _ typed (indexed.noDot rest) hahead
      obtain ⟨third, hthird, hnumber, hthirdCovers⟩ :=
        index_reads.andThen_complete hsecondCovers indexLexemes rest (number, stop) indexed trivial
          (by simpa using hahead)
      have hcovers :
          third.Covers (⟨.ident name, start⟩ :: (typeLexemes ++ indexLexemes)) .clear := by
        simpa [Margin.clear] using hthirdCovers
      refine
        ⟨third.map fun index =>
            { location := first.value.2.through index.2
              name := first.value.1
              type := second.value
              index := index.1
              notes := cursor.pending },
          ?_, ?_, hcovers.map _⟩
      · simp only [field, bind_eq_ok_iff]
        exact ⟨first, hfirst, second, hsecond, third, hthird, rfl⟩
      · simp [hname, htype, hnumber]

theorem fieldPhrase_noGroup
    {notes : Notes}
    {taken rest : List Lexeme}
    {value : Field}
    (spelled : FieldPhrase notes taken value) :
    NoToken .oneofWord (taken ++ rest) := by
  cases spelled with
  | mk start noGroup typed indexed =>
      exact noToken_cons noGroup

/-- Reading an entry of a group. -/
theorem oneofField_reads :
    Reads oneofField FieldPhrase (fun _ => Notes.none) Anything where
  sound := by
    intro cursor advance hsucceeds
    unfold oneofField at hsucceeds
    split at hsucceeds
    · simp at hsucceeds
    · next hnone =>
      exact field_sound hnone hsucceeds
  complete := by
    intro cursor taken rest value hspelled _ hahead
    have hnone : cursor.take? .oneofWord = none := by
      rw [Cursor.take?_eq_none_iff, hahead]
      exact fieldPhrase_noGroup hspelled
    simp only [oneofField, hnone]
    exact field_complete hspelled hahead

/-! ## Groups and members -/

section Oneof

variable {cursor : Cursor} {notes waiting : Notes} {word : Advance cursor Location}

theorem oneof_sound
    (covers : word.Covers [⟨.oneofWord, word.value⟩] ⟨false, waiting⟩)
    {result : Advance cursor Oneof}
    (succeeds : oneof notes word = .ok result) :
    ∃ taken, GroupPhrase notes taken result.value ∧ result.Covers taken .clear := by
  simp only [oneof, bind_eq_ok_iff, Except.ok.injEq] at succeeds
  obtain ⟨opening, hopening, fields, hfields, close, hclose, rfl⟩ := succeeds
  obtain ⟨_, rfl, hopeningCovers⟩ :=
    (Cursor.expect_reads (by simp)).andThen_sound covers.detach hopening
  obtain ⟨inner, hinner, rfl⟩ := Advance.andThen_eq_ok_iff.1 hfields
  obtain ⟨body, left, hentries, hinnerCovers⟩ := block_sound oneofField_reads hinner
  rw [hopeningCovers.margin] at hentries
  have hfieldsCovers := hopeningCovers.followedBy hinnerCovers
  obtain ⟨indexLexemes, hindexed, hcovers⟩ := index_reads.andThen_sound hfieldsCovers hclose
  refine ⟨_, .mk word.value opening.value inner.value.2 hentries hindexed, ?_⟩
  simpa using hcovers.detach.map _

theorem oneof_complete
    (covers : word.Covers [⟨.oneofWord, word.value⟩] ⟨false, waiting⟩)
    {taken rest : List Lexeme}
    {group : Oneof}
    (spelled : GroupPhrase notes taken group)
    (ahead : cursor.ahead = taken ++ rest) :
    ∃ result,
      oneof notes word = .ok result ∧ result.value = group ∧ result.Covers taken .clear := by
  cases spelled with
  | @mk body indexLexemes fields number stop start opening closing entries indexed =>
      obtain ⟨hword, _⟩ := covers.head_eq ahead
      simp only [Lexeme.mk.injEq, true_and] at hword
      subst hword
      have hahead :
          cursor.ahead =
            [⟨.oneofWord, word.value⟩] ++ ([⟨.leftBrace, opening⟩] ++
              (body ++ ⟨.rightBrace, closing⟩ :: (indexLexemes ++ rest))) := by
        simpa using ahead
      obtain ⟨first, hfirst, _, hfirstCovers⟩ :=
        (Cursor.expect_reads (by simp)).andThen_complete covers.detach _ _ opening rfl trivial
          hahead
      obtain ⟨inner, left, hinner, hfields, hinnerCovers⟩ :=
        block_complete oneofField_reads FieldPhrase.opensWithName entries hfirstCovers.margin
          (hfirstCovers.rest_eq (by simpa using hahead))
      have hbody := hfirstCovers.followedBy hinnerCovers
      obtain ⟨last, hlast, hnumber, hlastCovers⟩ :=
        index_reads.andThen_complete hbody indexLexemes rest (number, stop) indexed trivial
          (by simpa using hahead)
      have hcovers :
          last.detach.Covers
            (⟨.oneofWord, word.value⟩ :: ⟨.leftBrace, opening⟩ ::
              (body ++ ⟨.rightBrace, closing⟩ :: indexLexemes)) .clear := by
        simpa using hlastCovers.detach
      refine
        ⟨last.detach.map fun index =>
            { location := word.value.through index.2
              index := index.1
              fields := inner.value.1
              notes := notes },
          ?_, ?_, hcovers.map _⟩
      · simp only [oneof, bind_eq_ok_iff]
        exact
          ⟨first, hfirst, _, Advance.andThen_eq_ok_iff.2 ⟨inner, hinner, rfl⟩, last, hlast, rfl⟩
      · simp [hfields, hnumber]

end Oneof

/-- Reading an entry in the body of a message. -/
theorem member_reads :
    Reads member MemberPhrase (fun _ => Notes.none) Anything where
  sound := by
    intro cursor advance hsucceeds
    unfold member at hsucceeds
    split at hsucceeds
    · next word hword =>
      simp only [bind_eq_ok_iff, Except.ok.injEq] at hsucceeds
      obtain ⟨group, hgroup, rfl⟩ := hsucceeds
      obtain ⟨taken, hspelled, hcovers⟩ :=
        oneof_sound (Cursor.take?_covers (by simp [Token.oneofWord]) hword) hgroup
      exact ⟨taken, .oneof hspelled, hcovers.map _⟩
    · next hnone =>
      simp only [bind_eq_ok_iff, Except.ok.injEq] at hsucceeds
      obtain ⟨single, hsingle, rfl⟩ := hsucceeds
      obtain ⟨taken, hspelled, hcovers⟩ := field_sound hnone hsingle
      exact ⟨taken, .field hspelled, hcovers.map _⟩
  complete := by
    intro cursor taken rest value hspelled _ hahead
    cases hspelled with
    | @field single spelled =>
        have hnone : cursor.take? .oneofWord = none := by
          rw [Cursor.take?_eq_none_iff, hahead]
          exact fieldPhrase_noGroup spelled
        obtain ⟨result, hresult, rfl, hcovers⟩ := field_complete spelled hahead
        refine ⟨result.map .field, ?_, rfl, hcovers.map _⟩
        simp only [member, hnone, bind_eq_ok_iff]
        exact ⟨result, hresult, rfl⟩
    | @oneof group spelled =>
        have hword : ∃ start more, cursor.ahead = ⟨.oneofWord, start⟩ :: more := by
          cases spelled
          exact ⟨_, _, hahead⟩
        obtain ⟨start, more, hmore⟩ := hword
        obtain ⟨word, hword, _⟩ := Cursor.exists_take? hmore
        obtain ⟨result, hresult, rfl, hcovers⟩ :=
          oneof_complete (Cursor.take?_covers (by simp [Token.oneofWord]) hword) spelled hahead
        refine ⟨result.map .oneof, ?_, rfl, hcovers.map _⟩
        simp only [member, hword, bind_eq_ok_iff]
        exact ⟨result, hresult, rfl⟩

end Grammar
end InterfaceSchema
