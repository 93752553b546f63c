import InterfaceSchema.Grammar.Schema
import InterfaceSchema.Proofs.Reading.Message
import InterfaceSchema.Proofs.Reading.Service
import InterfaceSchema.Proofs.Schema.Table

/-!
# Reading messages and services

* `Grammar.declaration_reads`: behind given declarations, the reader accepts just the phrases
  `DeclarationPhrase` whose name is new.
* `Grammar.declarations_sound`, `Grammar.declarations_complete`: the messages and services up to the
  end of the text are entries with distinct names, and each of them is added to the schema.
* `Grammar.exists_declarations_behind`: what the reader goes on with behind some declarations.
-/

namespace InterfaceSchema

namespace Grammar

section Declared

variable {schema : Schema}

/-- Reading a name that is new to the schema. -/
theorem newName_reads (faithful : schema.Faithful) (expected : Expected) :
    Reads (newName schema expected)
      (fun _ taken name =>
        ∃ place, taken = [⟨.ident name, place⟩] ∧ name ∉ declaredNames schema.declarations)
      id Anything where
  sound := by
    intro cursor advance hsucceeds
    simp only [newName, bind_eq_ok_iff] at hsucceeds
    rcases hsucceeds with ⟨name, hname, hnew⟩
    rcases (Cursor.ident_reads expected).sound hname with ⟨_, rfl, hcovers⟩
    split at hnew
    · simp at hnew
    · next hnone =>
      simp only [Except.ok.injEq] at hnew
      subst hnew
      rw [faithful.declarationLocation?_eq_none_iff] at hnone
      exact ⟨_, ⟨name.value.2, rfl, hnone⟩, hcovers.map _⟩
  complete := by
    rintro cursor taken rest value ⟨place, rfl, hfresh⟩ _ hahead
    rcases (Cursor.ident_reads expected).complete _ _ (value, place) rfl trivial hahead with
      ⟨name, hname, hvalue, hcovers⟩
    refine ⟨name.map Prod.fst, ?_, ?_, hcovers.map _⟩
    · rw [← faithful.declarationLocation?_eq_none_iff] at hfresh
      simp only [newName, bind_eq_ok_iff]
      refine ⟨name, hname, ?_⟩
      simp only [hvalue, hfresh]
    · simp [hvalue]

variable
  {α : Type}
  {item : Item α}
  {Phrase : Notes → List Lexeme → α → Prop}
  {expected : Expected}
  {token : Token}
  {cursor : Cursor}
  {notes waiting : Notes}
  {word : Advance cursor Location}

/-- The lexemes of a word, a name, and a body between braces. -/
def namedBody
    (token : Token)
    (name : String)
    (start place opening closing : Location)
    (body : List Lexeme) :
    List Lexeme :=
  ⟨token, start⟩ :: ⟨.ident name, place⟩ :: ⟨.leftBrace, opening⟩ ::
    (body ++ [⟨.rightBrace, closing⟩])

theorem namedBody_sound
    (faithful : schema.Faithful)
    (reads : Reads item Phrase (fun _ => Notes.none) Anything)
    (covers : word.Covers [⟨token, word.value⟩] ⟨false, waiting⟩)
    {name : Advance cursor String}
    {opening : Advance cursor Location}
    {body : Advance cursor (List α × Location)}
    (named : word.detach.andThen (newName schema expected) = .ok name)
    (opened : (name.andThen fun after => after.expect .leftBrace) = .ok opening)
    (filled : opening.andThen (block item) = .ok body) :
    ∃ place inner,
      Entries Phrase .clear inner body.value.1 ∧
        name.value ∉ declaredNames schema.declarations ∧
        body.detach.Covers
          (namedBody token name.value word.value place opening.value body.value.2 inner)
          .clear := by
  rcases (newName_reads faithful expected).andThen_sound covers.detach named with
    ⟨_, ⟨place, rfl, hfresh⟩, hnameCovers⟩
  rcases (Cursor.expect_reads (by simp)).andThen_sound hnameCovers opened with
    ⟨_, rfl, hopeningCovers⟩
  rcases Advance.andThen_eq_ok_iff.1 filled with ⟨second, hsecond, rfl⟩
  rcases block_sound reads hsecond with ⟨inner, left, hentries, hsecondCovers⟩
  rw [hopeningCovers.margin] at hentries
  refine ⟨place, inner, hentries, hfresh, ?_⟩
  simpa [namedBody] using (hopeningCovers.followedBy hsecondCovers).detach

theorem namedBody_complete
    (faithful : schema.Faithful)
    (reads : Reads item Phrase (fun _ => Notes.none) Anything)
    (opens : OpensWithName Phrase)
    (covers : word.Covers [⟨token, word.value⟩] ⟨false, waiting⟩)
    {name : String}
    {start place opening closing : Location}
    {inner rest : List Lexeme}
    {items : List α}
    (fresh : name ∉ declaredNames schema.declarations)
    (entries : Entries Phrase .clear inner items)
    (ahead :
      cursor.ahead = namedBody token name start place opening closing inner ++ rest) :
    ∃ first second body,
      word.detach.andThen (newName schema expected) = .ok first ∧
        (first.andThen fun after => after.expect .leftBrace) = .ok second ∧
        second.andThen (block item) = .ok body ∧
        first.value = name ∧ word.value = start ∧ body.value = (items, closing) ∧
        body.detach.Covers (namedBody token name start place opening closing inner) .clear := by
  rcases covers.head_eq ahead with ⟨hword, _⟩
  simp only [Lexeme.mk.injEq, true_and] at hword
  subst hword
  have hahead :
      cursor.ahead =
        [⟨token, word.value⟩] ++ ([⟨.ident name, place⟩] ++
          ([⟨.leftBrace, opening⟩] ++ (inner ++ ⟨.rightBrace, closing⟩ :: rest))) := by
    simpa [namedBody] using ahead
  rcases (newName_reads faithful expected).andThen_complete covers.detach _ _ name
      ⟨place, rfl, fresh⟩ trivial hahead with
    ⟨first, hfirst, hname, hfirstCovers⟩
  rcases (Cursor.expect_reads (by simp)).andThen_complete hfirstCovers
      [⟨.leftBrace, opening⟩] _ opening rfl trivial (by simpa using hahead) with
    ⟨second, hsecond, _, hsecondCovers⟩
  rcases block_complete reads opens entries hsecondCovers.margin
      (hsecondCovers.rest_eq (by simpa using hahead)) with
    ⟨found, left, hfound, hitems, hfoundCovers⟩
  refine ⟨first, second, second.followedBy found, hfirst, hsecond, ?_, hname, rfl, hitems, ?_⟩
  · exact Advance.andThen_eq_ok_iff.2 ⟨found, hfound, rfl⟩
  · simpa [namedBody] using (hsecondCovers.followedBy hfoundCovers).detach

theorem message_sound
    (faithful : schema.Faithful)
    (covers : word.Covers [⟨.messageWord, word.value⟩] ⟨false, waiting⟩)
    {result : Advance cursor Message}
    (succeeds : message schema notes word = .ok result) :
    ∃ taken,
      MessagePhrase notes taken result.value ∧
        schema.Admits (.message result.value) ∧ result.Covers taken .clear := by
  simp only [message, bind_eq_ok_iff, Except.ok.injEq] at succeeds
  rcases succeeds with ⟨name, hname, opening, hopening, body, hbody, rfl⟩
  rcases namedBody_sound faithful member_reads covers hname hopening hbody with
    ⟨place, inner, hentries, hfresh, hcovers⟩
  refine ⟨_, .mk name.value word.value place opening.value body.value.2 hentries, ?_, ?_⟩
  · intro other hsame
    cases hsame
    exact hfresh
  · exact hcovers.map _

theorem service_sound
    (faithful : schema.Faithful)
    (covers : word.Covers [⟨.serviceWord, word.value⟩] ⟨false, waiting⟩)
    {result : Advance cursor Service}
    (succeeds : service schema notes word = .ok result) :
    ∃ taken,
      ServicePhrase notes taken result.value ∧
        schema.Admits (.service result.value) ∧ result.Covers taken .clear := by
  simp only [service, bind_eq_ok_iff, Except.ok.injEq] at succeeds
  rcases succeeds with ⟨name, hname, opening, hopening, body, hbody, rfl⟩
  rcases namedBody_sound faithful method_reads covers hname hopening hbody with
    ⟨place, inner, hentries, hfresh, hcovers⟩
  refine ⟨_, .mk name.value word.value place opening.value body.value.2 hentries, ?_, ?_⟩
  · intro other hsame
    cases hsame
    exact hfresh
  · exact hcovers.map _

theorem message_complete
    (faithful : schema.Faithful)
    (covers : word.Covers [⟨.messageWord, word.value⟩] ⟨false, waiting⟩)
    {taken rest : List Lexeme}
    {declared : Message}
    (spelled : MessagePhrase notes taken declared)
    (admitted : schema.Admits (.message declared))
    (ahead : cursor.ahead = taken ++ rest) :
    ∃ result,
      message schema notes word = .ok result ∧
        result.value = declared ∧ result.Covers taken .clear := by
  cases spelled with
  | @mk inner members name start place opening closing entries =>
      rcases namedBody_complete faithful member_reads MemberPhrase.opensWithName covers
          (admitted name rfl) entries ahead with
        ⟨first, second, body, hfirst, hsecond, hbody, hname, hstart, hmembers, hcovers⟩
      refine
        ⟨body.detach.map fun block =>
            { location := word.value.through block.2
              name := first.value
              notes := notes
              members := block.1 },
          ?_, ?_, hcovers.map _⟩
      · simp only [message, bind_eq_ok_iff]
        exact ⟨first, hfirst, second, hsecond, body, hbody, rfl⟩
      · simp [hname, hstart, hmembers]

theorem service_complete
    (faithful : schema.Faithful)
    (covers : word.Covers [⟨.serviceWord, word.value⟩] ⟨false, waiting⟩)
    {taken rest : List Lexeme}
    {declared : Service}
    (spelled : ServicePhrase notes taken declared)
    (admitted : schema.Admits (.service declared))
    (ahead : cursor.ahead = taken ++ rest) :
    ∃ result,
      service schema notes word = .ok result ∧
        result.value = declared ∧ result.Covers taken .clear := by
  cases spelled with
  | @mk inner methods name start place opening closing entries =>
      rcases namedBody_complete faithful method_reads MethodPhrase.opensWithName covers
          (admitted name rfl) entries ahead with
        ⟨first, second, body, hfirst, hsecond, hbody, hname, hstart, hmethods, hcovers⟩
      refine
        ⟨body.detach.map fun block =>
            { location := word.value.through block.2
              name := first.value
              notes := notes
              methods := block.1 },
          ?_, ?_, hcovers.map _⟩
      · simp only [service, bind_eq_ok_iff]
        exact ⟨first, hfirst, second, hsecond, body, hbody, rfl⟩
      · simp [hname, hstart, hmethods]

end Declared

/-- Reading a message or a service behind given declarations. -/
theorem declaration_reads {schema : Schema} (faithful : schema.Faithful) :
    Reads (declaration schema)
      (fun notes taken declared =>
        DeclarationPhrase notes taken declared ∧ schema.Admits declared)
      (fun _ => Notes.none) Anything where
  sound := by
    intro cursor advance hsucceeds
    unfold declaration at hsucceeds
    split at hsucceeds
    · next word hword =>
      simp only [bind_eq_ok_iff, Except.ok.injEq] at hsucceeds
      rcases hsucceeds with ⟨declared, hdeclared, rfl⟩
      have hwordCovers := Cursor.take?_covers (by simp [Token.messageWord]) hword
      rcases message_sound faithful hwordCovers hdeclared with
        ⟨taken, hspelled, hadmitted, hcovers⟩
      exact ⟨taken, ⟨.message hspelled, hadmitted⟩, hcovers.map _⟩
    · split at hsucceeds
      · next word hword =>
        simp only [bind_eq_ok_iff, Except.ok.injEq] at hsucceeds
        rcases hsucceeds with ⟨declared, hdeclared, rfl⟩
        have hwordCovers := Cursor.take?_covers (by simp [Token.serviceWord]) hword
        rcases service_sound faithful hwordCovers hdeclared with
          ⟨taken, hspelled, hadmitted, hcovers⟩
        exact ⟨taken, ⟨.service hspelled, hadmitted⟩, hcovers.map _⟩
      · simp at hsucceeds
  complete := by
    rintro cursor taken rest value ⟨hspelled, hadmitted⟩ _ hahead
    cases hspelled with
    | @message declared spelled =>
        have hopens : ∃ start more, cursor.ahead = ⟨.messageWord, start⟩ :: more := by
          cases spelled
          exact ⟨_, _, hahead⟩
        rcases hopens with ⟨start, more, hmore⟩
        rcases Cursor.exists_take? hmore with ⟨word, hword, _⟩
        have hwordCovers := Cursor.take?_covers (by simp [Token.messageWord]) hword
        rcases message_complete faithful hwordCovers spelled hadmitted hahead with
          ⟨result, hresult, rfl, hcovers⟩
        refine ⟨result.map .message, ?_, rfl, hcovers.map _⟩
        simp only [declaration, hword, bind_eq_ok_iff]
        exact ⟨result, hresult, rfl⟩
    | @service declared spelled =>
        have hopens : ∃ start more, cursor.ahead = ⟨.serviceWord, start⟩ :: more := by
          cases spelled
          exact ⟨_, _, hahead⟩
        rcases hopens with ⟨start, more, hmore⟩
        have hnone : cursor.take? .messageWord = none := by
          rw [Cursor.take?_eq_none_iff, hmore]
          exact noToken_cons (by simp [Token.serviceWord, Token.messageWord])
        rcases Cursor.exists_take? hmore with ⟨word, hword, _⟩
        have hwordCovers := Cursor.take?_covers (by simp [Token.serviceWord]) hword
        rcases service_complete faithful hwordCovers spelled hadmitted hahead with
          ⟨result, hresult, rfl, hcovers⟩
        refine ⟨result.map .service, ?_, rfl, hcovers.map _⟩
        simp only [declaration, hnone, hword, bind_eq_ok_iff]
        exact ⟨result, hresult, rfl⟩

/-! ## Up to the end of the text -/

/-- Nothing is left but the end of the text. -/
def AtEnd (rest : List Lexeme) : Prop :=
  rest = [] ∨ ∃ place more, rest = ⟨.eof, place⟩ :: more

theorem peek_eq_eof_iff {cursor : Cursor} : cursor.peek.token = .eof ↔ AtEnd cursor.ahead := by
  unfold AtEnd Cursor.peek
  cases cursor.ahead with
  | nil =>
      simp
  | cons lexeme rest =>
      cases lexeme with
      | mk token place =>
          simp

theorem not_atEnd
    {rest : List Lexeme}
    (nonempty : rest ≠ [])
    (noEnd : NoToken .eof rest) :
    ¬ AtEnd rest := by
  rintro (hnil | ⟨place, more, hrest⟩)
  · exact nonempty hnil
  · exact noEnd place more hrest

theorem eof_opensNothing : Token.OpensNothing .eof := by
  constructor <;> simp

theorem declarations_sound
    {schema final : Schema}
    {cursor : Cursor}
    (faithful : schema.Faithful)
    (distinct : (declaredNames schema.declarations).Nodup)
    (succeeds : declarations schema cursor = .ok final) :
    ∃ body items rest,
      Entries DeclarationPhrase cursor.margin body items ∧
        cursor.ahead = body ++ rest ∧
        AtEnd rest ∧
        (declaredNames final.declarations).Nodup ∧
        final = items.foldl Schema.push schema := by
  induction schema, cursor using declarations.induct with
  | case1 schema cursor hend =>
      rw [declarations, if_pos hend] at succeeds
      simp only [Except.ok.injEq] at succeeds
      subst succeeds
      exact ⟨[], [], cursor.ahead, .nil _, rfl, peek_eq_eof_iff.1 hend, distinct, rfl⟩
  | case2 schema cursor hmore ih =>
      rw [declarations, if_neg hmore] at succeeds
      simp only [bind_eq_ok_iff] at succeeds
      rcases succeeds with ⟨found, hfound, hlater⟩
      rcases entry_sound (declaration_reads faithful) hfound with
        ⟨taken, next, hfiller, hvalue, hcovers⟩ |
          ⟨taken, declared, ⟨hspelled, hadmitted⟩, hvalue, hcovers⟩
      · have hrest := ih found
        rw [hvalue] at hrest hlater
        rcases hrest faithful distinct hlater with
          ⟨body, items, rest, hentries, hahead, hend, hdistinct, hfinal⟩
        rw [hcovers.margin] at hentries
        refine
          ⟨taken ++ body, items, rest, .filler hfiller hentries, ?_, hend, hdistinct, hfinal⟩
        rw [hcovers.ahead, hahead, List.append_assoc]
      · have hrest := ih found
        rw [hvalue] at hrest hlater
        rcases hrest (Schema.push_faithful faithful declared)
            (Schema.nodup_declaredNames_push_iff.2 ⟨distinct, hadmitted⟩) hlater with
          ⟨body, items, rest, hentries, hahead, hend, hdistinct, hfinal⟩
        rw [hcovers.margin] at hentries
        refine
          ⟨taken ++ body, declared :: items, rest, .item hspelled hentries, ?_, hend, hdistinct,
            hfinal⟩
        rw [hcovers.ahead, hahead, List.append_assoc]

/-- Declarations go on behind their first entry. -/
theorem declarations_of_entry
    {schema : Schema}
    {cursor : Cursor}
    {found : Advance cursor (Option Declaration)}
    (noEnd : NoToken .eof cursor.ahead)
    (first : entry (declaration schema) cursor = .ok found) :
    declarations schema cursor =
      declarations (found.value.elim schema schema.push) found.after := by
  have hnonempty : cursor.ahead ≠ [] :=
    List.ne_nil_of_length_pos (Nat.zero_lt_of_lt found.shorter)
  have hmore := not_atEnd hnonempty noEnd
  rw [← peek_eq_eof_iff] at hmore
  rw [declarations, if_neg hmore, first]
  rfl

/-- Behind some declarations the reader goes on with what they add to the schema. -/
theorem exists_declarations_behind
    {schema : Schema}
    {cursor : Cursor}
    {margin : Margin}
    {body rest : List Lexeme}
    {items : List Declaration}
    (faithful : schema.Faithful)
    (entries : Entries DeclarationPhrase margin body items)
    (distinct : (declaredNames (items.foldl Schema.push schema).declarations).Nodup)
    (stops : NoToken .leftParen rest)
    (stands : cursor.margin = margin)
    (ahead : cursor.ahead = body ++ rest) :
    ∃ after,
      declarations schema cursor = declarations (items.foldl Schema.push schema) after ∧
        after.ahead = rest := by
  induction entries generalizing cursor schema with
  | nil margin =>
      exact ⟨cursor, rfl, ahead⟩
  | @filler margin next taken body items passed later ih =>
      subst stands
      have hstop : NoToken .leftParen (body ++ rest) :=
        later.noToken DeclarationPhrase.opensWithName leftParen_opensNothing stops
      rw [List.append_assoc] at ahead
      rcases entry_of_filler passed hstop ahead with ⟨found, hfound, hvalue, hcovers⟩
      have hnoEnd : NoToken .eof cursor.ahead := by
        rw [ahead]
        exact passed.noToken eof_opensNothing
      rcases ih faithful distinct hcovers.margin (hcovers.rest_eq ahead) with
        ⟨after, hafter, hrest⟩
      refine ⟨after, ?_, hrest⟩
      rw [declarations_of_entry hnoEnd hfound, hvalue]
      exact hafter
  | @item margin taken body declared items spelled later ih =>
      subst stands
      rw [List.append_assoc] at ahead
      have hadmitted : schema.Admits declared :=
        (Schema.nodup_declaredNames_push_iff.1
          (Schema.nodup_declaredNames_of_foldl_push distinct)).2
      have hopens :
          OpensWithName fun notes taken value =>
            DeclarationPhrase notes taken value ∧ schema.Admits value := by
        rintro notes lexemes value ⟨hvalue, _⟩
        exact DeclarationPhrase.opensWithName notes lexemes value hvalue
      rcases entry_of_item (declaration_reads faithful) hopens ⟨spelled, hadmitted⟩ ahead with
        ⟨found, hfound, hvalue, hcovers⟩
      have hnoEnd : NoToken .eof cursor.ahead := by
        rw [ahead]
        exact DeclarationPhrase.opensWithName.noToken (by simp) spelled
      rcases ih (Schema.push_faithful faithful declared) distinct hcovers.margin
          (hcovers.rest_eq ahead) with
        ⟨after, hafter, hrest⟩
      refine ⟨after, ?_, hrest⟩
      rw [declarations_of_entry hnoEnd hfound, hvalue]
      exact hafter

theorem declarations_complete
    {schema : Schema}
    {cursor : Cursor}
    {margin : Margin}
    {body : List Lexeme}
    {items : List Declaration}
    {stop : Location}
    (faithful : schema.Faithful)
    (entries : Entries DeclarationPhrase margin body items)
    (distinct : (declaredNames (items.foldl Schema.push schema).declarations).Nodup)
    (stands : cursor.margin = margin)
    (ahead : cursor.ahead = body ++ [⟨.eof, stop⟩]) :
    declarations schema cursor = .ok (items.foldl Schema.push schema) := by
  rcases exists_declarations_behind faithful entries distinct (noToken_cons (by simp)) stands
      ahead with
    ⟨after, hafter, hrest⟩
  have hend : after.peek.token = .eof := by
    rw [peek_eq_eof_iff, hrest]
    exact Or.inr ⟨stop, [], rfl⟩
  rw [hafter, declarations, if_pos hend]

end Grammar
end InterfaceSchema
