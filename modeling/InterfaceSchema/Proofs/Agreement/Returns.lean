import InterfaceSchema.Proofs.Agreement.Schema
import InterfaceSchema.Proofs.Token.Lines
import InterfaceSchema.Proofs.Token.Refused
import InterfaceSchema.Proofs.Unplaced.Phrase

/-!
# Carriage returns before line feeds

Lines may end with a line feed alone, or with a carriage return and a line feed. The same tokens and
the same schema are read from both, and the same kind of failure is found.

A carriage return is a separator between tokens, and ends names of annotations as a line feed does.
At the end of a comment it is trimmed. It may stand in a string, but not before the line feed that
leaves the string open.

* `withReturns`: a text with carriage returns before its line feeds.
* `Token.read_withReturns`: what one token leaves of the two texts.
* `pieces_withReturns`: the pieces of the two texts.
* `agree_withReturns`: scanning and parsing.
-/

namespace InterfaceSchema

/-- A text with a carriage return before each of its line feeds. -/
def withReturns (text : List Char) : List Char :=
  text.flatMap fun c => if c = '\n' then ['\r', '\n'] else [c]

@[simp]
theorem withReturns_nil : withReturns [] = [] :=
  rfl

@[simp]
theorem withReturns_lineFeed (rest : List Char) :
    withReturns ('\n' :: rest) = '\r' :: '\n' :: withReturns rest := by
  simp [withReturns]

theorem withReturns_cons
    {c : Char}
    (inLine : c ≠ '\n')
    (rest : List Char) :
    withReturns (c :: rest) = c :: withReturns rest := by
  simp [withReturns, inLine]

/-! ## Tokens -/

/-- What is left of a text and of the one with carriage returns, behind the same token. The token
may have taken in a carriage return. -/
def Remains (text other : List Char) : Prop :=
  other = withReturns text ∨ '\r' :: other = withReturns text

section Stretches

variable {p : Char → Bool}

/-- Characters up to a line feed or carriage return are the same in both texts. -/
theorem takeWhile_withReturns
    (noFeed : p '\n' = false)
    (noReturn : p '\r' = false)
    (text : List Char) :
    (withReturns text).takeWhile p = text.takeWhile p ∧
      (withReturns text).drop (text.takeWhile p).length =
        withReturns (text.drop (text.takeWhile p).length) := by
  induction text with
  | nil =>
      exact ⟨rfl, rfl⟩
  | cons c rest ih =>
      by_cases hfeed : c = '\n'
      · subst hfeed
        simp [noFeed, noReturn]
      · rw [withReturns_cons hfeed]
        cases hc : p c with
        | true =>
            simpa [hc] using ih
        | false =>
            simp [hc, withReturns_cons hfeed]

/-- A line is the same but for a carriage return at its end. -/
theorem line_withReturns (text : List Char) :
    ((withReturns text).takeWhile (· ≠ '\n') = text.takeWhile (· ≠ '\n') ∨
        (withReturns text).takeWhile (· ≠ '\n') = text.takeWhile (· ≠ '\n') ++ ['\r']) ∧
      Remains (text.drop (text.takeWhile (· ≠ '\n')).length)
        ((withReturns text).drop ((withReturns text).takeWhile (· ≠ '\n')).length) := by
  induction text with
  | nil =>
      exact ⟨Or.inl rfl, Or.inl rfl⟩
  | cons c rest ih =>
      by_cases hfeed : c = '\n'
      · subst hfeed
        simp [Remains]
      · rw [withReturns_cons hfeed]
        simpa [hfeed] using ih

end Stretches

namespace Quoted

variable {escaped : Bool} {text body : List Char}

theorem bodyAfter?_withReturns (escaped : Bool) (text : List Char) :
    bodyAfter? escaped (withReturns text) = bodyAfter? escaped text := by
  induction text generalizing escaped with
  | nil =>
      rfl
  | cons c rest ih =>
      by_cases hfeed : c = '\n'
      · subst hfeed
        simp [bodyAfter?]
      · rw [withReturns_cons hfeed, bodyAfter?, bodyAfter?, ih]

theorem drop_withReturns (found : bodyAfter? escaped text = some body) :
    (withReturns text).drop (body.length + 1) = withReturns (text.drop (body.length + 1)) := by
  induction text generalizing escaped body with
  | nil =>
      cases found
  | cons c rest ih =>
      rw [bodyAfter?] at found
      split at found
      · cases found
      · next hfeed =>
        rw [withReturns_cons hfeed]
        split at found
        · cases found
          rfl
        · rcases Option.map_eq_some_iff.1 found with ⟨inner, hinner, rfl⟩
          exact ih hinner

end Quoted

namespace Token

/-- The same token is found before a text and before the one with carriage returns, or the same kind
of failure. -/
def ReadsAlike
    (rest : List Char)
    (outcome other : Except (Cause × Nat) (Token × Nat)) : Prop :=
  Agree (fun failure twin => failure.1.SameKind twin.1)
    (fun found twin =>
      found.1 = twin.1 ∧ Remains (rest.drop found.2) ((withReturns rest).drop twin.2))
    outcome other

section Readers

variable (c : Char) (rest : List Char)

theorem readIdent_withReturns :
    ReadsAlike rest (.ok (readIdent c rest)) (.ok (readIdent c (withReturns rest))) := by
  rcases takeWhile_withReturns (p := isIdentRest) (by decide) (by decide) rest with
    ⟨htaken, hleft⟩
  unfold readIdent
  rw [htaken]
  exact .ok ⟨rfl, Or.inl hleft⟩

theorem readNumber_withReturns :
    ReadsAlike rest (readNumber c rest) (readNumber c (withReturns rest)) := by
  rcases takeWhile_withReturns (p := isDecimal) (by decide) (by decide) rest with
    ⟨htaken, hleft⟩
  unfold readNumber
  rw [htaken]
  dsimp only
  split
  · exact .ok ⟨rfl, Or.inl hleft⟩
  · exact .error rfl

theorem readString_withReturns :
    ReadsAlike rest (readString rest) (readString (withReturns rest)) := by
  unfold readString Quoted.body?
  rw [Quoted.bodyAfter?_withReturns]
  split
  · next body hbody =>
    exact .ok ⟨rfl, Or.inl (Quoted.drop_withReturns hbody)⟩
  · exact .error rfl

/-- A comment takes in the carriage return, and trims it. -/
theorem readComment_withReturns :
    ReadsAlike rest (.ok (readComment rest)) (.ok (readComment (withReturns rest))) := by
  rcases line_withReturns rest with ⟨htaken, hleft⟩
  refine .ok ⟨?_, hleft⟩
  unfold readComment
  dsimp only
  rcases htaken with hsame | hreturn
  · rw [hsame]
  · rw [hreturn, trim_append_singleton (by decide)]

theorem readAtName_withReturns :
    ReadsAlike rest (readAtName rest) (readAtName (withReturns rest)) := by
  rcases takeWhile_withReturns (p := isAtNameRest) (by decide) (by decide) rest with
    ⟨htaken, hleft⟩
  unfold readAtName
  rw [htaken]
  dsimp only
  split
  · exact .error rfl
  · exact .ok ⟨rfl, Or.inl hleft⟩

theorem readArrow_withReturns :
    ReadsAlike rest (readArrow rest) (readArrow (withReturns rest)) := by
  cases rest with
  | nil =>
      exact .error rfl
  | cons d rest =>
      by_cases hfeed : d = '\n'
      · subst hfeed
        exact .error rfl
      · rw [withReturns_cons hfeed, readArrow, readArrow]
        split
        · refine .ok ⟨rfl, Or.inl ?_⟩
          rw [withReturns_cons hfeed]
          rfl
        · exact .error rfl

theorem read_withReturns : ReadsAlike rest (read c rest) (read c (withReturns rest)) := by
  unfold read
  split
  · exact readIdent_withReturns c rest
  split
  · exact readNumber_withReturns c rest
  split
  · exact readString_withReturns rest
  split
  · exact readComment_withReturns rest
  split
  · exact readAtName_withReturns rest
  split
  · exact readArrow_withReturns rest
  split
  · exact .ok ⟨rfl, Or.inl rfl⟩
  · exact .error rfl

end Readers

end Token

/-! ## Pieces -/

/-- Failures of the same kind. -/
def Failure.SameKind (first second : Failure) : Prop :=
  first.cause.SameKind second.cause

/-- Pieces with the same tokens. -/
def SamePieces (found other : List Piece) : Prop :=
  found.map Piece.token = other.map Piece.token

section Pieces

variable {c : Char} {rest other text : List Char} {token : Token} {more again : Nat}
variable {outcome : Except Failure (List Piece)}

theorem pieces_of_read
    (word : isSeparator c = false)
    (reads : Token.read c rest = .ok (token, more))
    (offset : Nat) :
    pieces offset (c :: rest) =
      (pieces (offset + byteLength (c :: rest.take more)) (rest.drop more)).map
        (⟨token, ⟨offset, offset + byteLength (c :: rest.take more)⟩⟩ :: ·) := by
  rw [pieces, if_neg (by simp [word]), reads]
  dsimp only
  split
  · next hfails =>
    rw [hfails]
    rfl
  · next hlater =>
    rw [hlater]
    rfl

/-- A carriage return that the token before has not taken in is passed over. -/
theorem pieces_of_remains
    (remains : Remains text other)
    (agrees :
      ∀ offset, Agree Failure.SameKind SamePieces outcome (pieces offset (withReturns text)))
    {offset : Nat}
    (positive : 0 < offset) :
    Agree Failure.SameKind SamePieces outcome (pieces offset other) := by
  rcases remains with rfl | hreturn
  · exact agrees offset
  · -- The pieces from the carriage return on begin one byte earlier, and it is a separator.
    have hbefore := agrees (offset - 1)
    have hsize : offset - 1 + '\r'.utf8Size = offset := Nat.sub_add_cancel positive
    rw [← hreturn, pieces, if_pos (by decide), hsize] at hbefore
    exact hbefore

/-- Behind the same token the same follows. -/
theorem pieces_agree_of_read
    {offset : Nat}
    (word : isSeparator c = false)
    (reads : Token.read c rest = .ok (token, more))
    (readsToo : Token.read c other = .ok (token, again))
    (remains : Remains (rest.drop more) (other.drop again))
    (agrees :
      ∀ second,
        Agree Failure.SameKind SamePieces
          (pieces (offset + byteLength (c :: rest.take more)) (rest.drop more))
          (pieces second (withReturns (rest.drop more))))
    (second : Nat) :
    Agree Failure.SameKind SamePieces (pieces offset (c :: rest)) (pieces second (c :: other)) := by
  have hpositive : 0 < second + byteLength (c :: other.take again) := by
    rw [byteLength_cons]
    have hsize := c.utf8Size_pos
    omega
  rw [pieces_of_read word reads, pieces_of_read word readsToo]
  refine .map (pieces_of_remains remains agrees hpositive) ?_
  intro found found' hsame
  exact congrArg (token :: ·) hsame

/-- A text that begins with a token, before the same in both texts. -/
theorem pieces_withReturns_of_read
    {offset : Nat}
    (word : isSeparator c = false)
    (reads : Token.read c rest = .ok (token, more))
    (agrees :
      ∀ second,
        Agree Failure.SameKind SamePieces
          (pieces (offset + byteLength (c :: rest.take more)) (rest.drop more))
          (pieces second (withReturns (rest.drop more))))
    (second : Nat) :
    Agree Failure.SameKind SamePieces (pieces offset (c :: rest))
      (pieces second (withReturns (c :: rest))) := by
  by_cases hfeed : c = '\n'
  · subst hfeed
    have hread : Token.read '\n' rest = .ok (.newline, 0) := rfl
    rw [hread] at reads
    cases reads
    -- Here the carriage return is new, and the line feed behind it is the token.
    rw [withReturns_lineFeed]
    conv =>
      rhs
      rw [pieces, if_pos (by decide)]
    exact pieces_agree_of_read word hread rfl (Or.inl rfl) agrees _
  · have hread := Token.read_withReturns c rest
    rw [reads] at hread
    generalize hother : Token.read c (withReturns rest) = outcome at hread
    cases hread with
    | @ok first found values =>
        rcases found with ⟨twin, again⟩
        rcases values with ⟨hsame, hremains⟩
        dsimp only at hsame hremains
        subst hsame
        rw [withReturns_cons hfeed]
        exact pieces_agree_of_read word reads hother hremains agrees second

/-- The same pieces are found, or the same kind of failure, wherever the texts begin. -/
theorem pieces_withReturns (offset again : Nat) (text : List Char) :
    Agree Failure.SameKind SamePieces (pieces offset text) (pieces again (withReturns text)) := by
  induction offset, text using pieces.induct generalizing again with
  | case1 offset =>
      rw [withReturns_nil, pieces, pieces]
      exact .ok rfl
  | case2 offset c rest hseparator ih =>
      have hline : c ≠ '\n' := by
        rintro rfl
        cases hseparator
      rw [withReturns_cons hline, pieces, if_pos hseparator, pieces, if_pos hseparator]
      exact ih _
  | case3 offset c rest hword cause more hread =>
      have hline : c ≠ '\n' := by
        rintro rfl
        cases hread
      have hagree := Token.read_withReturns c rest
      rw [hread] at hagree
      rw [withReturns_cons hline, pieces, if_neg hword, hread, pieces, if_neg hword]
      generalize Token.read c (withReturns rest) = outcome at hagree
      cases hagree with
      | error failures =>
          exact .error failures
  | case4 offset c rest hword token more hread stop failure hlater ih =>
      exact pieces_withReturns_of_read (by simpa using hword) hread ih again
  | case5 offset c rest hword token more hread stop later hlater ih =>
      exact pieces_withReturns_of_read (by simpa using hword) hread ih again

end Pieces

/-! ## Texts -/

/-- Two causes are of the same kind. If they are no causes of lexical failures, they also have the
same wording. -/
structure Cause.Alike (first second : Cause) : Prop where
  kind : first.SameKind second
  wording : first.isLexical = false → first.message = second.message

theorem Cause.alike_of_unplaced
    {first second : Cause}
    (same : first.unplaced = second.unplaced) :
    first.Alike second where
  kind := by
    unfold SameKind
    rw [← ctorIdx_unplaced first, same, ctorIdx_unplaced]
  wording _ := by
    rw [← message_unplaced first, same, message_unplaced]

/-- Any two lexemes with the same token correspond, wherever they stand. -/
def Pairing.anywhere : Pairing :=
  fun _ _ _ => True

theorem Pairing.anywhere_lexemes
    {lexemes others : List Lexeme}
    (same : SameTokens lexemes others) :
    List.Forall₂ Pairing.anywhere.Lexemes lexemes others := by
  unfold SameTokens at same
  rw [← List.forall₂_eq_eq_eq, List.forall₂_map_left_iff, List.forall₂_map_right_iff] at same
  exact same.imp fun _ _ htoken => ⟨htoken, trivial⟩

theorem scanText_withReturns (text : List Char) :
    Agree Failure.SameKind SameTokens (scanText text) (scanText (withReturns text)) := by
  unfold scanText
  refine .map (pieces_withReturns 0 0 text) ?_
  intro found other hsame
  unfold SameTokens
  rw [List.map_map, List.map_map]
  exact hsame

theorem Schema.ofText_withReturns (text : List Char) :
    Agree (fun failure other => failure.cause.Alike other.cause)
      (fun schema twin => schema.unplaced = twin.unplaced)
      (ofText text) (ofText (withReturns text)) := by
  have hscans := scanText_withReturns text
  unfold ofText
  generalize houtcome : scanText text = outcome at hscans
  generalize scanText (withReturns text) = other at hscans
  cases hscans with
  | error failures =>
      refine .error ⟨failures, ?_⟩
      intro hgrammar
      rw [(refuses_of_scanText houtcome).1] at hgrammar
      cases hgrammar
  | ok values =>
      refine (Pairing.ofLexemes_agrees (Pairing.anywhere_lexemes values) trivial).mono ?_
      rintro failure twin ⟨clause, clause', hmishaps⟩
      exact Cause.alike_of_unplaced hmishaps.cause_unplaced

/-- The same tokens are found in a text and in the one with carriage returns before its line feeds,
or the same kind of failure. The same schema is read from both but for places, or the same kind of
failure is found; if it is one of the grammar, it has the same wording. -/
theorem agree_withReturns (file : String) (text : String) :
    Agree (fun error other => error.cause.SameKind other.cause) SameTokens
        (scan file text) (scan file (String.ofList (withReturns text.toList))) ∧
      Agree (fun error other => error.cause.Alike other.cause)
        (fun schema twin => schema.unplaced = twin.unplaced)
        (Schema.parse file text)
        (Schema.parse file (String.ofList (withReturns text.toList))) := by
  unfold scan Schema.parse
  rw [String.toList_ofList]
  constructor
  · exact (scanText_withReturns text.toList).mapError fun _ _ hsame => hsame
  · exact (Schema.ofText_withReturns text.toList).mapError fun _ _ halike => halike

end InterfaceSchema
