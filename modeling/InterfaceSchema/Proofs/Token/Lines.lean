import InterfaceSchema.Proofs.Token.Refused

/-!
# Scanning line by line

No token extends over a line feed, so two texts with a line feed between them are scanned one after
the other.

* `Token.read_line`: what is read before a line feed does not depend on what is behind it.
* `pieces_line`, `exists_pieces_line`: the pieces of two texts, or the failure in the first.
* `pieces_add`: the pieces of a text that starts further on.
* `scan_line`: the lexemes of two texts with a line feed between them.
-/

namespace InterfaceSchema

/-! ## Places below a text -/

section Below

variable (above : List Char)

/-- A position in a text, when another text and a line feed stand before it. -/
def Position.below (position : Position) : Position :=
  ⟨position.line + (above.count '\n' + 1), position.column⟩

def Span.below (span : Span) : Span :=
  ⟨span.start + (byteLength above + 1), span.stop + (byteLength above + 1)⟩

def Location.below (location : Location) : Location :=
  ⟨location.start.below above, location.stop.below above, location.span.below above⟩

def Lexeme.below (lexeme : Lexeme) : Lexeme :=
  ⟨lexeme.token, lexeme.location.below above⟩

def Piece.below (piece : Piece) : Piece :=
  ⟨piece.token, piece.span.below above⟩

def Failure.below (failure : Failure) : Failure :=
  ⟨failure.cause, failure.span.below above⟩

def ParseError.below (error : ParseError) : ParseError :=
  { error with span := error.span.below above, position := error.position.below above }

/-- The line feed behind a text, which begins where the text ends. -/
def Lexeme.lineFeedAfter (stop : Location) : Lexeme :=
  ⟨.newline,
    ⟨stop.start, ⟨above.count '\n' + 2, 1⟩, ⟨byteLength above, byteLength above + 1⟩⟩⟩

theorem Position.lastLine_below (before : List Char) :
    lastLine (above ++ '\n' :: before) = lastLine before := by
  induction above with
  | nil =>
      rw [List.nil_append, lastLine_cons, if_neg (by simp)]
  | cons c rest ih =>
      rw [List.cons_append, lastLine_cons, if_neg (by simp), ih]

theorem Position.after_below (before : List Char) :
    after (above ++ '\n' :: before) = (after before).below above := by
  rw [after_eq, after_eq, lastLine_below, below, List.count_append, List.count_cons_self]
  congr 1
  dsimp only
  omega

end Below

/-- Two causes are of the same kind, that is, they are made by the same constructor. -/
def Cause.SameKind (first second : Cause) : Prop :=
  first.ctorIdx = second.ctorIdx

/-- What is found wrong when a line feed follows: behind a dash there is a character then. -/
def Cause.beforeLineFeed : Cause → Cause
  | brokenArrow none => brokenArrow (some '\n')
  | cause => cause

theorem Cause.sameKind_beforeLineFeed (cause : Cause) : cause.beforeLineFeed.SameKind cause := by
  unfold beforeLineFeed
  split
  · rfl
  · rfl

/-! ## Tokens -/

theorem takeWhile_line
    {p : Char → Bool}
    (stops : p '\n' = false)
    (text behind : List Char) :
    (text ++ '\n' :: behind).takeWhile p = text.takeWhile p := by
  rw [List.takeWhile_append]
  split
  · next hwhole =>
    rw [List.takeWhile_cons_of_neg (by simp [stops]), List.append_nil]
    exact ((List.takeWhile_prefix p).eq_of_length hwhole).symm
  · rfl

theorem Quoted.bodyAfter?_line (escaped : Bool) (text behind : List Char) :
    bodyAfter? escaped (text ++ '\n' :: behind) = bodyAfter? escaped text := by
  induction text generalizing escaped with
  | nil =>
      rfl
  | cons c rest ih =>
      rw [List.cons_append, bodyAfter?, bodyAfter?, ih]

namespace Token

/-- What the reader of tokens finds at the end of a line, where a line feed and any text follow. -/
def beforeLineFeed : Except (Cause × Nat) (Token × Nat) → Except (Cause × Nat) (Token × Nat)
  | .ok found => .ok found
  | .error (cause, more) =>
    .error (cause.beforeLineFeed, if cause = .brokenArrow none then 1 else more)

theorem readString_line (text behind : List Char) :
    readString (text ++ '\n' :: behind) = readString text := by
  unfold readString Quoted.body?
  rw [Quoted.bodyAfter?_line, takeWhile_line (by decide)]

theorem readArrow_line (text behind : List Char) :
    readArrow (text ++ '\n' :: behind) = beforeLineFeed (readArrow text) := by
  cases text with
  | nil =>
      rfl
  | cons c rest =>
      rw [List.cons_append, readArrow, readArrow]
      split
      · rfl
      · rfl

/-- What is read before a line feed does not depend on what is behind it. -/
theorem read_line (c : Char) (text behind : List Char) :
    read c (text ++ '\n' :: behind) = beforeLineFeed (read c text) := by
  unfold read
  split
  · simp only [readIdent, takeWhile_line (p := isIdentRest) (by decide), beforeLineFeed]
  split
  · simp only [readNumber, takeWhile_line (p := isDecimal) (by decide)]
    split
    · rfl
    · rfl
  split
  · rw [readString_line]
    unfold readString
    split
    · rfl
    · rfl
  split
  · simp only [readComment, takeWhile_line (p := fun c => decide (c ≠ '\n')) (by decide),
      beforeLineFeed]
  split
  · simp only [readAtName, takeWhile_line (p := isAtNameRest) (by decide)]
    split
    · rfl
    · rfl
  split
  · exact readArrow_line text behind
  split
  · rfl
  · rfl

theorem exists_read_line_of_error
    {c : Char}
    {text : List Char}
    {cause : Cause}
    {more : Nat}
    (fails : read c text = .error (cause, more))
    (behind : List Char) :
    ∃ again, read c (text ++ '\n' :: behind) = .error (cause.beforeLineFeed, again) := by
  rw [read_line, fails]
  exact ⟨_, rfl⟩

/-- No token extends over a line feed. -/
theorem endsBefore_lineFeed (token : Token) (behind : List Char) :
    token.EndsBefore ('\n' :: behind) := by
  cases token with
  | ident name =>
      rintro c ⟨⟩
      rfl
  | number value =>
      rintro c ⟨⟩
      rfl
  | comment text =>
      rintro c ⟨⟩
      rfl
  | atName name =>
      rintro c ⟨⟩
      exact Or.inr (Or.inl rfl)
  | _ =>
      trivial

end Token

/-! ## Pieces -/

section Pieces

variable {offset : Nat} {text : List Char} {found : List Piece}

/-- A text and a line feed are cut into pieces before the text behind them. -/
theorem Tiling.pieces_line
    (tiling : Tiling offset text found)
    (behind : List Char) :
    pieces offset (text ++ '\n' :: behind) =
      (pieces (offset + byteLength text + 1) behind).map fun later =>
        found.dropLast ++
          ⟨.newline, ⟨offset + byteLength text, offset + byteLength text + 1⟩⟩ :: later := by
  have hread : Token.read '\n' behind = .ok (.newline, 0) := rfl
  have hsize : byteLength ['\n'] = 1 := rfl
  rw [tiling.pieces_append fun last _ _ => Token.endsBefore_lineFeed last.token behind, pieces,
    if_neg (by decide), hread]
  simp only [List.take_zero, List.drop_zero, hsize]
  cases pieces (offset + byteLength text + 1) behind with
  | error failure =>
      rfl
  | ok later =>
      rfl

/-- A failure in a text is found whatever follows the line. It starts between two characters. -/
theorem exists_pieces_line
    {failure : Failure}
    (fails : pieces offset text = .error failure) :
    (∃ before behind,
      text = before ++ behind ∧ failure.span.start = offset + byteLength before) ∧
      ∀ behind, ∃ stop,
        pieces offset (text ++ '\n' :: behind) =
          .error ⟨failure.cause.beforeLineFeed, ⟨failure.span.start, stop⟩⟩ := by
  rcases exists_failsAt fails with
    ⟨before, c, rest, rfl, ⟨found, htiling, hends⟩, hopens, more, hfails, hspan⟩
  refine ⟨⟨before, c :: rest, rfl, by rw [hspan]⟩, ?_⟩
  intro behind
  rcases Token.exists_read_line_of_error hfails behind with ⟨again, hagain⟩
  have hendsToo : EndBefore found (offset + byteLength before) (c :: (rest ++ '\n' :: behind)) := by
    intro last hlast hstop
    exact (hends last hlast hstop).of_head? fun _ hfirst => hfirst
  rw [List.append_assoc, List.cons_append, htiling.pieces_append hendsToo, pieces,
    if_neg (by simp [hopens]), hagain, hspan]
  exact ⟨_, rfl⟩

/-- A text that stands below another is cut into the same pieces, further on. -/
theorem pieces_below (above : List Char) (offset : Nat) (text : List Char) :
    pieces (offset + (byteLength above + 1)) text =
      ((pieces offset text).map fun found => found.map (Piece.below above)).mapError
        (Failure.below above) := by
  induction offset, text using pieces.induct with
  | case1 offset =>
      rw [pieces, pieces]
      rfl
  | case2 offset c rest hseparator ih =>
      rw [pieces, if_pos hseparator, Nat.add_right_comm, ih]
      conv =>
        rhs
        rw [pieces, if_pos hseparator]
  | case3 offset c rest hword cause more hread =>
      rw [pieces, if_neg hword, hread]
      conv =>
        rhs
        rw [pieces, if_neg hword, hread]
      simp only [Except.map, Except.mapError, Failure.below, Span.below]
      rw [Nat.add_right_comm]
  | case4 offset c rest hword token more hread stop failure hlater =>
      rename_i ih
      rw [hlater] at ih
      rw [pieces, if_neg hword, hread]
      conv =>
        rhs
        rw [pieces, if_neg hword, hread]
      simp only [stop] at ih hlater ⊢
      rw [Nat.add_right_comm, ih, hlater]
      rfl
  | case5 offset c rest hword token more hread stop later hlater =>
      rename_i ih
      rw [hlater] at ih
      rw [pieces, if_neg hword, hread]
      conv =>
        rhs
        rw [pieces, if_neg hword, hread]
      simp only [stop] at ih hlater ⊢
      rw [Nat.add_right_comm, ih, hlater]
      rfl

end Pieces

/-! ## Places -/

section Places

variable {above text before behind : List Char}

/-- The positions in a text are the same when a line feed and another text follow. -/
theorem LineIndex.resolve_line (whole : text = before ++ behind) (later : List Char) :
    (ofText (text ++ '\n' :: later)).resolve (byteLength before) =
      (ofText text).resolve (byteLength before) := by
  rw [whole, resolve_eq_after, List.append_assoc, resolve_eq_after]

/-- The positions in a text that stands below another are in lines below those of the other. -/
theorem LineIndex.resolve_below (above : List Char) (whole : text = before ++ behind) :
    (ofText (above ++ '\n' :: text)).resolve (byteLength before + (byteLength above + 1)) =
      ((ofText text).resolve (byteLength before)).below above := by
  have hlength :
      byteLength before + (byteLength above + 1) = byteLength (above ++ '\n' :: before) := by
    have hsize : '\n'.utf8Size = 1 := rfl
    rw [byteLength_append, byteLength_cons, hsize]
    omega
  rw [whole, resolve_eq_after, hlength, ← List.cons_append, ← List.append_assoc, resolve_eq_after,
    Position.after_below]

end Places

/-- The lexeme of a piece of a text. -/
def Piece.place (text : List Char) (piece : Piece) : Lexeme :=
  ⟨piece.token, (LineIndex.ofText text).locate piece.span⟩

section Placed

variable {text : List Char} {found : List Piece}

theorem Tiling.place_line
    (tiling : Tiling 0 text found)
    (later : List Char)
    {piece : Piece}
    (member : piece ∈ found) :
    piece.place (text ++ '\n' :: later) = piece.place text := by
  rcases tiling.exists_cut piece member with ⟨before, slice, behind, hwhole, hspan⟩
  rw [Nat.zero_add, ← byteLength_append] at hspan
  unfold Piece.place LineIndex.locate
  rw [hspan]
  dsimp only
  rw [LineIndex.resolve_line hwhole, LineIndex.resolve_line (hwhole.trans (List.append_assoc _ _ _))]

theorem Tiling.place_below
    (tiling : Tiling 0 text found)
    (above : List Char)
    {piece : Piece}
    (member : piece ∈ found) :
    (piece.below above).place (above ++ '\n' :: text) = (piece.place text).below above := by
  rcases tiling.exists_cut piece member with ⟨before, slice, behind, hwhole, hspan⟩
  rw [Nat.zero_add, ← byteLength_append] at hspan
  unfold Piece.place Piece.below Lexeme.below Location.below Span.below LineIndex.locate
  rw [hspan]
  dsimp only
  rw [LineIndex.resolve_below above hwhole,
    LineIndex.resolve_below above (hwhole.trans (List.append_assoc _ _ _))]

/-- The line feed behind a text stands at the end of the text. -/
theorem place_lineFeed (above text : List Char) :
    Piece.place (above ++ '\n' :: text)
        ⟨.newline, ⟨byteLength above, byteLength above + 1⟩⟩ =
      Lexeme.lineFeedAfter above
        ((LineIndex.ofText above).locate ⟨byteLength above, byteLength above⟩) := by
  have hstart := LineIndex.resolve_line (List.append_nil above).symm text
  have hstop := LineIndex.resolve_below above (List.nil_append text).symm
  have hfirst : (LineIndex.ofText text).resolve 0 = Position.start :=
    LineIndex.resolve_eq_after [] text
  have hbelow : Position.start.below above = ⟨above.count '\n' + 2, 1⟩ := by
    unfold Position.below Position.start
    rw [Nat.add_comm 1]
  rw [byteLength_nil, Nat.zero_add, hfirst, hbelow] at hstop
  unfold Piece.place Lexeme.lineFeedAfter LineIndex.locate
  dsimp only
  rw [hstart, hstop]

end Placed

/-! ## Texts -/

section Texts

variable {file first second : String}

theorem toList_line (first second : String) :
    (first ++ "\n" ++ second).toList = first.toList ++ '\n' :: second.toList := by
  simp

/-- Lexemes of a text are placed pieces of it. -/
theorem exists_tiling_of_scan
    {text : String}
    {lexemes : List Lexeme}
    (scanned : scan file text = .ok lexemes) :
    ∃ found,
      pieces 0 text.toList = .ok found ∧
        Tiling 0 text.toList found ∧ lexemes = found.map (Piece.place text.toList) := by
  rcases scanText_eq_ok (mapError_eq_ok_iff.1 scanned) with ⟨found, hfound, rfl⟩
  exact ⟨found, hfound, tiling_of_pieces hfound, rfl⟩

theorem scan_of_pieces
    {text : String}
    {found : List Piece}
    (succeeds : pieces 0 text.toList = .ok found) :
    scan file text = .ok (found.map (Piece.place text.toList)) := by
  refine mapError_eq_ok_iff.2 ?_
  rw [scanText, succeeds]
  rfl

theorem scan_eq_error_iff
    {text : String}
    {error : ParseError} :
    scan file text = .error error ↔
      ∃ failure,
        pieces 0 text.toList = .error failure ∧
          error = ParseError.ofFailure file text.toList failure := by
  rw [scan, mapError_eq_error_iff]
  simp only [scanText_eq_error_iff, @eq_comm _ error]

/-- Two texts with a line feed between them have the lexemes of the first, the line feed, and the
lexemes of the second. -/
theorem scan_line_of_ok
    {front later : List Lexeme}
    {stop : Location}
    (scanned : scan file first = .ok (front ++ [⟨.eof, stop⟩]))
    (scannedToo : scan file second = .ok later) :
    scan file (first ++ "\n" ++ second) =
      .ok
        (front ++
          Lexeme.lineFeedAfter first.toList stop :: later.map (Lexeme.below first.toList)) := by
  rcases exists_tiling_of_scan scanned with ⟨found, _, htiling, hlexemes⟩
  rcases exists_tiling_of_scan scannedToo with ⟨others, hothers, htilingToo, rfl⟩
  rcases htiling.exists_front with ⟨inner, hfound, _⟩
  rw [Nat.zero_add] at hfound
  have hsplit :
      front = inner.map (Piece.place first.toList) ∧
        [(⟨.eof, stop⟩ : Lexeme)] =
          [Piece.place first.toList
            ⟨.eof, ⟨byteLength first.toList, byteLength first.toList⟩⟩] := by
    refine List.append_inj' ?_ rfl
    rw [hlexemes, hfound, List.map_append]
    rfl
  rcases hsplit with ⟨rfl, hstop⟩
  have hfeed :
      Piece.place (first.toList ++ '\n' :: second.toList)
          ⟨.newline, ⟨byteLength first.toList, byteLength first.toList + 1⟩⟩ =
        Lexeme.lineFeedAfter first.toList stop := by
    cases List.head_eq_of_cons_eq hstop
    exact place_lineFeed first.toList second.toList
  have hpieces :
      pieces 0 (first ++ "\n" ++ second).toList =
        .ok
          (inner ++ ⟨.newline, ⟨byteLength first.toList, byteLength first.toList + 1⟩⟩ ::
            others.map (Piece.below first.toList)) := by
    rw [toList_line, htiling.pieces_line, Nat.add_assoc, pieces_below, hothers, hfound,
      List.dropLast_concat]
    simp only [Nat.zero_add]
    rfl
  have hfront :
      inner.map (Piece.place (first.toList ++ '\n' :: second.toList)) =
        inner.map (Piece.place first.toList) := by
    refine List.map_congr_left fun piece hmember => htiling.place_line second.toList ?_
    rw [hfound]
    exact List.mem_append_left _ hmember
  have hlater :
      (others.map (Piece.below first.toList)).map
          (Piece.place (first.toList ++ '\n' :: second.toList)) =
        (others.map (Piece.place second.toList)).map (Lexeme.below first.toList) := by
    rw [List.map_map, List.map_map]
    exact List.map_congr_left fun piece hmember => htilingToo.place_below first.toList hmember
  rw [scan_of_pieces hpieces, toList_line, List.map_append, List.map_cons, hfront, hfeed, hlater]

/-- A failure in the second text is found there, if there is none in the first. -/
theorem scan_line_of_error
    {lexemes : List Lexeme}
    {error : ParseError}
    (scanned : scan file first = .ok lexemes)
    (fails : scan file second = .error error) :
    scan file (first ++ "\n" ++ second) = .error (error.below first.toList) := by
  rcases exists_tiling_of_scan scanned with ⟨found, _, htiling, _⟩
  rcases scan_eq_error_iff.1 fails with ⟨failure, hfailure, rfl⟩
  rcases (exists_pieces_line hfailure).1 with ⟨before, behind, hwhole, hstart⟩
  rw [Nat.zero_add] at hstart
  refine scan_eq_error_iff.2 ⟨failure.below first.toList, ?_, ?_⟩
  · rw [toList_line, htiling.pieces_line, Nat.add_assoc, pieces_below, hfailure]
    rfl
  · have hposition := LineIndex.resolve_below first.toList hwhole
    rw [← hstart] at hposition
    rw [toList_line]
    unfold ParseError.ofFailure ParseError.below Failure.below Span.below
    dsimp only
    rw [hposition]

/-- A failure in the first text is found whatever the second is. -/
theorem exists_scan_line
    {error : ParseError}
    (fails : scan file first = .error error)
    (second : String) :
    ∃ stop,
      scan file (first ++ "\n" ++ second) =
        .error
          { error with
            cause := error.cause.beforeLineFeed
            span := ⟨error.span.start, stop⟩ } := by
  rcases scan_eq_error_iff.1 fails with ⟨failure, hfailure, rfl⟩
  rcases exists_pieces_line hfailure with ⟨⟨before, behind, hwhole, hstart⟩, hagain⟩
  rw [Nat.zero_add] at hstart
  rcases hagain second.toList with ⟨stop, hstop⟩
  refine ⟨stop, scan_eq_error_iff.2 ⟨_, by rw [toList_line]; exact hstop, ?_⟩⟩
  have hposition := LineIndex.resolve_line hwhole second.toList
  rw [← hstart] at hposition
  rw [toList_line]
  unfold ParseError.ofFailure
  dsimp only
  rw [hposition]

end Texts

/-- Two texts with a line feed between them are scanned one after the other. The lexemes or the
error of the second text stand below the first. An error in the first text is found at the same
place, and is of the same kind, whatever the second text is. -/
theorem scan_line (file first second : String) :
    (∀ front stop later,
      scan file first = .ok (front ++ [⟨.eof, stop⟩]) →
        scan file second = .ok later →
          scan file (first ++ "\n" ++ second) =
            .ok
              (front ++
                Lexeme.lineFeedAfter first.toList stop ::
                  later.map (Lexeme.below first.toList))) ∧
      (∀ lexemes error,
        scan file first = .ok lexemes →
          scan file second = .error error →
            scan file (first ++ "\n" ++ second) = .error (error.below first.toList)) ∧
      ∀ error,
        scan file first = .error error →
          ∃ other,
            scan file (first ++ "\n" ++ second) = .error other ∧
              other.file = error.file ∧
              other.cause.SameKind error.cause ∧
              other.span.start = error.span.start ∧
              other.position = error.position := by
  refine ⟨?_, ?_, ?_⟩
  · intro front stop later hscanned hscannedToo
    exact scan_line_of_ok hscanned hscannedToo
  · intro lexemes error hscanned hfails
    exact scan_line_of_error hscanned hfails
  · intro error hfails
    rcases exists_scan_line hfails second with ⟨stop, hagain⟩
    exact ⟨_, hagain, rfl, error.cause.sameKind_beforeLineFeed, rfl, rfl⟩

/-- A line that ends with a comment, before one that is scanned and one that is not; and a line that
ends with a dash. -/
theorem scan_line_samples :
    (∃ front stop later,
      scan "a.yarp" "x \"é\" # ä" = .ok (front ++ [⟨.eof, stop⟩]) ∧
        scan "a.yarp" "@b\n7" = .ok later ∧
        scan "a.yarp" ("x \"é\" # ä" ++ "\n" ++ "@b\n7") =
          .ok
            (front ++
              Lexeme.lineFeedAfter "x \"é\" # ä".toList stop ::
                later.map (Lexeme.below "x \"é\" # ä".toList))) ∧
      (∃ lexemes error,
        scan "a.yarp" "x \"é\" # ä" = .ok lexemes ∧
          scan "a.yarp" "  \"c" = .error error ∧
          scan "a.yarp" ("x \"é\" # ä" ++ "\n" ++ "  \"c") =
            .error (error.below "x \"é\" # ä".toList)) ∧
      ∃ error other,
        scan "a.yarp" "x -" = .error error ∧
          scan "a.yarp" ("x -" ++ "\n" ++ ">") = .error other ∧
          other.file = error.file ∧
          other.cause.SameKind error.cause ∧
          other.span.start = error.span.start ∧
          other.position = error.position := by
  have hfirst : (scan "a.yarp" "x \"é\" # ä").isOk = true := by decide +kernel
  have hsecond : (scan "a.yarp" "@b\n7").isOk = true := by decide +kernel
  have hopen :
      scan "a.yarp" "  \"c" = .error ⟨"a.yarp", .unterminatedString, ⟨2, 4⟩, ⟨1, 3⟩⟩ := by
    decide +kernel
  have hdash : scan "a.yarp" "x -" = .error ⟨"a.yarp", .brokenArrow none, ⟨2, 3⟩, ⟨1, 3⟩⟩ := by
    decide +kernel
  rcases exists_eq_ok_of_isOk hfirst with ⟨lexemes, hlexemes⟩
  rcases exists_eq_ok_of_isOk hsecond with ⟨later, hlater⟩
  rcases scanText_end (mapError_eq_ok_iff.1 hlexemes) with ⟨front, stop, rfl, _⟩
  rcases (scan_line "a.yarp" "x -" ">").2.2 _ hdash with ⟨other, hother, hsame⟩
  exact
    ⟨⟨front, stop, later, hlexemes, hlater, (scan_line _ _ _).1 _ _ _ hlexemes hlater⟩,
      ⟨_, _, hlexemes, hopen, (scan_line _ _ _).2.1 _ _ hlexemes hopen⟩,
      _, other, hdash, hother, hsame⟩

end InterfaceSchema
