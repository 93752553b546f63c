import InterfaceSchema.Proofs.Text.LineIndex
import InterfaceSchema.Proofs.Token.Extent
import InterfaceSchema.Proofs.Token.Spelled

/-!
# Lexemes tile a text

The lexemes of a text lie one behind another, each as long as it can be, and nothing but separators
lies outside them.

* `Tiling`: the pieces that a text is cut into, with one rule for each step of the scanner.
* `Tiling.pieces_append`: a text is cut up in the same way before a text that its last token may
  stand before.
* `Tiles`: what the lexemes of a text say about it.
* `tiles_of_scan`: the lexemes that are found in a text tile it.
-/

namespace InterfaceSchema

/-! ## Beginnings of a text -/

theorem byteLength_eq_zero_iff {text : List Char} : byteLength text = 0 ↔ text = [] := by
  cases text with
  | nil =>
      simp
  | cons c rest =>
      have hsize := Char.utf8Size_pos c
      simp only [byteLength_cons, reduceCtorEq, iff_false]
      omega

/-- Of two beginnings of a text the one with more bytes holds the other. -/
theorem exists_append_of_byteLength_le
    {first second behind later : List Char}
    (same : first ++ behind = second ++ later)
    (fewer : byteLength first ≤ byteLength second) :
    ∃ more, second = first ++ more := by
  have hprefix : first <+: second ++ later := ⟨behind, same⟩
  rcases List.prefix_or_prefix_of_prefix hprefix (List.prefix_append second later) with
    ⟨more, hmore⟩ | ⟨more, rfl⟩
  · exact ⟨more, hmore.symm⟩
  · rw [byteLength_append] at fewer
    have hnone : more = [] := byteLength_eq_zero_iff.1 (by omega)
    exact ⟨[], by rw [hnone]; simp⟩

/-! ## The order of positions -/

namespace Position

/-- A position comes before another in a text. -/
def Precedes (first second : Position) : Prop :=
  first.line < second.line ∨ first.line = second.line ∧ first.column < second.column

theorem Precedes.trans
    {first second third : Position}
    (precedes : first.Precedes second)
    (also : second.Precedes third) :
    first.Precedes third := by
  unfold Precedes at *
  omega

theorem precedes_advance (position : Position) (c : Char) :
    position.Precedes (position.advance c) := by
  unfold Precedes advance
  by_cases hbreak : c = '\n'
  · simp [hbreak]
  · simp [hbreak]

/-- Each character leads to a later position. -/
theorem precedes_after (before : List Char) (c : Char) (more : List Char) :
    (after before).Precedes (after (before ++ c :: more)) := by
  induction more using List.reverseRecOn with
  | nil =>
      rw [after_append_singleton]
      exact precedes_advance _ c
  | append_singleton more d ih =>
      rw [← List.cons_append, ← List.append_assoc, after_append_singleton]
      exact ih.trans (precedes_advance _ d)

/-- Of two places in a text the one with fewer bytes before it has the earlier position. -/
theorem precedes_of_byteLength_lt
    {first second behind later : List Char}
    (same : first ++ behind = second ++ later)
    (fewer : byteLength first < byteLength second) :
    (after first).Precedes (after second) := by
  rcases exists_append_of_byteLength_le same (Nat.le_of_lt fewer) with ⟨more, rfl⟩
  cases more with
  | nil =>
      rw [List.append_nil] at fewer
      exact absurd fewer (Nat.lt_irrefl _)
  | cons c more =>
      exact precedes_after first c more

end Position

/-! ## Pieces -/

/-- The pieces of a text that starts at a byte offset. -/
inductive Tiling : Nat → List Char → List Piece → Prop
  | nil (offset : Nat) : Tiling offset [] [⟨.eof, ⟨offset, offset⟩⟩]
  | separator
      {offset : Nat}
      {c : Char}
      {rest : List Char}
      {found : List Piece}
      (skips : isSeparator c = true)
      (later : Tiling (offset + c.utf8Size) rest found) :
      Tiling offset (c :: rest) found
  | token
      {offset : Nat}
      {c : Char}
      {rest : List Char}
      {token : Token}
      {more : Nat}
      {found : List Piece}
      (opens : isSeparator c = false)
      (reads : Token.read c rest = .ok (token, more))
      (later : Tiling (offset + byteLength (c :: rest.take more)) (rest.drop more) found) :
      Tiling offset (c :: rest)
        (⟨token, ⟨offset, offset + byteLength (c :: rest.take more)⟩⟩ :: found)

theorem tiling_of_pieces
    {offset : Nat}
    {text : List Char}
    {found : List Piece}
    (succeeds : pieces offset text = .ok found) :
    Tiling offset text found := by
  induction offset, text using pieces.induct generalizing found with
  | case1 offset =>
      rw [pieces] at succeeds
      cases succeeds
      exact .nil offset
  | case2 offset c rest hseparator ih =>
      rw [pieces, if_pos hseparator] at succeeds
      exact .separator hseparator (ih succeeds)
  | case3 offset c rest hword cause more hread =>
      rw [pieces, if_neg hword, hread] at succeeds
      cases succeeds
  | case4 offset c rest hword token more hread stop failure hlater =>
      rw [pieces, if_neg hword, hread] at succeeds
      simp only at succeeds
      rw [hlater] at succeeds
      cases succeeds
  | case5 offset c rest hword token more hread stop later hlater =>
      rename_i ih
      rw [pieces, if_neg hword, hread] at succeeds
      simp only at succeeds
      rw [hlater] at succeeds
      cases succeeds
      exact .token (by simpa using hword) hread (ih hlater)

/-- The last of the pieces before the end may stand before a text, if it is not separated from it:
if it stops where the text starts. -/
def EndBefore (found : List Piece) (start : Nat) (behind : List Char) : Prop :=
  ∀ last ∈ found.dropLast.getLast?, last.span.stop = start → last.token.EndsBefore behind

section EndBefore

variable {piece : Piece} {found : List Piece} {start : Nat} {behind : List Char}

theorem EndBefore.of_cons (ends : EndBefore (piece :: found) start behind) :
    EndBefore found start behind := by
  intro last hlast hstop
  refine ends last ?_ hstop
  have hfound : found ≠ [] := by
    rintro rfl
    cases hlast
  rw [List.dropLast_cons_of_ne_nil hfound, List.getLast?_cons, Option.mem_def.1 hlast]
  rfl

theorem EndBefore.cons
    (ends : EndBefore found start behind)
    (first : piece.span.stop = start → piece.token.EndsBefore behind) :
    EndBefore (piece :: found) start behind := by
  intro last hlast hstop
  cases found with
  | nil =>
      cases hlast
  | cons other found =>
      rw [List.dropLast_cons_of_ne_nil (by simp), List.getLast?_cons] at hlast
      cases hinner : (other :: found).dropLast.getLast? with
      | none =>
          rw [hinner] at hlast
          cases hlast
          exact first hstop
      | some inner =>
          rw [hinner] at hlast
          cases hlast
          exact ends inner hinner hstop

end EndBefore

/-- A stretch of a text, with the characters before, in, and behind it. -/
structure Cuts (text : List Char) (span : Span) (before slice behind : List Char) : Prop where
  whole : text = before ++ slice ++ behind
  start : span.start = byteLength before
  stop : span.stop = byteLength (before ++ slice)

/-- What stands at a token of a text: characters that are no more than needed for the token, and no
less than could belong to it. -/
structure Token.Stands (token : Token) (slice behind : List Char) : Prop where
  nonempty : slice ≠ []
  alone : Spells slice [token, .eof]
  maximal : token.EndsBefore behind

namespace Tiling

variable {offset : Nat} {text : List Char} {found : List Piece}

/-- The last piece is the only one that stands for the end. -/
theorem exists_front (tiling : Tiling offset text found) :
    ∃ front,
      found = front ++ [⟨.eof, ⟨offset + byteLength text, offset + byteLength text⟩⟩] ∧
        ∀ piece ∈ front, piece.token ≠ .eof := by
  induction tiling with
  | nil offset =>
      exact ⟨[], rfl, by simp⟩
  | @separator offset c rest found skips later ih =>
      rcases ih with ⟨front, hfound, hfront⟩
      rw [Nat.add_assoc] at hfound
      exact ⟨front, hfound, hfront⟩
  | @token offset c rest token more found opens reads later ih =>
      rcases ih with ⟨front, hfound, hfront⟩
      have hlength :
          offset + byteLength (c :: rest.take more) + byteLength (rest.drop more) =
            offset + byteLength (c :: rest) := by
        rw [Nat.add_assoc, ← byteLength_append, List.cons_append, List.take_append_drop]
      rw [hlength] at hfound
      refine ⟨_ :: front, by rw [hfound]; rfl, ?_⟩
      intro piece hmember
      rcases List.mem_cons.1 hmember with rfl | hrest
      · exact Token.read_ne_eof reads
      · exact hfront piece hrest

theorem ne_nil (tiling : Tiling offset text found) : found ≠ [] := by
  rcases tiling.exists_front with ⟨front, rfl, _⟩
  simp

/-- A text is cut up before another text, if the token that it ends with may stand there. -/
theorem pieces_append
    {behind : List Char}
    (tiling : Tiling offset text found)
    (ends : EndBefore found (offset + byteLength text) behind) :
    pieces offset (text ++ behind) =
      (pieces (offset + byteLength text) behind).map fun later => found.dropLast ++ later := by
  induction tiling with
  | nil offset =>
      rw [List.nil_append, byteLength_nil, Nat.add_zero]
      cases pieces offset behind with
      | error failure =>
          rfl
      | ok later =>
          rfl
  | @separator offset c rest found skips later ih =>
      rw [byteLength_cons, ← Nat.add_assoc] at ends ⊢
      rw [List.cons_append, pieces, if_pos skips, ih ends]
  | @token offset c rest token more found opens reads later ih =>
      rcases Token.read_take reads with ⟨hmore, halone⟩
      have hlength :
          offset + byteLength (c :: rest) =
            offset + byteLength (c :: rest.take more) + byteLength (rest.drop more) := by
        rw [Nat.add_assoc, ← byteLength_append, List.cons_append, List.take_append_drop]
      rw [hlength] at ends
      -- The token ends the text, or something of the text is left that it may stand before.
      have hends : token.EndsBefore (rest.drop more ++ behind) := by
        cases hleft : rest.drop more with
        | nil =>
            rw [hleft] at later ends
            cases later
            exact ends _ rfl rfl
        | cons d left =>
            have hread := Token.endsBefore_of_read reads
            rw [hleft] at hread
            exact hread.of_head? fun _ hfirst => hfirst
      have hagain : Token.read c (rest ++ behind) = .ok (token, more) := by
        have hlong := Token.read_append (by rw [List.length_take_of_le hmore]; exact halone) hends
        rw [← List.append_assoc, List.take_append_drop, List.length_take_of_le hmore] at hlong
        exact hlong
      rw [List.cons_append, pieces, if_neg (by simp [opens]), hagain]
      simp only [List.take_append_of_le_length hmore, List.drop_append_of_le_length hmore,
        ih ends.of_cons, hlength, List.dropLast_cons_of_ne_nil later.ne_nil]
      cases pieces (offset + byteLength (c :: rest.take more) + byteLength (rest.drop more))
          behind with
      | error failure =>
          rfl
      | ok later =>
          rfl

/-- The pieces of a text are those that it is cut into. -/
theorem pieces_eq (tiling : Tiling offset text found) : pieces offset text = .ok found := by
  have hends : EndBefore found (offset + byteLength text) [] := by
    intro last _ _
    exact last.token.endsBefore_nil
  rcases tiling.exists_front with ⟨front, hfound, _⟩
  rw [← List.append_nil text, tiling.pieces_append hends, pieces, hfound, List.dropLast_concat]
  rfl

/-- Each other piece stands between two characters of the text. -/
theorem exists_stands (tiling : Tiling offset text found) :
    ∀ piece ∈ found, piece.token ≠ .eof →
      ∃ before slice behind,
        text = before ++ slice ++ behind ∧
          piece.span =
            ⟨offset + byteLength before, offset + byteLength before + byteLength slice⟩ ∧
          piece.token.Stands slice behind := by
  induction tiling with
  | nil offset =>
      intro piece hmember hinside
      rw [List.mem_singleton.1 hmember] at hinside
      exact absurd rfl hinside
  | @separator offset c rest found skips later ih =>
      intro piece hmember hinside
      rcases ih piece hmember hinside with ⟨before, slice, behind, rfl, hspan, hstands⟩
      refine ⟨c :: before, slice, behind, rfl, ?_, hstands⟩
      rw [hspan]
      simp [Nat.add_assoc]
  | @token offset c rest token more found opens reads later ih =>
      intro piece hmember hinside
      rcases List.mem_cons.1 hmember with rfl | hrest
      · rcases Token.read_take reads with ⟨hmore, halone⟩
        refine ⟨[], c :: rest.take more, rest.drop more, ?_, rfl, ?_⟩
        · rw [List.nil_append, List.cons_append, List.take_append_drop]
        · refine ⟨by simp, .token opens halone ?_, Token.endsBefore_of_read reads⟩
          have hend : (rest.take more).drop more = [] := by
            simp
          rw [hend]
          exact .nil
      · rcases ih piece hrest hinside with ⟨before, slice, behind, hlater, hspan, hstands⟩
        refine ⟨c :: rest.take more ++ before, slice, behind, ?_, ?_, hstands⟩
        · rw [List.append_assoc, List.append_assoc, ← List.append_assoc before, ← hlater,
            List.cons_append, List.take_append_drop]
        · rw [hspan, byteLength_append]
          simp [Nat.add_assoc]

/-- Each piece lies between two characters of the text. -/
theorem exists_cut (tiling : Tiling offset text found) :
    ∀ piece ∈ found,
      ∃ before slice behind,
        text = before ++ slice ++ behind ∧
          piece.span =
            ⟨offset + byteLength before, offset + byteLength before + byteLength slice⟩ := by
  intro piece hmember
  by_cases hinside : piece.token = .eof
  · rcases tiling.exists_front with ⟨front, hfound, hfront⟩
    rw [hfound] at hmember
    rcases List.mem_append.1 hmember with hinner | hlast
    · exact absurd hinside (hfront piece hinner)
    · rw [List.mem_singleton.1 hlast]
      exact ⟨text, [], [], by simp, rfl⟩
  · rcases tiling.exists_stands piece hmember hinside with
      ⟨before, slice, behind, hwhole, hspan, _⟩
    exact ⟨before, slice, behind, hwhole, hspan⟩

/-- The pieces lie one behind another. -/
theorem ordered (tiling : Tiling offset text found) :
    (∀ piece ∈ found, offset ≤ piece.span.start) ∧
      found.Pairwise fun first second =>
        first.span.stop ≤ second.span.start ∧ first.span.start < second.span.start := by
  induction tiling with
  | nil offset =>
      simp
  | separator skips later ih =>
      refine ⟨?_, ih.2⟩
      intro piece hmember
      exact Nat.le_trans (Nat.le_add_right _ _) (ih.1 piece hmember)
  | @token offset c rest token more found opens reads later ih =>
      have hsize := Char.utf8Size_pos c
      have hbehind :
          ∀ piece ∈ found, offset + byteLength (c :: rest.take more) ≤ piece.span.start :=
        ih.1
      simp only [byteLength_cons] at hbehind ⊢
      refine ⟨?_, List.pairwise_cons.2 ⟨?_, ih.2⟩⟩
      · intro piece hmember
        rcases List.mem_cons.1 hmember with rfl | hrest
        · exact Nat.le_refl offset
        · have hstart := hbehind piece hrest
          omega
      · intro piece hmember
        have hstart := hbehind piece hmember
        exact ⟨hstart, by dsimp only; omega⟩

/-- Outside the pieces there are only separators. -/
theorem covers (tiling : Tiling offset text found) :
    ∀ before c behind,
      text = before ++ c :: behind →
        isSeparator c = true ∨
          ∃ piece ∈ found,
            piece.span.start ≤ offset + byteLength before ∧
              offset + byteLength before < piece.span.stop := by
  induction tiling with
  | nil offset =>
      intro before c behind hwhole
      simp at hwhole
  | @separator offset d rest found skips later ih =>
      intro before c behind hwhole
      cases before with
      | nil =>
          cases hwhole
          exact Or.inl skips
      | cons _ before =>
          cases hwhole
          rw [byteLength_cons, ← Nat.add_assoc]
          exact ih before c behind rfl
  | @token offset d rest token more found opens reads later ih =>
      intro before c behind hwhole
      -- The character is one of the token, or one of the text behind it.
      have hsplit : d :: rest = (d :: rest.take more) ++ rest.drop more := by
        rw [List.cons_append, List.take_append_drop]
      rw [hsplit, List.append_eq_append_iff] at hwhole
      rcases hwhole with ⟨inner, rfl, hlater⟩ | ⟨inner, htoken, hlater⟩
      · rcases ih inner c behind hlater with hskipped | ⟨piece, hmember, hstart, hstop⟩
        · exact Or.inl hskipped
        · rw [Nat.add_assoc, ← byteLength_append] at hstart hstop
          exact Or.inr ⟨piece, List.mem_cons_of_mem _ hmember, hstart, hstop⟩
      · cases inner with
        | nil =>
            rw [List.nil_append] at hlater
            rw [List.append_nil] at htoken
            rcases ih [] c behind hlater.symm with hskipped | ⟨piece, hmember, hstart, hstop⟩
            · exact Or.inl hskipped
            · rw [byteLength_nil, Nat.add_zero, htoken] at hstart hstop
              exact Or.inr ⟨piece, List.mem_cons_of_mem _ hmember, hstart, hstop⟩
        | cons e inner =>
            refine Or.inr ⟨_, List.mem_cons_self, Nat.le_add_right _ _, ?_⟩
            have hsize := Char.utf8Size_pos e
            rw [htoken, byteLength_append, byteLength_cons]
            dsimp only
            omega

end Tiling

/-! ## Lexemes -/

/-- Lexemes tile a text: each takes as many characters as it can, they lie one behind another, and
only separators are left between them. -/
structure Tiles (text : List Char) (lexemes : List Lexeme) : Prop where
  last :
    ∃ front stop,
      lexemes = front ++ [⟨.eof, stop⟩] ∧
        NoEnd front ∧ stop.span = ⟨byteLength text, byteLength text⟩
  stands :
    ∀ lexeme ∈ lexemes, lexeme.token ≠ .eof →
      ∃ before slice behind,
        Cuts text lexeme.location.span before slice behind ∧
          slice ≠ [] ∧
          (∀ file, ∃ again,
            scan file (String.ofList slice) = .ok again ∧
              again.map Lexeme.token = [lexeme.token, .eof]) ∧
          lexeme.token.EndsBefore behind
  ordered :
    lexemes.Pairwise fun first second =>
      first.location.span.stop ≤ second.location.span.start ∧
        first.location.span.start < second.location.span.start ∧
        first.location.start.Precedes second.location.start
  covers :
    ∀ before c behind,
      text = before ++ c :: behind →
        (c = '\t' ∨ c = '\r' ∨ c = ' ') ∨
          ∃ lexeme ∈ lexemes,
            lexeme.location.span.start ≤ byteLength before ∧
              byteLength before < lexeme.location.span.stop
  positions :
    ∀ lexeme ∈ lexemes,
      ∃ before behind,
        text = before ++ behind ∧
          lexeme.location.span.start = byteLength before ∧
          lexeme.location.start =
            ⟨before.count '\n' + 1, (Position.lastLine before).length + 1⟩

section Lexemes

variable {text : List Char} {found : List Piece}

/-- A token that stands in a text is found by scanning its characters alone. -/
theorem Token.Stands.exists_scan
    {token : Token}
    {slice behind : List Char}
    (stands : token.Stands slice behind)
    (file : String) :
    ∃ again,
      scan file (String.ofList slice) = .ok again ∧
        again.map Lexeme.token = [token, .eof] := by
  refine (exists_scan_iff_spells file _ _).2 ?_
  rw [String.toList_ofList]
  exact stands.alone

/-- Each piece starts between two characters, and its position is found by counting up to it. -/
theorem Tiling.exists_before
    (tiling : Tiling 0 text found)
    {piece : Piece}
    (member : piece ∈ found) :
    ∃ before behind,
      text = before ++ behind ∧
        piece.span.start = byteLength before ∧
        (LineIndex.ofText text).resolve piece.span.start = Position.after before := by
  rcases tiling.exists_cut piece member with ⟨before, slice, behind, hwhole, hspan⟩
  rw [List.append_assoc] at hwhole
  have hstart : piece.span.start = byteLength before := by
    rw [hspan, Nat.zero_add]
  refine ⟨before, slice ++ behind, hwhole, hstart, ?_⟩
  rw [hwhole, hstart]
  exact LineIndex.resolve_eq_after before (slice ++ behind)

/-- Pieces that lie one behind another have increasing positions. -/
theorem Tiling.precedes
    (tiling : Tiling 0 text found)
    {first second : Piece}
    (member : first ∈ found)
    (also : second ∈ found)
    (before : first.span.start < second.span.start) :
    ((LineIndex.ofText text).resolve first.span.start).Precedes
      ((LineIndex.ofText text).resolve second.span.start) := by
  rcases tiling.exists_before member with ⟨front, behind, hwhole, hstart, hposition⟩
  rcases tiling.exists_before also with ⟨other, later, hwholeToo, hstartToo, hpositionToo⟩
  rw [hposition, hpositionToo]
  rw [hstart, hstartToo] at before
  exact Position.precedes_of_byteLength_lt (hwhole.symm.trans hwholeToo) before

end Lexemes

/-- The lexemes of a text tile it. -/
theorem tiles_of_scan
    (file text : String)
    {lexemes : List Lexeme}
    (scanned : scan file text = .ok lexemes) :
    Tiles text.toList lexemes := by
  rcases scanText_eq_ok (mapError_eq_ok_iff.1 scanned) with ⟨found, hfound, rfl⟩
  have htiling := tiling_of_pieces hfound
  constructor
  · rcases htiling.exists_front with ⟨front, rfl, hfront⟩
    refine ⟨_, _, List.map_append, ?_, by simp [LineIndex.locate]⟩
    intro lexeme hmember
    rcases List.mem_map.1 hmember with ⟨piece, hpiece, rfl⟩
    exact hfront piece hpiece
  · intro lexeme hmember hinside
    rcases List.mem_map.1 hmember with ⟨piece, hpiece, rfl⟩
    rcases htiling.exists_stands piece hpiece hinside with
      ⟨before, slice, behind, hwhole, hspan, hstands⟩
    rw [Nat.zero_add] at hspan
    refine
      ⟨before, slice, behind, ⟨hwhole, congrArg Span.start hspan, ?_⟩, hstands.nonempty,
        hstands.exists_scan, hstands.maximal⟩
    rw [byteLength_append]
    exact congrArg Span.stop hspan
  · rw [List.pairwise_map]
    refine htiling.ordered.2.imp_of_mem ?_
    rintro first second hfirst hsecond ⟨hstop, hstart⟩
    exact ⟨hstop, hstart, htiling.precedes hfirst hsecond hstart⟩
  · intro before c behind hwhole
    rcases htiling.covers before c behind hwhole with hskipped | ⟨piece, hpiece, hstart, hstop⟩
    · simp only [isSeparator, Bool.or_eq_true, decide_eq_true_eq, or_assoc] at hskipped
      exact Or.inl hskipped
    · rw [Nat.zero_add] at hstart hstop
      exact Or.inr ⟨_, List.mem_map_of_mem hpiece, hstart, hstop⟩
  · intro lexeme hmember
    rcases List.mem_map.1 hmember with ⟨piece, hpiece, rfl⟩
    rcases htiling.exists_before hpiece with ⟨before, behind, hwhole, hstart, hposition⟩
    exact ⟨before, behind, hwhole, hstart, hposition.trans (Position.after_eq before)⟩

/-- A text with characters of several bytes in a comment, a name and a string, and with tokens that
touch. -/
def multibyteText : String :=
  "# ä𝄞\n@é中(\"€\\\"\",07a)->\t\r \n"

theorem tiles_of_scan_multibyteText :
    ∃ lexemes,
      scan "a.yarp" multibyteText = .ok lexemes ∧ Tiles multibyteText.toList lexemes := by
  have hscans : (scan "a.yarp" multibyteText).isOk = true := by decide +kernel
  rcases exists_eq_ok_of_isOk hscans with ⟨lexemes, hlexemes⟩
  exact ⟨lexemes, hlexemes, tiles_of_scan "a.yarp" multibyteText hlexemes⟩

end InterfaceSchema
