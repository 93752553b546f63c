import InterfaceSchema.Proofs.Token.Lines

/-!
# Stretches of a text

The stretch of a text from one lexeme to another spells the tokens of the lexemes from the one to
the other, whatever stands before and behind it.

* `Spells.token_append`, `Spells.written_append`: a token before a text that may follow it.
* `Tiling.exists_behind`, `Tiling.exists_slice`: a tiling cut before a piece, and behind one.
* `exists_slice_of_scan`: the stretch from one lexeme of a text to another.
-/

namespace InterfaceSchema

/-- The characters of a token may stand before a text that may follow it. -/
theorem Spells.token_append
    {c : Char}
    {slice behind : List Char}
    {token : Token}
    {tokens : List Token}
    (opens : isSeparator c = false)
    (reads : Token.read c slice = .ok (token, slice.length))
    (ends : token.EndsBefore behind)
    (later : Spells behind tokens) :
    Spells (c :: (slice ++ behind)) (token :: tokens) := by
  refine .token opens (Token.read_append reads ends) ?_
  rw [List.drop_left]
  exact later

/-- A written token may stand before any text that may follow it. -/
theorem Spells.written_append
    {behind : List Char}
    {token : Token}
    {tokens : List Token}
    (writable : token.Writable)
    (ends : token.EndsBefore behind)
    (later : Spells behind tokens) :
    Spells (token.written.toList ++ behind) (token :: tokens) := by
  have hnothing : token.StopsBefore [] := Or.inl rfl
  rcases Token.read_written writable hnothing with ⟨c, slice, more, hslice, hopens, hread, hleft⟩
  rw [List.append_nil] at hread hleft
  have hmore : more = slice.length := by
    refine Nat.le_antisymm (Token.read_take hread).1 ?_
    rcases hleft with hend | hspace
    · exact List.drop_eq_nil_iff.1 hend
    · cases hspace
  subst hmore
  rw [hslice]
  exact Spells.token_append hopens hread ends later

namespace Tiling

variable {offset : Nat} {text : List Char} {front inner later : List Piece} {piece : Piece}

/-- Before a piece a text may be cut off. -/
theorem exists_behind (tiling : Tiling offset text (front ++ piece :: later)) :
    ∃ before rest,
      text = before ++ rest ∧
        piece.span.start = offset + byteLength before ∧
        Tiling (offset + byteLength before) rest (piece :: later) := by
  generalize hfound : front ++ piece :: later = found at tiling
  induction tiling generalizing front with
  | nil offset =>
      cases front with
      | nil =>
          cases hfound
          exact ⟨[], [], rfl, rfl, .nil offset⟩
      | cons other front =>
          simp at hfound
  | @separator offset c rest found skips tiled ih =>
      rcases ih hfound with ⟨before, behind, rfl, hstart, hbehind⟩
      rw [Nat.add_assoc, ← byteLength_cons] at hstart hbehind
      exact ⟨c :: before, behind, rfl, hstart, hbehind⟩
  | @token offset c rest token more found opens reads tiled ih =>
      cases front with
      | nil =>
          cases hfound
          exact ⟨[], c :: rest, rfl, rfl, .token opens reads tiled⟩
      | cons other front =>
          cases hfound
          rcases ih rfl with ⟨before, behind, hdrop, hstart, hbehind⟩
          rw [Nat.add_assoc, ← byteLength_append] at hstart hbehind
          refine ⟨c :: rest.take more ++ before, behind, ?_, hstart, hbehind⟩
          rw [List.append_assoc, ← hdrop, List.cons_append, List.take_append_drop]

/-- Behind a piece a text may be cut off, and what is left spells the tokens up to the piece. -/
theorem exists_slice
    (tiling : Tiling offset text (inner ++ piece :: later))
    (inside : piece.token ≠ .eof) :
    ∃ slice behind,
      text = slice ++ behind ∧
        piece.span.stop = offset + byteLength slice ∧
        Spells slice ((inner ++ [piece]).map Piece.token ++ [.eof]) := by
  generalize hfound : inner ++ piece :: later = found at tiling
  induction tiling generalizing inner with
  | nil offset =>
      cases inner with
      | nil =>
          cases hfound
          exact absurd rfl inside
      | cons other inner =>
          simp at hfound
  | @separator offset c rest found skips tiled ih =>
      rcases ih hfound with ⟨slice, behind, rfl, hstop, hspells⟩
      rw [Nat.add_assoc, ← byteLength_cons] at hstop
      exact ⟨c :: slice, behind, rfl, hstop, .separator skips hspells⟩
  | @token offset c rest token more found opens reads tiled ih =>
      have halone : Token.read c (rest.take more) = .ok (token, (rest.take more).length) := by
        rw [List.length_take_of_le (Token.read_take reads).1]
        exact (Token.read_take reads).2
      have hends := Token.endsBefore_of_read reads
      cases inner with
      | nil =>
          cases hfound
          have hnothing : token.EndsBefore [] := by
            rw [← List.nil_append (rest.drop more)] at hends
            exact hends.of_append
          refine ⟨c :: rest.take more, rest.drop more, ?_, rfl, ?_⟩
          · rw [List.cons_append, List.take_append_drop]
          · have hspells := Spells.token_append opens halone hnothing .nil
            rw [List.append_nil] at hspells
            exact hspells
      | cons other inner =>
          cases hfound
          rcases ih rfl with ⟨slice, behind, hdrop, hstop, hspells⟩
          rw [hdrop] at hends
          rw [Nat.add_assoc, ← byteLength_append] at hstop
          refine ⟨c :: (rest.take more ++ slice), behind, ?_, hstop, ?_⟩
          · rw [List.cons_append, List.append_assoc, ← hdrop, List.take_append_drop]
          · exact Spells.token_append opens halone hends.of_append hspells

end Tiling

/-- The stretch from one lexeme of a text to another spells the tokens between them. -/
theorem exists_slice_of_scan
    {file text : String}
    {front inner later : List Lexeme}
    {first last : Lexeme}
    (scanned : scan file text = .ok (front ++ first :: (inner ++ last :: later)))
    (inside : last.token ≠ .eof) :
    ∃ before slice behind,
      Cuts text.toList (first.location.through last.location).span before slice behind ∧
        Spells slice ((first :: (inner ++ [last])).map Lexeme.token ++ [.eof]) := by
  rcases exists_tiling_of_scan scanned with ⟨found, _, htiling, hlexemes⟩
  rcases List.map_eq_append_iff.1 hlexemes.symm with ⟨frontPieces, _, rfl, rfl, hfirst⟩
  rcases List.map_eq_cons_iff.1 hfirst with ⟨firstPiece, _, rfl, rfl, hinner⟩
  rcases List.map_eq_append_iff.1 hinner with ⟨innerPieces, _, rfl, rfl, hlast⟩
  rcases List.map_eq_cons_iff.1 hlast with ⟨lastPiece, laterPieces, rfl, rfl, rfl⟩
  rcases htiling.exists_behind with ⟨before, rest, htext, hstart, htiled⟩
  rw [← List.cons_append] at htiled
  rcases htiled.exists_slice inside with ⟨slice, behind, rfl, hstop, hspells⟩
  rw [Nat.zero_add] at hstart hstop
  refine ⟨before, slice, behind, ⟨?_, hstart, ?_⟩, ?_⟩
  · rw [htext, List.append_assoc]
  · rw [byteLength_append]
    exact hstop
  · have htokens :
        ((firstPiece :: innerPieces) ++ [lastPiece]).map Piece.token =
          (firstPiece.place text.toList ::
            (innerPieces.map (Piece.place text.toList) ++ [lastPiece.place text.toList])).map
              Lexeme.token := by
      simp [Piece.place, Function.comp_def]
    rw [htokens] at hspells
    exact hspells

end InterfaceSchema
