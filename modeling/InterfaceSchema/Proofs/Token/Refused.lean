import InterfaceSchema.Proofs.Token.Faults
import InterfaceSchema.Proofs.Token.Tiling

/-!
# Texts that cannot be cut into tokens

* `FailsAt`, `exists_failsAt`: a failure to cut a text is found at the first character from which no
  token can be read.
* `Refuses`: what such a failure says of the text it is found in.
* `refuses_of_pieces`, `refuses_of_scanText`: every failure to cut a text says so.
-/

namespace InterfaceSchema

/-- A failure that is found while a text is cut, which starts at a byte offset: it covers characters
of the text. -/
structure Refuses (offset : Nat) (text : List Char) (failure : Failure) : Prop where
  isLexical : failure.cause.isLexical = true
  place :
    ∃ before slice behind,
      text = before ++ slice ++ behind ∧
        failure.span = ⟨offset + byteLength before, offset + byteLength (before ++ slice)⟩

/-- A failure is found at a character of a text: what stands before it is cut without a failure, up
to a token that may stand there, and from it on no token can be read. -/
structure FailsAt (offset : Nat) (text : List Char) (failure : Failure) (before : List Char)
    (c : Char) (rest : List Char) : Prop where
  whole : text = before ++ c :: rest
  cut :
    ∃ found, Tiling offset before found ∧ EndBefore found (offset + byteLength before) (c :: rest)
  opens : isSeparator c = false
  fails :
    ∃ more,
      Token.read c rest = .error (failure.cause, more) ∧
        failure.span =
          ⟨offset + byteLength before, offset + byteLength (before ++ c :: rest.take more)⟩

namespace FailsAt

variable
  {offset : Nat}
  {text before rest : List Char}
  {failure : Failure}
  {c d : Char}

/-- A failure behind a separator is one of the whole text. -/
theorem separator
    (failsAt : FailsAt (offset + d.utf8Size) text failure before c rest)
    (skips : isSeparator d = true) :
    FailsAt offset (d :: text) failure (d :: before) c rest := by
  rcases failsAt with ⟨rfl, ⟨found, htiling, hends⟩, hopens, more, hfails, hspan⟩
  refine ⟨rfl, ⟨found, .separator skips htiling, ?_⟩, hopens, more, hfails, ?_⟩
  · rw [byteLength_cons, ← Nat.add_assoc]
    exact hends
  · rw [hspan, List.cons_append, byteLength_cons, byteLength_cons, Nat.add_assoc, Nat.add_assoc]

/-- A failure behind a token is one of the whole text. -/
theorem token
    {text : List Char}
    {token : Token}
    {more : Nat}
    (opens : isSeparator d = false)
    (reads : Token.read d text = .ok (token, more))
    (failsAt :
      FailsAt (offset + byteLength (d :: text.take more)) (text.drop more) failure before c rest) :
    FailsAt offset (d :: text) failure (d :: text.take more ++ before) c rest := by
  rcases failsAt with ⟨hdrop, ⟨found, htiling, hends⟩, hopens, shown, hfails, hspan⟩
  rcases Token.read_take reads with ⟨hmore, halone⟩
  have hlength : (text.take more).length = more := List.length_take_of_le hmore
  have hlast := Token.endsBefore_of_read reads
  rw [hdrop] at hlast
  have hagain : Token.read d (text.take more ++ before) = .ok (token, more) := by
    have hlong := Token.read_append (by rw [hlength]; exact halone) hlast.of_append
    rw [hlength] at hlong
    exact hlong
  have htiled :
      Tiling offset (d :: text.take more ++ before)
        (⟨token, ⟨offset, offset + byteLength (d :: text.take more)⟩⟩ :: found) := by
    have hwhole := @Tiling.token offset _ _ _ _ found opens hagain
    rw [List.take_left' hlength, List.drop_left' hlength] at hwhole
    exact hwhole htiling
  refine ⟨?_, ⟨_, htiled, ?_⟩, hopens, shown, hfails, ?_⟩
  · rw [List.append_assoc, ← hdrop, List.cons_append, List.take_append_drop]
  · rw [byteLength_append, ← Nat.add_assoc]
    exact hends.cons fun hstop => by
      have hnone : before = [] := byteLength_eq_zero_iff.1 (by dsimp only at hstop; omega)
      rw [hnone] at hlast
      exact hlast
  · rw [hspan, List.append_assoc, byteLength_append (d :: text.take more),
      byteLength_append (d :: text.take more), Nat.add_assoc, Nat.add_assoc]

end FailsAt

/-- Every failure to cut a text is found at one of its characters. -/
theorem exists_failsAt
    {offset : Nat}
    {text : List Char}
    {failure : Failure}
    (fails : pieces offset text = .error failure) :
    ∃ before c rest, FailsAt offset text failure before c rest := by
  induction offset, text using pieces.induct with
  | case1 offset =>
      rw [pieces] at fails
      cases fails
  | case2 offset d text hseparator ih =>
      rw [pieces, if_pos hseparator] at fails
      rcases ih fails with ⟨before, c, rest, hfailsAt⟩
      exact ⟨_, c, rest, hfailsAt.separator hseparator⟩
  | case3 offset d text hword cause more hread =>
      rw [pieces, if_neg hword, hread] at fails
      cases fails
      refine ⟨[], d, text, rfl, ⟨_, .nil offset, ?_⟩, by simpa using hword, more, hread, rfl⟩
      rintro last ⟨⟩
  | case4 offset d text hword token more hread stop other hlater ih =>
      rw [pieces, if_neg hword, hread] at fails
      dsimp only at fails
      rw [hlater] at fails
      cases fails
      rcases ih hlater with ⟨before, c, rest, hfailsAt⟩
      exact ⟨_, c, rest, hfailsAt.token (by simpa using hword) hread⟩
  | case5 offset d text hword token more hread stop later hlater ih =>
      rw [pieces, if_neg hword, hread] at fails
      dsimp only at fails
      rw [hlater] at fails
      cases fails

theorem refuses_of_pieces
    {offset : Nat}
    {text : List Char}
    {failure : Failure}
    (fails : pieces offset text = .error failure) :
    Refuses offset text failure := by
  rcases exists_failsAt fails with ⟨before, c, rest, hwhole, _, hopens, more, hread, hspan⟩
  have hfaulty := faulty_of_read hopens hread
  refine ⟨hfaulty.isLexical, before, c :: rest.take more, rest.drop more, ?_, hspan⟩
  rw [hwhole, List.append_assoc, List.cons_append, List.take_append_drop]

theorem scanText_eq_error_iff
    {text : List Char}
    {failure : Failure} :
    scanText text = .error failure ↔ pieces 0 text = .error failure := by
  unfold scanText
  cases pieces 0 text with
  | error other =>
      simp [Except.map]
  | ok found =>
      simp [Except.map]

/-- A failure to cut a text covers characters of it. -/
theorem refuses_of_scanText
    {text : List Char}
    {failure : Failure}
    (fails : scanText text = .error failure) :
    failure.cause.isLexical = true ∧
      ∃ before slice behind, Cuts text failure.span before slice behind := by
  rcases refuses_of_pieces (scanText_eq_error_iff.1 fails) with
    ⟨hlexical, before, slice, behind, hwhole, hspan⟩
  rw [Nat.zero_add, Nat.zero_add] at hspan
  refine ⟨hlexical, before, slice, behind, hwhole, ?_, ?_⟩
  · rw [hspan]
  · rw [hspan]

end InterfaceSchema
