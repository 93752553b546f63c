import InterfaceSchema.Proofs.Reading.Text
import InterfaceSchema.Proofs.Token.Written
import Mathlib.Data.List.Chain

/-!
# Spelled tokens

What tokens a text spells does not depend on where it stands, nor on the separators between them.

* `Spells`: a text and the tokens in it.
* `exists_scan_iff_spells`: these are the tokens that are found by scanning.
* `Spells.written`: all of them are writable, and a comment is the last token of its line.
* `spells_writeTokens`: tokens that are written with spaces between them spell themselves.
* `exists_scan_writeTokens`: so the tokens of a text are found again in their written form.
-/

namespace InterfaceSchema

/-- A text spells some tokens, the last of which stands for its end. -/
inductive Spells : List Char → List Token → Prop
  | nil : Spells [] [.eof]
  | separator
      {c : Char}
      {rest : List Char}
      {tokens : List Token}
      (skips : isSeparator c = true)
      (later : Spells rest tokens) :
      Spells (c :: rest) tokens
  | token
      {c : Char}
      {rest : List Char}
      {token : Token}
      {more : Nat}
      {tokens : List Token}
      (opens : isSeparator c = false)
      (reads : Token.read c rest = .ok (token, more))
      (later : Spells (rest.drop more) tokens) :
      Spells (c :: rest) (token :: tokens)

/-! ## Scanning -/

section Scanning

variable {text : List Char} {tokens : List Token}

theorem Spells.exists_pieces
    (spells : Spells text tokens)
    (offset : Nat) :
    ∃ found, pieces offset text = .ok found ∧ found.map Piece.token = tokens := by
  induction spells generalizing offset with
  | nil =>
      exact ⟨_, by rw [pieces], rfl⟩
  | @separator c rest tokens skips later ih =>
      rw [pieces, if_pos skips]
      exact ih _
  | @token c rest token more tokens opens reads later ih =>
      rcases ih (offset + byteLength (c :: rest.take more)) with ⟨found, hfound, hsame⟩
      rw [pieces, if_neg (by simp [opens]), reads]
      simp only [hfound]
      exact ⟨_, rfl, by simp [hsame]⟩

theorem spells_of_pieces
    {offset : Nat}
    {found : List Piece}
    (succeeds : pieces offset text = .ok found) :
    Spells text (found.map Piece.token) := by
  induction offset, text using pieces.induct generalizing found with
  | case1 offset =>
      rw [pieces] at succeeds
      cases succeeds
      exact .nil
  | case2 offset c rest hseparator ih =>
      rw [pieces, if_pos hseparator] at succeeds
      exact .separator hseparator (ih succeeds)
  | case3 offset c rest hword cause more hread =>
      rw [pieces, if_neg hword, hread] at succeeds
      cases succeeds
  | case4 offset c rest hword token more hread stop failure hlater =>
      rw [pieces, if_neg hword, hread] at succeeds
      simp only at succeeds
      rw [hlater] at succeeds
      cases succeeds
  | case5 offset c rest hword token more hread stop later hlater =>
      rename_i ih
      rw [pieces, if_neg hword, hread] at succeeds
      simp only at succeeds
      rw [hlater] at succeeds
      cases succeeds
      exact .token (by simpa using hword) hread (ih hlater)

/-- The tokens that are found by scanning a text are those that it spells. -/
theorem exists_scan_iff_spells (file text : String) (tokens : List Token) :
    (∃ lexemes, scan file text = .ok lexemes ∧ lexemes.map Lexeme.token = tokens) ↔
      Spells text.toList tokens := by
  constructor
  · rintro ⟨lexemes, hscanned, rfl⟩
    rcases scanText_eq_ok (mapError_eq_ok_iff.1 hscanned) with ⟨found, hfound, rfl⟩
    rw [List.map_map]
    exact spells_of_pieces hfound
  · intro hspells
    rcases hspells.exists_pieces 0 with ⟨found, hfound, rfl⟩
    refine ⟨_, mapError_eq_ok_iff.2 (by rw [scanText, hfound]; rfl), ?_⟩
    rw [List.map_map]
    rfl

end Scanning

/-! ## What can be spelled -/

/-- What may follow a token: a comment is the last token of its line. -/
def Token.MayPrecede (token next : Token) : Prop :=
  ∀ text, token = .comment text → next = .newline

/-- Behind a comment the text or the line ends. -/
theorem rest_of_comment
    {c : Char}
    {rest : List Char}
    {text : String}
    {more : Nat}
    (reads : Token.read c rest = .ok (.comment text, more)) :
    rest.drop more = [] ∨ ∃ later, rest.drop more = '\n' :: later := by
  cases Token.reading_of_read reads with
  | comment opens =>
      have hdrop :
          rest.drop (rest.takeWhile (· ≠ '\n')).length = rest.dropWhile (· ≠ '\n') := by
        conv =>
          lhs
          arg 2
          rw [← List.takeWhile_append_dropWhile (p := fun c => decide (c ≠ '\n')) (l := rest)]
        rw [List.drop_left]
      rw [hdrop]
      cases hline : rest.dropWhile (· ≠ '\n') with
      | nil =>
          exact Or.inl rfl
      | cons d later =>
          have hfirst := List.head?_dropWhile_not (fun c => decide (c ≠ '\n')) rest
          rw [hline] at hfirst
          have hbreak : d = '\n' := by
            simpa using hfirst
          exact Or.inr ⟨later, by rw [hbreak]⟩
  | mark stands =>
      cases Token.isMark_of_ofMark? stands

namespace Spells

variable {text rest : List Char} {tokens : List Token}

theorem of_nil (spells : Spells [] tokens) : tokens = [.eof] := by
  cases spells
  rfl

theorem of_separator
    {c : Char}
    (skips : isSeparator c = true)
    (spells : Spells (c :: rest) tokens) :
    Spells rest tokens := by
  cases spells with
  | separator _ later =>
      exact later
  | token opens _ _ =>
      rw [skips] at opens
      cases opens

/-- A text that begins with a token spells the token and what the rest spells. -/
theorem of_token
    {c : Char}
    {token : Token}
    {more : Nat}
    (opens : isSeparator c = false)
    (reads : Token.read c rest = .ok (token, more))
    (spells : Spells (c :: rest) tokens) :
    ∃ later, tokens = token :: later ∧ Spells (rest.drop more) later := by
  cases spells with
  | separator skips _ =>
      rw [skips] at opens
      cases opens
  | token _ found later =>
      rw [reads] at found
      cases found
      exact ⟨_, rfl, later⟩

theorem of_newline (spells : Spells ('\n' :: rest) tokens) :
    ∃ later, tokens = .newline :: later := by
  rcases spells.of_token rfl rfl with ⟨later, htokens, _⟩
  exact ⟨later, htokens⟩

/-- All tokens of a text but the last are writable, and its comments end their lines. -/
theorem written (spells : Spells text tokens) :
    ∃ front,
      tokens = front ++ [.eof] ∧
        (∀ token ∈ front, token.Writable) ∧ front.IsChain Token.MayPrecede := by
  induction spells with
  | nil =>
      exact ⟨[], rfl, by simp, .nil⟩
  | separator skips later ih =>
      exact ih
  | @token c rest token more tokens opens reads later ih =>
      rcases ih with ⟨front, rfl, hwritable, hchain⟩
      refine ⟨token :: front, rfl, ?_, ?_⟩
      · intro other hmember
        rcases List.mem_cons.1 hmember with rfl | hrest
        · exact Token.writable_of_read reads
        · exact hwritable other hrest
      · rw [List.isChain_cons]
        refine ⟨?_, hchain⟩
        rintro next hnext text rfl
        rcases rest_of_comment reads with hend | ⟨line, hbreak⟩
        · rw [hend] at later
          have hlast := later.of_nil
          cases front with
          | nil =>
              cases hnext
          | cons first more =>
              simp at hlast
        · rw [hbreak] at later
          rcases later.of_newline with ⟨others, hothers⟩
          cases front with
          | nil =>
              cases hnext
          | cons first more =>
              cases hnext
              rw [List.cons_append, List.cons.injEq] at hothers
              exact hothers.1

/-- A written token may be put before a text. -/
theorem cons
    {token : Token}
    (writable : token.Writable)
    (stops : token.StopsBefore rest)
    (later : Spells rest tokens) :
    Spells (token.written.toList ++ rest) (token :: tokens) := by
  rcases Token.read_written writable stops with ⟨first, more, length, hfirst, hopens, hread, hleft⟩
  rw [hfirst, List.cons_append]
  refine .token hopens hread ?_
  rcases hleft with hsame | hspaced
  · rw [hsame]
    exact later
  · rw [← hspaced] at later
    exact later.of_separator (by decide)

end Spells

/-! ## Writing tokens -/

/-- Tokens written one after another, with single spaces between them. -/
def writeTokens (tokens : List Token) : String :=
  String.intercalate " " (tokens.map Token.written)

theorem writeTokens_cons_cons (token next : Token) (later : List Token) :
    (writeTokens (token :: next :: later)).toList =
      token.written.toList ++ ' ' :: (writeTokens (next :: later)).toList := by
  simp [writeTokens, List.intercalate]

/-- Written tokens spell themselves, if each comment among them ends its line. -/
theorem spells_writeTokens
    {tokens : List Token}
    (writable : ∀ token ∈ tokens, token.Writable)
    (chained : tokens.IsChain Token.MayPrecede) :
    Spells (writeTokens tokens).toList (tokens ++ [.eof]) := by
  induction tokens with
  | nil =>
      exact .nil
  | cons token later ih =>
      rw [List.isChain_cons] at chained
      have hfirst := writable token List.mem_cons_self
      have hrest := ih (fun other hmember => writable other (List.mem_cons_of_mem token hmember))
        chained.2
      cases later with
      | nil =>
          have hstops : token.StopsBefore [] := Or.inl rfl
          have hlast := Spells.cons hfirst hstops .nil
          simpa [writeTokens] using hlast
      | cons next more =>
          rw [writeTokens_cons_cons]
          refine Spells.cons hfirst (Or.inr ⟨_, rfl, ?_⟩) (.separator (by decide) hrest)
          intro text hcomment
          have hnewline : next = .newline := chained.1 next rfl text hcomment
          subst hnewline
          cases more with
          | nil =>
              exact ⟨_, rfl⟩
          | cons other others =>
              rw [writeTokens_cons_cons]
              exact ⟨_, rfl⟩

/-- If the tokens of a text are written with single spaces between them, the same tokens are found
in what was written. -/
theorem exists_scan_writeTokens
    (file other text : String)
    {lexemes : List Lexeme}
    (scanned : scan file text = .ok lexemes) :
    ∃ tokens,
      lexemes.map Lexeme.token = tokens ++ [.eof] ∧
        ∃ again,
          scan other (writeTokens tokens) = .ok again ∧
            again.map Lexeme.token = tokens ++ [.eof] := by
  have hspells := (exists_scan_iff_spells file text _).1 ⟨lexemes, scanned, rfl⟩
  rcases hspells.written with ⟨tokens, htokens, hwritable, hchained⟩
  refine ⟨tokens, htokens, ?_⟩
  exact (exists_scan_iff_spells other _ _).2 (spells_writeTokens hwritable hchained)

/-- A text with quotation marks behind backslashes, a number with zeros in front, a name of an
annotation with marks in it, and tokens without separators between them. -/
def crowdedText : String :=
  "#  first \n@a\"b#c(007x,\"\\\\\"\\ \\\"\")->;\t# \r\n12ab\"\"#last"

theorem exists_scan_writeTokens_crowdedText :
    ∃ lexemes,
      scan "a.yarp" crowdedText = .ok lexemes ∧
        ∃ tokens,
          lexemes.map Lexeme.token = tokens ++ [.eof] ∧
            ∃ again,
              scan "b.yarp" (writeTokens tokens) = .ok again ∧
                again.map Lexeme.token = tokens ++ [.eof] := by
  have hscans : (scan "a.yarp" crowdedText).isOk = true := by decide +kernel
  rcases exists_eq_ok_of_isOk hscans with ⟨lexemes, hlexemes⟩
  exact ⟨lexemes, hlexemes, exists_scan_writeTokens "a.yarp" "b.yarp" crowdedText hlexemes⟩

end InterfaceSchema
