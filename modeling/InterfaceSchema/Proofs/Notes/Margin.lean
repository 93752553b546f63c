import InterfaceSchema.Proofs.Notes.Position
import InterfaceSchema.Proofs.Reading.Block

/-!
# Margins by position

A `Margin` is carried along while phrases are read. `Margin.StandsAt` says what it means for the
place it is carried to: its notes are those since the last boundary. This is kept by each thing that
may stand between the items of a body (`Margin.StandsAt.filler`), and each end of an item or of a
body begins anew (`Margin.StandsAt.of_mark`, `Margin.StandsAt.of_ended`).
-/

namespace InterfaceSchema

/-- A margin is right for a place outside of value lists: it knows whether a line begins there, and
holds the notes since the last boundary. -/
structure Margin.StandsAt (margin : Margin) (lexemes : List Lexeme) (k : Nat) : Prop where
  region : regionAt lexemes k ≠ .values
  lineStart : margin.atLineStart = followsNewline lexemes k
  notes : ∃ b, NotesBetween lexemes b k margin.waiting

namespace Margin.StandsAt

variable {lexemes rest taken : List Lexeme} {k : Nat} {margin next : Margin}

/-- Nothing waits behind a semicolon or a brace. -/
theorem of_mark
    {mark : Token}
    {place : Location}
    (stands : lexemes.drop k = ⟨mark, place⟩ :: rest)
    (outside : regionAt lexemes k ≠ .values)
    (isMark : mark = .semicolon ∨ mark = .leftBrace ∨ mark = .rightBrace) :
    isBoundary lexemes k = true ∧ Margin.clear.StandsAt lexemes (k + 1) := by
  have htoken := tokenAt?_head stands
  have hboundary : isBoundary lexemes k = true := by
    rcases isMark with rfl | rfl | rfl <;> simp [isBoundary, htoken, outside]
  have hnoList : mark ≠ .leftParen := by
    rcases isMark with rfl | rfl | rfl <;> simp
  refine ⟨hboundary, ?_, ?_, k, NotesBetween.of_boundary hboundary⟩
  · exact regionAt_succ_ne_values stands outside hnoList
  · rcases isMark with rfl | rfl | rfl <;> simp [Margin.clear, followsNewline, htoken]

/-- Nothing waits behind an item that ends with a semicolon. -/
theorem of_ended
    (stands : lexemes.drop k = taken ++ rest)
    (outside : regionAt lexemes k ≠ .values)
    (noList : NoToken .leftParen taken)
    (ended : Ended taken) :
    ∃ m, k ≤ m ∧ m + 1 = k + taken.length ∧
      isBoundary lexemes m = true ∧ Margin.clear.StandsAt lexemes (k + taken.length) := by
  rcases ended with ⟨front, stop, rfl, hplain⟩
  have hfront : NoToken .leftParen front := by
    intro place more hsame
    rw [hsame] at noList
    exact noList place _ rfl
  rw [List.append_assoc] at stands
  have houtside := regionAt_ne_values_of_plain stands outside hfront hplain
  rcases of_mark (drop_of_append stands) houtside (Or.inl rfl) with ⟨hboundary, hstands⟩
  refine ⟨k + front.length, Nat.le_add_right _ _, ?_, hboundary, ?_⟩
  · rw [List.length_append, List.length_singleton, Nat.add_assoc]
  · rw [List.length_append, List.length_singleton, ← Nat.add_assoc]
    exact hstands

/-- A line feed keeps the notes that wait, unless it ends an empty line. -/
theorem newline
    {place : Location}
    (holds : margin.StandsAt lexemes k)
    (stands : lexemes.drop k = ⟨.newline, place⟩ :: rest) :
    Margin.StandsAt
      ⟨true, if margin.atLineStart then Notes.none else margin.waiting⟩ lexemes (k + 1) := by
  have htoken := tokenAt?_head stands
  refine ⟨regionAt_succ_ne_values stands holds.region (by simp), ?_, ?_⟩
  · simp [followsNewline, htoken]
  · by_cases hline : followsNewline lexemes k = true
    · have hboundary : isBoundary lexemes k = true := by
        simp [isBoundary, htoken, holds.region, hline]
      rw [holds.lineStart, if_pos hline]
      exact ⟨k, NotesBetween.of_boundary hboundary⟩
    · rcases holds.notes with ⟨b, hnotes⟩
      rw [holds.lineStart, if_neg hline]
      refine ⟨b, hnotes.extend_quiet (Nat.le_succ k) ?_⟩
      intro i hlow hhigh
      have hsame : i = k := by omega
      rw [hsame]
      exact IsQuiet.of_newline htoken (by simpa using hline)

/-- A comment joins the notes that wait if a line begins before it. -/
theorem comment
    {text : String}
    {place : Location}
    (holds : margin.StandsAt lexemes k)
    (stands : lexemes.drop k = ⟨.comment text, place⟩ :: rest) :
    Margin.StandsAt
      ⟨false, { margin.waiting with
        comments := margin.waiting.comments ++ if margin.atLineStart then [text] else [] }⟩
      lexemes (k + 1) := by
  have htoken := tokenAt?_head stands
  refine ⟨regionAt_succ_ne_values stands holds.region (by simp), ?_, ?_⟩
  · simp [followsNewline, htoken]
  · rcases holds.notes with ⟨b, hnotes⟩
    have hextended := hnotes.extend [] (Nat.le_succ k)
      (by
        intro i hlow hhigh
        have hsame : i = k := by omega
        simp [hsame, isBoundary, htoken])
      (by simp [List.Ico.succ_singleton, opensMark, htoken])
    refine ⟨b, ?_⟩
    rw [holds.lineStart]
    rw [List.Ico.succ_singleton, List.append_nil] at hextended
    by_cases hline : followsNewline lexemes k = true
    · simpa [ownLineComment?, htoken, hline] using hextended
    · simpa [ownLineComment?, htoken, hline] using hextended

theorem trivia
    (holds : margin.StandsAt lexemes k)
    (passed : Trivia margin taken next)
    (stands : lexemes.drop k = taken ++ rest) :
    next.StandsAt lexemes (k + taken.length) := by
  cases passed with
  | newline place =>
      exact holds.newline stands
  | comment text place =>
      exact holds.comment stands

end Margin.StandsAt

/-! ## Annotations -/

section Annotations

variable {lexemes rest taken : List Lexeme} {k : Nat} {mark : AnnotationMark}

/-- Behind its name an annotation is quiet, and its value list is closed where it ends. -/
theorem AnnotationPhrase.quiet
    (marked : AnnotationPhrase taken mark)
    (stands : lexemes.drop k = taken ++ rest)
    (outside : regionAt lexemes k ≠ .values) :
    (∀ i, k < i → i < k + taken.length → IsQuiet lexemes i) ∧
      regionAt lexemes (k + taken.length) ≠ .values ∧
      followsNewline lexemes (k + taken.length) = false := by
  cases marked with
  | bare name place =>
      have htoken := tokenAt?_head stands
      refine ⟨?_, ?_, ?_⟩
      · intro i hlow hhigh
        simp only [List.length_singleton] at hhigh
        omega
      · exact regionAt_succ_ne_values stands outside (by simp)
      · simp [followsNewline, htoken]
  | @list inner values name start opening closing listed =>
      rw [List.cons_append, List.cons_append, List.append_assoc] at stands
      have hopening := drop_of_cons stands
      have hinner := drop_of_cons hopening
      have hnamed : regionAt lexemes (k + 1) = .named := by
        rw [regionAt_succ stands]
        generalize regionAt lexemes k = region at outside
        cases region <;> simp_all [Region.after]
      have hwithin : regionAt lexemes (k + 1 + 1) = .values := by
        rw [regionAt_succ hopening, hnamed]
        rfl
      have hsameLine : followsNewline lexemes (k + 1 + 1) = false := by
        simp [followsNewline, tokenAt?_head hopening]
      have hvalues := values_of_inner hinner hwithin hsameLine listed.word_or_comma
      have hclosing := drop_of_append hinner
      have hlast := (hvalues (k + 1 + 1 + inner.length) (by omega) (Nat.le_refl _)).1
      have hlength :
          k + (⟨.atName name, start⟩ :: ⟨.leftParen, opening⟩ ::
            (inner ++ [⟨.rightParen, closing⟩]) : List Lexeme).length =
              k + 1 + 1 + inner.length + 1 := by
        simp only [List.length_cons, List.length_append, List.length_nil]
        omega
      rw [hlength]
      refine ⟨?_, ?_, ?_⟩
      · intro i hlow hhigh
        rcases Nat.eq_or_lt_of_le hlow with rfl | hlater
        · exact IsQuiet.of_leftParen (tokenAt?_head hopening)
        · have hplace := hvalues i hlater (by omega)
          exact IsQuiet.of_values hplace.1 hplace.2
      · rw [regionAt_succ hclosing, hlast]
        simp [Region.after]
      · simp [followsNewline, tokenAt?_head hclosing]

theorem Margin.StandsAt.annotation
    {margin : Margin}
    (holds : margin.StandsAt lexemes k)
    (marked : AnnotationPhrase taken mark)
    (stands : lexemes.drop k = taken ++ rest)
    (noList : NoToken .leftParen rest) :
    Margin.StandsAt
      ⟨false, { margin.waiting with annotations := margin.waiting.annotations ++ [mark] }⟩
      lexemes (k + taken.length) := by
  rcases marked.quiet stands holds.region with ⟨hquiet, hregion, hline⟩
  rcases marked.opens with ⟨name, place, more, hopens⟩
  rcases holds.notes with ⟨b, hnotes⟩
  have htoken : tokenAt? lexemes k = some (.atName name) := by
    rw [hopens] at stands
    exact tokenAt?_head stands
  have hshorter : k < k + taken.length := by
    simp [hopens]
  have hcomments :
      (List.Ico k (k + taken.length)).filterMap (ownLineComment? lexemes) = [] := by
    rw [List.filterMap_eq_nil_iff]
    intro i hmem
    rcases List.Ico.mem.1 hmem with ⟨hlow, hhigh⟩
    rcases Nat.eq_or_lt_of_le hlow with rfl | hlater
    · simp [ownLineComment?, htoken]
    · exact (hquiet i hlater hhigh).noComment
  have hopen :
      (List.Ico k (k + taken.length)).filter (opensMark lexemes) = [k] := by
    have hlater :
        (List.Ico (k + 1) (k + taken.length)).filter (opensMark lexemes) = [] := by
      rw [List.filter_eq_nil_iff]
      intro i hmem
      rcases List.Ico.mem.1 hmem with ⟨hlow, hhigh⟩
      simp [(hquiet i hlow hhigh).noOpening]
    rw [List.Ico.eq_cons hshorter, List.filter_cons_of_pos, hlater]
    simp [opensMark, htoken, holds.region]
  have hextended := hnotes.extend [mark] (Nat.le_of_lt hshorter)
    (by
      intro i hlow hhigh
      rcases Nat.eq_or_lt_of_le hlow with rfl | hlater
      · simp [isBoundary, htoken]
      · exact (hquiet i hlater hhigh).noBoundary)
    (by
      rw [hopen]
      exact List.Forall₂.cons ⟨taken, rest, stands, Nat.le_refl _, marked, noList⟩ .nil)
  rw [hcomments, List.append_nil] at hextended
  exact ⟨hregion, hline.symm, b, hextended⟩

/-- Whatever stands between items keeps a margin right, if no parenthesis follows it. -/
theorem Margin.StandsAt.filler
    {margin next : Margin}
    (holds : margin.StandsAt lexemes k)
    (passed : Filler margin taken next)
    (stands : lexemes.drop k = taken ++ rest)
    (noList : NoToken .leftParen rest) :
    next.StandsAt lexemes (k + taken.length) := by
  cases passed with
  | trivia passed =>
      exact holds.trivia passed stands
  | noted margin marked =>
      exact holds.annotation marked stands noList

end Annotations

end InterfaceSchema
