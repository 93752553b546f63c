import InterfaceSchema.Proofs.Phrase.Shape
import Mathlib.Data.List.Forall2
import Mathlib.Data.List.Intervals

/-!
# Notes by position

Which comments and annotations stand before a place can be told from the lexemes around it, without
reading the text from its start to that place.

* `regionAt`: whether a place lies in the value list of an annotation.
* `isBoundary`, `LastBoundary`: a semicolon, a brace or an empty line, and the last one before a
  place.
* `ownLineComment?`, `opensMark`: comments on a line of their own, and names of annotations.
* `NotesBetween`: the notes that stand between a boundary and a place. There is one choice of them
  only (`NotesBetween.unique`).
-/

namespace InterfaceSchema

/-- Where a lexeme stands: outside annotations, directly after the name of one, or between the
parentheses of its value list. -/
inductive Region
  | outside
  | named
  | values
  deriving DecidableEq

/-- The region after one more token. -/
def Region.after : Region → Token → Region
  | .values, .rightParen => .outside
  | .values, _ => .values
  | .named, .leftParen => .values
  | _, .atName _ => .named
  | _, _ => .outside

section Places

variable (lexemes : List Lexeme)

/-- The token at a place. -/
def tokenAt? (k : Nat) : Option Token :=
  lexemes[k]?.map Lexeme.token

/-- The region of a place. -/
def regionAt (k : Nat) : Region :=
  (lexemes.take k).foldl (fun region lexeme => region.after lexeme.token) .outside

/-- Whether the lexeme directly before a place is a line feed. -/
def followsNewline : Nat → Bool
  | 0 => false
  | k + 1 => tokenAt? lexemes k = some .newline

/-- Whether notes that stand before a place reach nothing behind it: a semicolon or a brace is
there, or a line feed that ends an empty line. The values of annotations do not count. -/
def isBoundary (k : Nat) : Bool :=
  regionAt lexemes k ≠ .values &&
    match tokenAt? lexemes k with
    | some .semicolon => true
    | some .leftBrace => true
    | some .rightBrace => true
    | some .newline => followsNewline lexemes k
    | _ => false

/-- The last boundary before a place. -/
structure LastBoundary (b k : Nat) : Prop where
  before : b < k
  isBoundary : isBoundary lexemes b = true
  last : ∀ i, b < i → i < k → InterfaceSchema.isBoundary lexemes i = false

/-- The text of a comment that directly follows a line feed. -/
def ownLineComment? (k : Nat) : Option String :=
  match tokenAt? lexemes k with
  | some (.comment text) => if followsNewline lexemes k then some text else none
  | _ => none

/-- Whether an annotation begins at a place. The names in a value list are values. -/
def opensMark (k : Nat) : Bool :=
  match tokenAt? lexemes k with
  | some (.atName _) => regionAt lexemes k ≠ .values
  | _ => false

/-- An annotation that begins at one place and ends before another. Its value list belongs to it
if it has one. -/
def IsAnnotationAt (stop i : Nat) (mark : AnnotationMark) : Prop :=
  ∃ taken rest,
    lexemes.drop i = taken ++ rest ∧
      i + taken.length ≤ stop ∧ AnnotationPhrase taken mark ∧ NoToken .leftParen rest

/-- The notes between the last boundary before a place and the place, each kind in order. -/
structure NotesBetween (b k : Nat) (notes : Notes) : Prop where
  boundary : LastBoundary lexemes b k
  comments : notes.comments = (List.Ico (b + 1) k).filterMap (ownLineComment? lexemes)
  annotations :
    List.Forall₂ (IsAnnotationAt lexemes k)
      ((List.Ico (b + 1) k).filter (opensMark lexemes)) notes.annotations

end Places

/-! ## Single places -/

section Regions

variable {lexemes rest : List Lexeme} {k : Nat}

theorem lexeme_at
    {lexeme : Lexeme}
    (stands : lexemes.drop k = lexeme :: rest) :
    lexemes[k]? = some lexeme := by
  have hhead : (lexemes.drop k)[0]? = some lexeme := by
    rw [stands]
    rfl
  rwa [List.getElem?_drop, Nat.add_zero] at hhead

theorem tokenAt?_head
    {lexeme : Lexeme}
    (stands : lexemes.drop k = lexeme :: rest) :
    tokenAt? lexemes k = some lexeme.token := by
  unfold tokenAt?
  rw [lexeme_at stands]
  rfl

/-- What stands behind the first part of a stretch. -/
theorem drop_of_append
    {taken : List Lexeme}
    (stands : lexemes.drop k = taken ++ rest) :
    lexemes.drop (k + taken.length) = rest := by
  rw [← List.drop_drop, stands, List.drop_left]

theorem drop_of_cons
    {lexeme : Lexeme}
    (stands : lexemes.drop k = lexeme :: rest) :
    lexemes.drop (k + 1) = rest :=
  drop_of_append (show lexemes.drop k = [lexeme] ++ rest from stands)

theorem regionAt_zero : regionAt lexemes 0 = .outside :=
  rfl

theorem regionAt_succ
    {lexeme : Lexeme}
    (stands : lexemes.drop k = lexeme :: rest) :
    regionAt lexemes (k + 1) = (regionAt lexemes k).after lexeme.token := by
  unfold regionAt
  rw [List.take_add_one, lexeme_at stands]
  simp [List.foldl_append]

/-- Only an opening parenthesis leads into a value list. -/
theorem Region.after_ne_values
    {region : Region}
    {token : Token}
    (outside : region ≠ .values)
    (other : token ≠ .leftParen) :
    region.after token ≠ .values := by
  cases region with
  | outside =>
      cases token <;> simp [Region.after]
  | named =>
      cases token <;> simp_all [Region.after]
  | values =>
      exact absurd rfl outside

theorem regionAt_succ_ne_values
    {lexeme : Lexeme}
    (stands : lexemes.drop k = lexeme :: rest)
    (outside : regionAt lexemes k ≠ .values)
    (other : lexeme.token ≠ .leftParen) :
    regionAt lexemes (k + 1) ≠ .values := by
  rw [regionAt_succ stands]
  exact Region.after_ne_values outside other

theorem Region.outside_after
    {token : Token}
    (plain : ∀ name, token ≠ .atName name) :
    Region.outside.after token = .outside := by
  cases token <;> simp_all [Region.after]

theorem Region.after_plain
    {region : Region}
    {token : Token}
    (outside : region ≠ .values)
    (other : token ≠ .leftParen)
    (plain : ∀ name, token ≠ .atName name) :
    region.after token = .outside := by
  cases region with
  | outside =>
      exact Region.outside_after plain
  | named =>
      cases token <;> simp_all [Region.after]
  | values =>
      exact absurd rfl outside

theorem regionAt_of_plain
    {taken : List Lexeme}
    (stands : lexemes.drop k = taken ++ rest)
    (outside : regionAt lexemes k = .outside)
    (plain : Plain taken) :
    regionAt lexemes (k + taken.length) = .outside := by
  induction taken generalizing k with
  | nil =>
      exact outside
  | cons lexeme more ih =>
      have hnext : regionAt lexemes (k + 1) = .outside := by
        rw [regionAt_succ stands, outside]
        exact Region.outside_after (plain lexeme (by simp)).2
      have hmore := ih (drop_of_cons stands) hnext (plain_cons.1 plain).2
      rwa [List.length_cons, Nat.add_comm more.length, ← Nat.add_assoc]

/-- Nothing plain leads into a value list, unless it begins with the parenthesis of one. -/
theorem regionAt_ne_values_of_plain
    {taken : List Lexeme}
    (stands : lexemes.drop k = taken ++ rest)
    (outside : regionAt lexemes k ≠ .values)
    (noList : NoToken .leftParen taken)
    (plain : Plain taken) :
    regionAt lexemes (k + taken.length) ≠ .values := by
  cases taken with
  | nil =>
      exact outside
  | cons lexeme more =>
      have hother : lexeme.token ≠ .leftParen := by
        intro hparen
        exact noList lexeme.location more (by rw [← hparen])
      have hnext : regionAt lexemes (k + 1) = .outside := by
        rw [regionAt_succ stands]
        exact Region.after_plain outside hother (plain lexeme (by simp)).2
      have hmore := regionAt_of_plain (drop_of_cons stands) hnext (plain_cons.1 plain).2
      rw [List.length_cons, Nat.add_comm more.length, ← Nat.add_assoc, hmore]
      simp

/-! ## Value lists by position -/

/-- The words and commas of a value list stand in its region, none of them after a line feed. -/
theorem values_of_inner
    {inner : List Lexeme}
    (stands : lexemes.drop k = inner ++ rest)
    (within : regionAt lexemes k = .values)
    (sameLine : followsNewline lexemes k = false)
    (words : ∀ lexeme ∈ inner, lexeme.token.IsWord ∨ lexeme.token = .comma) :
    ∀ i, k ≤ i → i ≤ k + inner.length →
      regionAt lexemes i = .values ∧ followsNewline lexemes i = false := by
  induction inner generalizing k with
  | nil =>
      intro i hlow hhigh
      have hsame : i = k := Nat.le_antisymm hhigh hlow
      rw [hsame]
      exact ⟨within, sameLine⟩
  | cons lexeme more ih =>
      intro i hlow hhigh
      rcases Nat.eq_or_lt_of_le hlow with rfl | hlater
      · exact ⟨within, sameLine⟩
      · have hword := words lexeme (by simp)
        have hnoClose : lexeme.token ≠ .rightParen := by
          rcases hword with hword | hcomma
          · exact hword.2.1
          · simp [hcomma]
        have hnoBreak : lexeme.token ≠ .newline := by
          rcases hword with hword | hcomma
          · exact hword.2.2.1
          · simp [hcomma]
        have hwithin : regionAt lexemes (k + 1) = .values := by
          rw [regionAt_succ stands, within]
          generalize lexeme.token = token at hnoClose
          cases token <;> simp_all [Region.after]
        have hsameLine : followsNewline lexemes (k + 1) = false := by
          simp [followsNewline, tokenAt?_head stands, hnoBreak]
        refine ih (drop_of_cons stands) hwithin hsameLine ?_ i hlater ?_
        · intro found hmem
          exact words found (List.mem_cons_of_mem _ hmem)
        · rw [List.length_cons] at hhigh
          omega

end Regions

/-! ## Quiet places -/

/-- A place with no boundary, no comment on a line of its own and no start of an annotation. -/
structure IsQuiet (lexemes : List Lexeme) (i : Nat) : Prop where
  noBoundary : isBoundary lexemes i = false
  noComment : ownLineComment? lexemes i = none
  noOpening : opensMark lexemes i = false

section Quiet

variable {lexemes : List Lexeme} {i : Nat}

theorem IsQuiet.of_values
    (within : regionAt lexemes i = .values)
    (sameLine : followsNewline lexemes i = false) :
    IsQuiet lexemes i := by
  constructor
  · simp [isBoundary, within]
  · unfold ownLineComment?
    split
    · simp [sameLine]
    · rfl
  · unfold opensMark
    split
    · simp [within]
    · rfl

theorem IsQuiet.of_leftParen (paren : tokenAt? lexemes i = some .leftParen) :
    IsQuiet lexemes i := by
  constructor
  · simp [isBoundary, paren]
  · simp [ownLineComment?, paren]
  · simp [opensMark, paren]

theorem IsQuiet.of_newline
    (newline : tokenAt? lexemes i = some .newline)
    (sameLine : followsNewline lexemes i = false) :
    IsQuiet lexemes i := by
  constructor
  · simp [isBoundary, newline, sameLine]
  · simp [ownLineComment?, newline]
  · simp [opensMark, newline]

end Quiet

/-! ## Growing stretches -/

section Growing

variable {lexemes : List Lexeme} {b k stop : Nat} {notes : Notes}

theorem LastBoundary.unique
    {b' : Nat}
    (first : LastBoundary lexemes b k)
    (second : LastBoundary lexemes b' k) :
    b = b' := by
  rcases Nat.lt_trichotomy b b' with hlt | rfl | hgt
  · have hnone := first.last b' hlt second.before
    rw [second.isBoundary] at hnone
    simp at hnone
  · rfl
  · have hnone := second.last b hgt first.before
    rw [first.isBoundary] at hnone
    simp at hnone

theorem IsAnnotationAt.weaken
    {i : Nat}
    {mark : AnnotationMark}
    (further : k ≤ stop)
    (marked : IsAnnotationAt lexemes k i mark) :
    IsAnnotationAt lexemes stop i mark := by
  rcases marked with ⟨taken, rest, hstands, hends, hphrase, hrest⟩
  exact ⟨taken, rest, hstands, Nat.le_trans hends further, hphrase, hrest⟩

/-- At most one annotation begins at a place. -/
theorem IsAnnotationAt.unique
    {i stop' : Nat}
    {mark mark' : AnnotationMark}
    (first : IsAnnotationAt lexemes stop i mark)
    (second : IsAnnotationAt lexemes stop' i mark') :
    mark = mark' := by
  rcases first with ⟨taken, rest, hstands, _, hphrase, hrest⟩
  rcases second with ⟨taken', rest', hstands', _, hphrase', hrest'⟩
  exact (hphrase.unique hphrase' hrest hrest' (hstands.symm.trans hstands')).2

/-- The lexemes settle which notes stand before a place. -/
theorem NotesBetween.unique
    {b' : Nat}
    {notes' : Notes}
    (first : NotesBetween lexemes b k notes)
    (second : NotesBetween lexemes b' k notes') :
    b = b' ∧ notes = notes' := by
  have hboundary := first.boundary.unique second.boundary
  subst hboundary
  have hcomments := first.comments.trans second.comments.symm
  have hunique : Relator.RightUnique (IsAnnotationAt lexemes k) :=
    fun _ _ _ hmark hother => hmark.unique hother
  have hannotations := List.right_unique_forall₂' hunique first.annotations second.annotations
  cases notes
  cases notes'
  cases hcomments
  cases hannotations
  exact ⟨rfl, rfl⟩

/-- No notes stand directly after a boundary. -/
theorem NotesBetween.of_boundary (boundary : isBoundary lexemes k = true) :
    NotesBetween lexemes k (k + 1) Notes.none := by
  refine ⟨⟨Nat.lt_succ_self k, boundary, ?_⟩, ?_, ?_⟩
  · intro i hlow hhigh
    omega
  · simp [Notes.none]
  · simp [Notes.none]

/-- Notes in a stretch without boundaries join those before it. -/
theorem NotesBetween.extend
    (found : NotesBetween lexemes b k notes)
    (marks : List AnnotationMark)
    (further : k ≤ stop)
    (noBoundary : ∀ i, k ≤ i → i < stop → isBoundary lexemes i = false)
    (marked :
      List.Forall₂ (IsAnnotationAt lexemes stop)
        ((List.Ico k stop).filter (opensMark lexemes)) marks) :
    NotesBetween lexemes b stop
      ⟨notes.comments ++ (List.Ico k stop).filterMap (ownLineComment? lexemes),
        notes.annotations ++ marks⟩ := by
  have hsplit : List.Ico (b + 1) k ++ List.Ico k stop = List.Ico (b + 1) stop :=
    List.Ico.append_consecutive found.boundary.before further
  have hbefore : b < stop := Nat.lt_of_lt_of_le found.boundary.before further
  refine ⟨⟨hbefore, found.boundary.isBoundary, ?_⟩, ?_, ?_⟩
  · intro i hlow hhigh
    rcases Nat.lt_or_ge i k with hbefore | hafter
    · exact found.boundary.last i hlow hbefore
    · exact noBoundary i hafter hhigh
  · rw [← hsplit, List.filterMap_append, ← found.comments]
  · rw [← hsplit, List.filter_append]
    refine List.rel_append ?_ marked
    exact found.annotations.imp fun i mark => IsAnnotationAt.weaken further

/-- Quiet places leave the notes before them as they are. -/
theorem NotesBetween.extend_quiet
    (found : NotesBetween lexemes b k notes)
    (further : k ≤ stop)
    (quiet : ∀ i, k ≤ i → i < stop → IsQuiet lexemes i) :
    NotesBetween lexemes b stop notes := by
  have hcomments : (List.Ico k stop).filterMap (ownLineComment? lexemes) = [] := by
    rw [List.filterMap_eq_nil_iff]
    intro i hmem
    rcases List.Ico.mem.1 hmem with ⟨hlow, hhigh⟩
    exact (quiet i hlow hhigh).noComment
  have hannotations : (List.Ico k stop).filter (opensMark lexemes) = [] := by
    rw [List.filter_eq_nil_iff]
    intro i hmem
    rcases List.Ico.mem.1 hmem with ⟨hlow, hhigh⟩
    simp [(quiet i hlow hhigh).noOpening]
  have hextended :=
    found.extend [] further (fun i hlow hhigh => (quiet i hlow hhigh).noBoundary)
      (by rw [hannotations]; exact List.Forall₂.nil)
  rw [hcomments] at hextended
  simpa using hextended

end Growing

end InterfaceSchema
