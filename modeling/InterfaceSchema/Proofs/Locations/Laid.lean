import InterfaceSchema.Proofs.Token.Tiling

/-!
# Lexemes in their text

The lexemes of a text stand one behind another, with separators between them. This module says which
characters a location covers that runs from one lexeme to another.

* `Between`: the characters between two offsets of a text.
* `Covers`, `Shows`: what a location says about the text: which characters it covers, at which
  positions, and how they begin and end.
* `Lexeme.StandsIn`: a lexeme covers the characters it was read from.
* `Laid`: lexemes that stand one behind another between two offsets, and `exists_laid_of_scanText`,
  `standsIn_of_scanText`: those of a text do.
* `Laid.shows`: a location from the first of such lexemes to the last.
-/

namespace InterfaceSchema

/-! ## Stretches of a text -/

/-- The characters between two offsets of a text. -/
def Between (text : List Char) (start stop : Nat) (slice : List Char) : Prop :=
  ∃ before behind, Cuts text ⟨start, stop⟩ before slice behind

namespace Between

variable {text slice first second : List Char} {start middle later stop : Nat}

theorem stop_eq (between : Between text start stop slice) : stop = start + byteLength slice := by
  rcases between with ⟨before, behind, hcuts⟩
  have hstart : start = byteLength before := hcuts.start
  have hstop : stop = byteLength (before ++ slice) := hcuts.stop
  rw [hstart, hstop, byteLength_append]

/-- Nothing stands between an offset and itself. -/
theorem before (between : Between text start stop slice) : Between text start start [] := by
  rcases between with ⟨before, behind, hcuts⟩
  refine ⟨before, slice ++ behind, ?_, hcuts.start, ?_⟩
  · rw [hcuts.whole]
    simp
  · rw [List.append_nil]
    exact hcuts.start

theorem append
    (between : Between text start middle first)
    (further : Between text middle stop second) :
    Between text start stop (first ++ second) := by
  rcases between with ⟨before, behind, hcuts⟩
  rcases further with ⟨before', behind', hcuts'⟩
  have hstart : byteLength (before ++ first) = byteLength before' :=
    hcuts.stop.symm.trans hcuts'.start
  have hwhole : (before ++ first) ++ behind = before' ++ (second ++ behind') := by
    rw [← hcuts.whole, hcuts'.whole, List.append_assoc]
  have hsame : before' = before ++ first := by
    rcases exists_append_of_byteLength_le hwhole (Nat.le_of_eq hstart) with ⟨more, rfl⟩
    simp only [byteLength_append] at hstart
    rw [byteLength_eq_zero_iff.1 (by omega : byteLength more = 0), List.append_nil]
  subst hsame
  refine ⟨before, behind', ?_, hcuts.start, ?_⟩
  · rw [hcuts'.whole]
    simp
  · rw [← List.append_assoc]
    exact hcuts'.stop

/-- Something stands between two offsets that lie between characters. -/
theorem exists_of_le
    (between : Between text start middle first)
    (further : Between text later stop second)
    (ordered : middle ≤ later) :
    ∃ slice, Between text middle later slice := by
  rcases between with ⟨before, behind, hcuts⟩
  rcases further with ⟨before', behind', hcuts'⟩
  have hmiddle : middle = byteLength (before ++ first) := hcuts.stop
  have hlater : later = byteLength before' := hcuts'.start
  have hwhole : (before ++ first) ++ behind = before' ++ (second ++ behind') := by
    rw [← hcuts.whole, hcuts'.whole, List.append_assoc]
  rcases exists_append_of_byteLength_le hwhole (by omega) with ⟨slice, hslice⟩
  refine ⟨slice, before ++ first, second ++ behind', ?_, hmiddle, ?_⟩
  · rw [hcuts'.whole, hslice]
    simp
  · rw [← hslice]
    exact hlater

end Between

/-! ## Locations -/

/-- A location covers characters of a text: its span lies between characters, and its positions are
those of its two ends, found by counting line feeds and the characters behind the last of them. -/
structure Covers
    (text : List Char)
    (location : Location)
    (before slice behind : List Char) : Prop where
  cuts : Cuts text location.span before slice behind
  start :
    location.start = ⟨before.count '\n' + 1, (Position.lastLine before).length + 1⟩
  stop :
    location.stop =
      ⟨(before ++ slice).count '\n' + 1, (Position.lastLine (before ++ slice)).length + 1⟩

/-- A location covers some characters of a text, which begin and end as given. -/
def Shows (text : List Char) (location : Location) (opening closing : List Char) : Prop :=
  ∃ before slice behind,
    Covers text location before slice behind ∧
      slice ≠ [] ∧ opening <+: slice ∧ closing <:+ slice

namespace Shows

variable {text opening closing : List Char} {location first last : Location}

theorem start_lt_stop (showing : Shows text location opening closing) :
    location.span.start < location.span.stop := by
  rcases showing with ⟨before, slice, behind, hcovers, hslice, _, _⟩
  have hlength : byteLength slice ≠ 0 := fun hzero => hslice (byteLength_eq_zero_iff.1 hzero)
  rw [hcovers.cuts.start, hcovers.cuts.stop, byteLength_append]
  omega

/-- Nothing need be said about how the characters end. -/
theorem forget_closing (showing : Shows text location opening closing) :
    Shows text location opening [] := by
  rcases showing with ⟨before, slice, behind, hcovers, hslice, hopening, _⟩
  exact ⟨before, slice, behind, hcovers, hslice, hopening, List.nil_suffix⟩

/-- A location from one place to another begins as the one and ends as the other. -/
theorem through
    {middle other : List Char}
    (showing : Shows text first opening middle)
    (further : Shows text last other closing)
    (starts : first.span.start ≤ last.span.start)
    (stops : first.span.stop ≤ last.span.stop) :
    Shows text (first.through last) opening closing := by
  rcases showing with ⟨before, slice, behind, hcovers, hslice, hopening, _⟩
  rcases further with ⟨before', slice', behind', hcovers', hslice', _, hclosing⟩
  have hcuts := hcovers.cuts
  have hcuts' := hcovers'.cuts
  have hbefore : before ++ (slice ++ behind) = before' ++ (slice' ++ behind') := by
    rw [← List.append_assoc, ← List.append_assoc, ← hcuts.whole, ← hcuts'.whole]
  have hfewer : byteLength before ≤ byteLength before' := by
    rw [← hcuts.start, ← hcuts'.start]
    exact starts
  rcases exists_append_of_byteLength_le hbefore hfewer with ⟨more, rfl⟩
  have hinside : slice ++ behind = (more ++ slice') ++ behind' := by
    rw [List.append_assoc] at hbefore ⊢
    exact List.append_cancel_left hbefore
  have hshort : byteLength slice ≤ byteLength (more ++ slice') := by
    rw [hcuts.stop, hcuts'.stop] at stops
    simp only [byteLength_append] at stops ⊢
    omega
  rcases exists_append_of_byteLength_le hinside hshort with ⟨rest, hrest⟩
  refine ⟨before, more ++ slice', behind', ⟨⟨?_, hcuts.start, ?_⟩, hcovers.start, ?_⟩, ?_, ?_, ?_⟩
  · rw [hcuts'.whole]
    simp
  · rw [← List.append_assoc]
    exact hcuts'.stop
  · rw [← List.append_assoc]
    exact hcovers'.stop
  · simp [hslice']
  · rw [hrest]
    exact hopening.trans (List.prefix_append slice rest)
  · exact hclosing.trans (List.suffix_append more slice')

end Shows

/-! ## Lexemes -/

namespace Token

/-- Tokens that stand in a text as they are written. -/
def IsVerbatim : Token → Prop
  | number _ | stringLiteral _ | comment _ | eof => False
  | _ => True

theorem ite_written
    {c d : Char}
    {mark token : Token}
    {otherwise : Option Token}
    (first : mark.written.toList = [d])
    (later : otherwise = some token → token.written.toList = [c])
    (stands : (if c = d then some mark else otherwise) = some token) :
    token.written.toList = [c] := by
  by_cases hmark : c = d
  · rw [if_pos hmark] at stands
    cases stands
    rw [first, hmark]
  · rw [if_neg hmark] at stands
    exact later stands

theorem written_of_ofMark?
    {c : Char}
    {token : Token}
    (stands : ofMark? c = some token) :
    token.written.toList = [c] := by
  unfold ofMark? at stands
  revert stands
  repeat refine ite_written rfl ?_
  intro hnone
  cases hnone

theorem written_of_read
    {c : Char}
    {rest : List Char}
    {token : Token}
    {more : Nat}
    (succeeds : read c rest = .ok (token, more))
    (verbatim : token.IsVerbatim) :
    c :: rest.take more = token.written.toList := by
  cases reading_of_read succeeds with
  | ident start =>
      rw [take_length_takeWhile]
      exact String.toList_ofList.symm
  | number digit small =>
      cases verbatim
  | stringLiteral opens found =>
      cases verbatim
  | comment opens =>
      cases verbatim
  | atName opens named =>
      rw [take_length_takeWhile, opens]
      simp [written, display]
  | arrow opens closes =>
      rw [opens, closes]
      rfl
  | mark stands =>
      rw [written_of_ofMark? stands, List.take_zero]

end Token

/-- A lexeme covers the characters it was read from. -/
def Lexeme.StandsIn (text : List Char) (lexeme : Lexeme) : Prop :=
  lexeme.token.Writable ∧
    ∃ before slice behind,
      Covers text lexeme.location before slice behind ∧
        slice ≠ [] ∧ (lexeme.token.IsVerbatim → slice = lexeme.token.written.toList)

namespace Lexeme.StandsIn

variable {text : List Char} {lexeme : Lexeme}

theorem shows_some (stands : lexeme.StandsIn text) : Shows text lexeme.location [] [] := by
  rcases stands with ⟨_, before, slice, behind, hcovers, hslice, _⟩
  exact ⟨before, slice, behind, hcovers, hslice, List.nil_prefix, List.nil_suffix⟩

theorem shows
    (stands : lexeme.StandsIn text)
    (verbatim : lexeme.token.IsVerbatim) :
    Shows text lexeme.location lexeme.token.written.toList lexeme.token.written.toList := by
  rcases stands with ⟨_, before, slice, behind, hcovers, hslice, hwritten⟩
  rw [← hwritten verbatim]
  exact ⟨before, slice, behind, hcovers, hslice, List.prefix_refl _, List.suffix_refl _⟩

theorem between_some (stands : lexeme.StandsIn text) :
    ∃ slice, Between text lexeme.location.span.start lexeme.location.span.stop slice := by
  rcases stands with ⟨_, before, slice, behind, hcovers, _, _⟩
  exact ⟨slice, before, behind, hcovers.cuts⟩

theorem between
    (stands : lexeme.StandsIn text)
    (verbatim : lexeme.token.IsVerbatim) :
    Between text lexeme.location.span.start lexeme.location.span.stop
      lexeme.token.written.toList := by
  rcases stands with ⟨_, before, slice, behind, hcovers, _, hwritten⟩
  rw [← hwritten verbatim]
  exact ⟨before, behind, hcovers.cuts⟩

end Lexeme.StandsIn

/-- Lexemes that stand one behind another between two offsets of a text, with separators before
each. -/
inductive Laid (text : List Char) : Nat → Nat → List Lexeme → Prop
  | nil
      {offset : Nat}
      (boundary : Between text offset offset []) :
      Laid text offset offset []
  | cons
      {start stop : Nat}
      {gap : List Char}
      {lexeme : Lexeme}
      {rest : List Lexeme}
      (blank : Between text start lexeme.location.span.start gap)
      (separators : ∀ c ∈ gap, isSeparator c = true)
      (stands : lexeme.StandsIn text)
      (later : Laid text lexeme.location.span.stop stop rest) :
      Laid text start stop (lexeme :: rest)

namespace Laid

variable {text : List Char} {start stop : Nat} {first last : Lexeme}
variable {lexemes inner others : List Lexeme}

theorem boundary (laid : Laid text start stop lexemes) : Between text start start [] := by
  cases laid with
  | nil boundary =>
      exact boundary
  | cons blank separators stands later =>
      exact blank.before

theorem le (laid : Laid text start stop lexemes) : start ≤ stop := by
  induction laid with
  | nil boundary =>
      exact Nat.le_refl _
  | cons blank separators stands later ih =>
      have hgap := blank.stop_eq
      have hlength := stands.shows_some.start_lt_stop
      omega

theorem split (laid : Laid text start stop (lexemes ++ others)) :
    ∃ middle, Laid text start middle lexemes ∧ Laid text middle stop others := by
  induction lexemes generalizing start with
  | nil =>
      exact ⟨start, .nil laid.boundary, laid⟩
  | cons lexeme rest ih =>
      cases laid with
      | cons blank separators stands later =>
          rcases ih later with ⟨middle, hfirst, hsecond⟩
          exact ⟨middle, .cons blank separators stands hfirst, hsecond⟩

theorem standsIn
    (laid : Laid text start stop lexemes)
    {lexeme : Lexeme}
    (member : lexeme ∈ lexemes) :
    lexeme.StandsIn text := by
  induction laid with
  | nil boundary =>
      cases member
  | cons blank separators stands later ih =>
      rcases List.mem_cons.1 member with rfl | hlater
      · exact stands
      · exact ih hlater

/-- A lexeme stands behind where it may begin, and nothing is left behind the last one. -/
theorem of_singleton (laid : Laid text start stop [first]) :
    first.StandsIn text ∧ start ≤ first.location.span.start ∧ first.location.span.stop = stop := by
  cases laid with
  | cons blank separators stands later =>
      cases later with
      | nil boundary =>
          refine ⟨stands, ?_, rfl⟩
          rw [blank.stop_eq]
          exact Nat.le_add_right _ _

/-- The location from the first lexeme to the last. -/
theorem shows
    (laid : Laid text start stop (first :: (inner ++ [last])))
    (verbatim : first.token.IsVerbatim)
    (verbatimToo : last.token.IsVerbatim) :
    Shows text (first.location.through last.location) first.token.written.toList
        last.token.written.toList ∧
      start ≤ first.location.span.start ∧ last.location.span.stop = stop := by
  rw [← List.singleton_append] at laid
  rcases laid.split with ⟨middle, hfirst, hrest⟩
  rcases hrest.split with ⟨later, hinner, hlast⟩
  rcases hfirst.of_singleton with ⟨hstands, hstart, hmiddle⟩
  rcases hlast.of_singleton with ⟨hstandsToo, hlater, hstop⟩
  have hlength := hstands.shows_some.start_lt_stop
  have hlengthToo := hstandsToo.shows_some.start_lt_stop
  have hbetween := hinner.le
  refine ⟨?_, hstart, hstop⟩
  exact (hstands.shows verbatim).through (hstandsToo.shows verbatimToo) (by omega) (by omega)

/-- Names with separators before them hold no other characters. -/
theorem exists_between_names
    (laid : Laid text start stop lexemes)
    (names : ∀ lexeme ∈ lexemes, ∃ name, lexeme.token = .ident name)
    {c : Char}
    (noSeparator : isSeparator c = false)
    (noName : isIdentRest c = false) :
    ∃ slice, Between text start stop slice ∧ c ∉ slice := by
  induction laid with
  | nil boundary =>
      exact ⟨[], boundary, List.not_mem_nil⟩
  | @cons start stop gap lexeme rest blank separators stands later ih =>
      rcases names lexeme List.mem_cons_self with ⟨name, hname⟩
      rcases ih fun other hmember => names other (List.mem_cons_of_mem lexeme hmember) with
        ⟨slice, hslice, hfree⟩
      have hbetween := stands.between (by rw [hname]; trivial)
      have hwritable := stands.1
      rw [hname] at hbetween hwritable
      refine ⟨_, (blank.append hbetween).append hslice, ?_⟩
      intro hmember
      rcases List.mem_append.1 hmember with hfirst | hslice
      · rcases List.mem_append.1 hfirst with hgap | hinside
        · rw [separators c hgap] at noSeparator
          cases noSeparator
        · exact Token.not_mem_of_writable hwritable noName hinside
      · exact hfree hslice

end Laid

/-! ## The lexemes of a text -/

/-- A stretch of a text covers itself. -/
theorem LineIndex.covers_locate (before slice behind : List Char) :
    Covers (before ++ slice ++ behind)
      ((ofText (before ++ slice ++ behind)).locate
        ⟨byteLength before, byteLength (before ++ slice)⟩)
      before slice behind := by
  refine ⟨⟨rfl, rfl, rfl⟩, ?_, ?_⟩
  · have hresolve := resolve_eq_after before (slice ++ behind)
    rw [← List.append_assoc, Position.after_eq] at hresolve
    exact hresolve
  · have hresolve := resolve_eq_after (before ++ slice) behind
    rw [Position.after_eq] at hresolve
    exact hresolve

/-- Pieces with a gap before them are laid in their text. -/
theorem Tiling.exists_laid
    {whole rest : List Char}
    {offset : Nat}
    {found : List Piece}
    (tiling : Tiling offset rest found)
    (before gap : List Char)
    (whole_eq : whole = before ++ gap ++ rest)
    (offset_eq : offset = byteLength (before ++ gap))
    (separators : ∀ c ∈ gap, isSeparator c = true) :
    ∃ front last stop,
      (found.map fun piece =>
          (⟨piece.token, (LineIndex.ofText whole).locate piece.span⟩ : Lexeme)) =
          front ++ [⟨.eof, last⟩] ∧
        Laid whole (byteLength before) stop front ∧ stop ≤ byteLength whole := by
  induction tiling generalizing before gap with
  | nil offset =>
      refine ⟨[], _, byteLength before, rfl, .nil ?_, ?_⟩
      · exact ⟨before, gap, by rw [whole_eq]; simp, rfl, by simp⟩
      · rw [whole_eq]
        simp
  | @separator offset c rest found skips later ih =>
      refine ih before (gap ++ [c]) ?_ ?_ ?_
      · rw [whole_eq]
        simp
      · rw [offset_eq]
        simp [Nat.add_assoc]
      · intro d hmember
        rcases List.mem_append.1 hmember with hold | hnew
        · exact separators d hold
        · rw [List.mem_singleton.1 hnew]
          exact skips
  | @token offset c rest token more found opens reads later ih =>
      have hslice : c :: rest.take more ≠ [] := by simp
      have hwritten := Token.written_of_read reads
      have hrest : c :: rest = (c :: rest.take more) ++ rest.drop more := by
        rw [List.cons_append, List.take_append_drop]
      generalize c :: rest.take more = slice at later ih hslice hwritten hrest
      have hwhole : whole = before ++ gap ++ slice ++ rest.drop more := by
        rw [whole_eq, hrest, List.append_assoc _ slice]
      have hnext : offset + byteLength slice = byteLength (before ++ gap ++ slice) := by
        rw [offset_eq, byteLength_append _ slice]
      rcases ih (before ++ gap ++ slice) [] (by simpa using hwhole) (by simpa using hnext)
          (by simp) with
        ⟨front, last, stop, hfront, hlaid, hstop⟩
      have hcovers := LineIndex.covers_locate (before ++ gap) slice (rest.drop more)
      rw [← hwhole, ← hnext, ← offset_eq] at hcovers
      have hstands :
          Lexeme.StandsIn whole
            ⟨token, (LineIndex.ofText whole).locate ⟨offset, offset + byteLength slice⟩⟩ :=
        ⟨Token.writable_of_read reads, _, _, _, hcovers, hslice, hwritten⟩
      have hblank : Between whole (byteLength before) offset gap := by
        refine ⟨before, slice ++ rest.drop more, ?_, rfl, offset_eq⟩
        rw [hwhole]
        simp
      rw [← hnext] at hlaid
      refine ⟨_ :: front, last, stop, ?_, .cons hblank separators hstands hlaid, hstop⟩
      rw [List.map_cons, hfront]
      rfl

/-- The lexemes of a text but the last are laid in it. -/
theorem exists_laid_of_scanText
    {text : List Char}
    {lexemes : List Lexeme}
    (scanned : scanText text = .ok lexemes) :
    ∃ front last stop,
      lexemes = front ++ [⟨.eof, last⟩] ∧
        Laid text 0 stop front ∧ stop ≤ byteLength text := by
  rcases scanText_eq_ok scanned with ⟨found, hfound, rfl⟩
  exact (tiling_of_pieces hfound).exists_laid [] [] rfl rfl (by simp)

/-- The lexemes of a text but the last stand where they were read. -/
theorem standsIn_of_scanText
    {text : List Char}
    {lexemes : List Lexeme}
    (scanned : scanText text = .ok lexemes)
    {lexeme : Lexeme}
    (member : lexeme ∈ lexemes)
    (inside : lexeme.token ≠ .eof) :
    lexeme.StandsIn text := by
  rcases exists_laid_of_scanText scanned with ⟨front, last, stop, rfl, hlaid, _⟩
  rcases List.mem_append.1 member with hfront | hlast
  · exact hlaid.standsIn hfront
  · rw [List.mem_singleton.1 hlast] at inside
    exact absurd rfl inside

end InterfaceSchema
