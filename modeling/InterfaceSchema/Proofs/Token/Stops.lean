import InterfaceSchema.Proofs.Token.Lines

/-!
# Where the scanner stops

A text that cannot be cut into tokens is refused at its first fault.

* `exists_faulty_of_scan`: a scan that fails stops at a fault.
* `scan_of_faulty`: a scan fails at a fault that the token before it does not absorb.
-/

namespace InterfaceSchema

/-- A text that begins with a fault is refused there. -/
theorem Faulty.pieces_eq
    {cause : Cause}
    {slice behind : List Char}
    (faulty : Faulty cause slice behind)
    (offset : Nat) :
    pieces offset (slice ++ behind) =
      .error ⟨cause, ⟨offset, offset + byteLength slice⟩⟩ := by
  rcases faulty.exists_read with ⟨c, later, rfl, hopens, hread⟩
  rw [List.cons_append, pieces, if_neg (by simp [hopens]), hread]
  simp only [List.take_left]

section Scans

variable {file text : String}

/-- A scan that fails stops at a fault, and the text before it can be scanned. -/
theorem exists_faulty_of_scan
    {error : ParseError}
    (fails : scan file text = .error error) :
    ∃ before slice behind,
      Cuts text.toList error.span before slice behind ∧
        (∃ lexemes, scan file (String.ofList before) = .ok lexemes) ∧
          Faulty error.cause slice behind := by
  rcases scan_eq_error_iff.1 fails with ⟨failure, hfailure, rfl⟩
  rcases exists_failsAt hfailure with
    ⟨before, c, rest, hwhole, ⟨found, htiling, _⟩, hopens, more, hread, hspan⟩
  rw [Nat.zero_add, Nat.zero_add] at hspan
  have hcut : pieces 0 (String.ofList before).toList = .ok found := by
    rw [String.toList_ofList]
    exact htiling.pieces_eq
  refine ⟨before, c :: rest.take more, rest.drop more, ⟨?_, ?_, ?_⟩, ⟨_, scan_of_pieces hcut⟩,
    faulty_of_read hopens hread⟩
  · rw [hwhole, List.append_assoc, List.cons_append, List.take_append_drop]
  · exact congrArg Span.start hspan
  · exact congrArg Span.stop hspan

/-- A scan fails at a fault, if the token before it does not absorb it. -/
theorem scan_of_faulty
    {before slice behind : List Char}
    {cause : Cause}
    {front : List Lexeme}
    {stop : Location}
    (whole : text.toList = before ++ slice ++ behind)
    (faulty : Faulty cause slice behind)
    (scanned : scan file (String.ofList before) = .ok (front ++ [⟨.eof, stop⟩]))
    (apart :
      ∀ last ∈ front.getLast?,
        last.location.span.stop = byteLength before → ¬ last.token.Absorbs (slice ++ behind)) :
    scan file text =
      .error
        (ParseError.ofFailure file text.toList
          ⟨cause, ⟨byteLength before, byteLength (before ++ slice)⟩⟩) := by
  rcases exists_tiling_of_scan scanned with ⟨found, _, htiling, hlexemes⟩
  rw [String.toList_ofList] at htiling hlexemes
  have hends : EndBefore found (0 + byteLength before) (slice ++ behind) := by
    intro last hlast hstop
    rw [Nat.zero_add] at hstop
    refine faulty.endsBefore (apart (last.place before) ?_ hstop)
    have hfront : front = found.dropLast.map (Piece.place before) := by
      rw [List.map_dropLast, ← hlexemes, List.dropLast_concat]
    rw [hfront, List.getLast?_map, Option.mem_def.1 hlast]
    rfl
  refine scan_eq_error_iff.2 ⟨_, ?_, rfl⟩
  rw [whole, List.append_assoc, htiling.pieces_append hends, faulty.pieces_eq, byteLength_append,
    Nat.zero_add]
  rfl

end Scans

/-- A scan that fails stops at the first fault: the text before it can be scanned, and what stands
there is a fault in one way only, which is what is reported, with its stretch. The other way round a
scan fails at each fault that stands behind a text that can be scanned, unless the token before it
absorbs it. -/
theorem scan_faults (file text : String) :
    (∀ error,
      scan file text = .error error →
        ∃ before slice behind,
          Cuts text.toList error.span before slice behind ∧
            (∃ lexemes, scan file (String.ofList before) = .ok lexemes) ∧
              ∀ cause stretch later,
                stretch ++ later = slice ++ behind →
                  (Faulty cause stretch later ↔ cause = error.cause ∧ stretch = slice)) ∧
      ∀ before slice behind cause front stop,
        text.toList = before ++ slice ++ behind →
          Faulty cause slice behind →
            scan file (String.ofList before) = .ok (front ++ [⟨.eof, stop⟩]) →
              (∀ last ∈ front.getLast?,
                last.location.span.stop = byteLength before →
                  ¬ last.token.Absorbs (slice ++ behind)) →
                ∃ error,
                  scan file text = .error error ∧
                    error.cause = cause ∧ Cuts text.toList error.span before slice behind := by
  constructor
  · intro error hfails
    rcases exists_faulty_of_scan hfails with ⟨before, slice, behind, hcuts, hscans, hfaulty⟩
    refine ⟨before, slice, behind, hcuts, hscans, ?_⟩
    intro cause stretch later hsame
    constructor
    · intro halso
      exact hfaulty.unique halso hsame
    · rintro ⟨rfl, rfl⟩
      rw [List.append_cancel_left hsame]
      exact hfaulty
  · intro before slice behind cause front stop hwhole hfaulty hscanned hapart
    exact ⟨_, scan_of_faulty hwhole hfaulty hscanned hapart, rfl, hwhole, rfl, rfl⟩

/-- A literal that is not closed, behind a word; and a word before a dash. -/
theorem scan_faults_samples :
    (∃ error before slice behind,
      scan "a.yarp" "x \"é" = .error error ∧
        Cuts "x \"é".toList error.span before slice behind ∧
          (∃ lexemes, scan "a.yarp" (String.ofList before) = .ok lexemes) ∧
            ∀ cause stretch later,
              stretch ++ later = slice ++ behind →
                (Faulty cause stretch later ↔ cause = error.cause ∧ stretch = slice)) ∧
      ∃ front stop error,
        Faulty (.brokenArrow (some 'é')) ['-', 'é'] [] ∧
          scan "a.yarp" (String.ofList ['7', ' ', 'x']) = .ok (front ++ [⟨.eof, stop⟩]) ∧
            scan "a.yarp" "7 x-é" = .error error ∧
              error.cause = .brokenArrow (some 'é') ∧
                Cuts "7 x-é".toList error.span ['7', ' ', 'x'] ['-', 'é'] [] := by
  have hopen :
      scan "a.yarp" "x \"é" = .error ⟨"a.yarp", .unterminatedString, ⟨2, 5⟩, ⟨1, 3⟩⟩ := by
    decide +kernel
  have hdash : Faulty (.brokenArrow (some 'é')) ['-', 'é'] [] := .brokenArrow (by decide)
  have hword :
      scan "a.yarp" (String.ofList ['7', ' ', 'x']) =
        .ok
          ([⟨.number 7, ⟨⟨1, 1⟩, ⟨1, 2⟩, ⟨0, 1⟩⟩⟩, ⟨.ident "x", ⟨⟨1, 3⟩, ⟨1, 4⟩, ⟨2, 3⟩⟩⟩] ++
            [⟨.eof, ⟨⟨1, 4⟩, ⟨1, 4⟩, ⟨3, 3⟩⟩⟩]) := by
    decide +kernel
  have hapart :
      ∀ last ∈
        [(⟨.number 7, ⟨⟨1, 1⟩, ⟨1, 2⟩, ⟨0, 1⟩⟩⟩ : Lexeme),
          ⟨.ident "x", ⟨⟨1, 3⟩, ⟨1, 4⟩, ⟨2, 3⟩⟩⟩].getLast?,
        last.location.span.stop = byteLength ['7', ' ', 'x'] →
          ¬ last.token.Absorbs (['-', 'é'] ++ []) := by
    rintro last ⟨⟩ _ ⟨c, ⟨⟩, hdigit⟩
    cases hdigit
  rcases (scan_faults "a.yarp" "x \"é").1 _ hopen with ⟨before, slice, behind, hstops⟩
  rcases (scan_faults "a.yarp" "7 x-é").2 _ _ _ _ _ _ rfl hdash hword hapart with ⟨error, hfails⟩
  exact ⟨⟨_, before, slice, behind, hopen, hstops⟩, _, _, error, hdash, hword, hfails⟩

/-- Words are among the tokens that absorb: digits directly behind a word are part of it, as large
as the number that they spell may be. -/
theorem not_scan_faults_of_word :
    ¬ ∀ file text before slice behind cause front stop,
      String.toList text = before ++ slice ++ behind →
        Faulty cause slice behind →
          scan file (String.ofList before) = .ok (front ++ [⟨.eof, stop⟩]) →
            (∀ last ∈ front.getLast?,
              last.location.span.stop = byteLength before →
                (∀ content, last.token ≠ .comment content) ∧
                  (∀ name, last.token ≠ .atName name) ∧
                    ∀ value,
                      last.token = .number value →
                        ∀ c ∈ (slice ++ behind).head?, isDecimal c = false) →
              ∃ error,
                scan file text = .error error ∧
                  error.cause = cause ∧ Cuts text.toList error.span before slice behind := by
  intro hall
  have hdigits : "18446744073709551616".toList.all isDecimal = true := by decide +kernel
  have hlarge : Faulty .integerOutOfRange "18446744073709551616".toList [] :=
    .integerOutOfRange (List.all_eq_true.1 hdigits) (by decide +kernel) (by rintro c ⟨⟩)
  have hword :
      scan "a.yarp" (String.ofList ['a']) =
        .ok
          ([⟨.ident "a", ⟨⟨1, 1⟩, ⟨1, 2⟩, ⟨0, 1⟩⟩⟩] ++ [⟨.eof, ⟨⟨1, 2⟩, ⟨1, 2⟩, ⟨1, 1⟩⟩⟩]) := by
    decide +kernel
  have hscans : (scan "a.yarp" "a18446744073709551616").isOk = true := by decide +kernel
  rcases hall "a.yarp" "a18446744073709551616" ['a'] _ [] _ _ _ rfl hlarge hword
      (by rintro last ⟨⟩ _; simp) with ⟨error, hfails, _⟩
  rw [hfails] at hscans
  cases hscans

end InterfaceSchema
