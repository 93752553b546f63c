import InterfaceSchema.Proofs.Token.Extent

/-!
# Faults

The beginnings of a text of which no token can be read. What stands there decides what is wrong.

* `opensToken`, `Token.opensToken_iff_exists_read`: the characters that a token may begin with.
* `Faulty`: the faults, with one rule for each thing that can be wrong.
* `faulty_of_read`, `Faulty.exists_read`: the reader of tokens fails just at these.
* `Token.Absorbs`: a token that goes on behind the place where it was cut off.
-/

namespace InterfaceSchema

/-- A literal is not closed if each quotation mark in the rest of its line stands directly behind a
backslash. -/
theorem Quoted.bodyAfter?_eq_none_iff {escaped : Bool} {text : List Char} :
    bodyAfter? escaped text = none ↔
      ∀ front later,
        text.takeWhile (· ≠ '\n') = front ++ '"' :: later →
          (front = [] ∧ escaped = true) ∨ front.getLast? = some '\\' := by
  induction text generalizing escaped with
  | nil =>
      simp [bodyAfter?]
  | cons c rest ih =>
      rw [bodyAfter?]
      by_cases hbreak : c = '\n'
      · simp [hbreak]
      rw [if_neg hbreak, List.takeWhile_cons_of_pos (by simpa using hbreak)]
      by_cases hclose : c = '"' ∧ escaped = false
      · rw [if_pos hclose]
        constructor
        · intro hnone
          cases hnone
        · intro hall
          rcases hall [] _ (by rw [hclose.1]; rfl) with ⟨_, hescaped⟩ | hlast
          · rw [hclose.2] at hescaped
            cases hescaped
          · cases hlast
      · rw [if_neg hclose, Option.map_eq_none_iff, ih]
        -- Directly before a mark of `rest` stands `c`, or a character of `rest`.
        constructor
        · intro hall front later hsplit
          cases front with
          | nil =>
              cases hsplit
              exact Or.inl ⟨rfl, by simpa using hclose⟩
          | cons d front =>
              rw [List.cons_append, List.cons.injEq] at hsplit
              rcases hsplit with ⟨rfl, hrest⟩
              rcases hall front later hrest with ⟨rfl, hback⟩ | hlast
              · exact Or.inr (by simpa using hback)
              · exact Or.inr (by rw [List.getLast?_cons, hlast]; rfl)
        · intro hall front later hsplit
          rcases hall (c :: front) later (by rw [hsplit]; rfl) with ⟨hnil, _⟩ | hlast
          · cases hnil
          · cases front with
            | nil =>
                exact Or.inl ⟨rfl, by simpa using hlast⟩
            | cons d front =>
                rw [List.getLast?_cons_cons] at hlast
                exact Or.inr hlast

/-- The characters that a token may begin with. -/
def opensToken (c : Char) : Bool :=
  isIdentStart c || isDecimal c ||
    c ∈ ['"', '#', '@', '-', '(', ')', '<', '>', '\x7b', '\x7d', ',', '.', '=', ';', '\n']

/-- The beginnings of a text that are no tokens: what is wrong, the stretch that it is found in, and
the text behind the stretch. -/
inductive Faulty : Cause → List Char → List Char → Prop
  | unterminatedString
      {line behind : List Char}
      (noBreak : '\n' ∉ line)
      (escaped :
        ∀ front later, line = front ++ '"' :: later → front.getLast? = some '\\')
      (ends : ∀ c ∈ behind.head?, c = '\n') :
      Faulty .unterminatedString ('"' :: line) behind
  | emptyAnnotationName
      {behind : List Char}
      (ends : ∀ c ∈ behind.head?, c = '\t' ∨ c = '\n' ∨ c = '\r' ∨ c = ' ' ∨ c = '(') :
      Faulty .emptyAnnotationName ['@'] behind
  | integerOutOfRange
      {digits behind : List Char}
      (decimal : ∀ c ∈ digits, isDecimal c = true)
      (large : UInt64.size ≤ decimalValue digits)
      (ends : ∀ c ∈ behind.head?, isDecimal c = false) :
      Faulty .integerOutOfRange digits behind
  | loneDash :
      Faulty (.brokenArrow none) ['-'] []
  | brokenArrow
      {c : Char}
      {behind : List Char}
      (other : c ≠ '>') :
      Faulty (.brokenArrow (some c)) ['-', c] behind
  | unexpectedCharacter
      {c : Char}
      {behind : List Char}
      (token : opensToken c = false)
      (separator : isSeparator c = false) :
      Faulty (.unexpectedCharacter c) [c] behind

namespace Token

variable {c : Char} {rest : List Char} {cause : Cause} {more : Nat}

theorem read_of_isDecimal (digit : isDecimal c = true) : read c rest = readNumber c rest := by
  rw [read, isIdentStart_of_isDecimal digit, if_neg (by simp), if_pos digit]

theorem isSome_ofMark? (c : Char) :
    (ofMark? c).isSome =
      decide (c ∈ ['(', ')', '<', '>', '\x7b', '\x7d', ',', '.', '=', ';', '\n']) := by
  by_cases hmark : c ∈ ['(', ')', '<', '>', '\x7b', '\x7d', ',', '.', '=', ';', '\n']
  · rw [decide_eq_true hmark]
    simp only [List.mem_cons, List.not_mem_nil, or_false] at hmark
    rcases hmark with rfl | rfl | rfl | rfl | rfl | rfl | rfl | rfl | rfl | rfl | rfl <;> rfl
  · rw [decide_eq_false hmark]
    simp only [List.mem_cons, List.not_mem_nil, or_false, not_or] at hmark
    simp only [ofMark?, hmark, if_false, Option.isSome_none]

/-- The characters that a token may begin with, in the order in which the reader tries them. -/
theorem opensToken_eq (c : Char) :
    opensToken c =
      (isIdentStart c || (isDecimal c || (c = '"' || (c = '#' || (c = '@' ||
        (c = '-' || (ofMark? c).isSome)))))) := by
  rw [isSome_ofMark?, opensToken]
  simp only [List.mem_cons, Bool.decide_or, Bool.or_assoc]

theorem read_of_not_opensToken (closed : opensToken c = false) :
    read c rest = .error (.unexpectedCharacter c, 0) := by
  simp only [opensToken_eq, Bool.or_eq_false_iff, decide_eq_false_iff_not,
    Option.isSome_eq_false_iff, Option.isNone_iff_eq_none] at closed
  simp [read, closed]

/-- One digit is never too large a number. -/
theorem decimalValue_lt_of_isDecimal (digit : isDecimal c = true) :
    decimalValue [c] < UInt64.size := by
  have hdigit : '0' ≤ c ∧ c ≤ '9' := by
    simpa [isDecimal] using digit
  have hnine : c.toNat ≤ 57 := UInt32.le_iff_toNat_le.1 hdigit.2
  have hvalue : decimalValue [c] = c.toNat - 48 := by simp [decimalValue]
  have hsize : 57 < UInt64.size := by decide
  omega

/-- A token may begin with a character just if one can be read from some text that begins with it.
-/
theorem opensToken_iff_exists_read :
    opensToken c = true ↔ ∃ rest found, read c rest = .ok found := by
  constructor
  · intro hopens
    by_cases hstart : isIdentStart c = true
    · exact ⟨[], _, by rw [read, if_pos hstart]⟩
    by_cases hdigit : isDecimal c = true
    · have hread : read c [] = readNumber c [] := read_of_isDecimal hdigit
      exact ⟨[], _, hread.trans (if_pos (decimalValue_lt_of_isDecimal hdigit))⟩
    by_cases hquote : c = '"'
    · subst hquote
      exact ⟨['"'], _, rfl⟩
    by_cases hsharp : c = '#'
    · subst hsharp
      exact ⟨[], _, rfl⟩
    by_cases hat : c = '@'
    · subst hat
      exact ⟨['a'], _, rfl⟩
    by_cases hdash : c = '-'
    · subst hdash
      exact ⟨['>'], _, rfl⟩
    · have hmark : (ofMark? c).isSome = true := by
        simpa [opensToken_eq, hstart, hdigit, hquote, hsharp, hat, hdash] using hopens
      rcases Option.isSome_iff_exists.1 hmark with ⟨token, htoken⟩
      refine ⟨[], (token, 0), ?_⟩
      simp [read, hstart, hdigit, hquote, hsharp, hat, hdash, htoken]
  · rintro ⟨rest, found, hread⟩
    by_contra hclosed
    rw [read_of_not_opensToken (by simpa using hclosed)] at hread
    cases hread

theorem isIdentStart_of_read (fails : read c rest = .error (cause, more)) :
    isIdentStart c = false := by
  by_contra hstart
  rw [read, if_pos (by simpa using hstart)] at fails
  cases fails

end Token

section Faulty

variable
  {c : Char}
  {rest slice behind : List Char}
  {cause : Cause}
  {more : Nat}

theorem faulty_of_readNumber
    (digit : isDecimal c = true)
    (fails : Token.readNumber c rest = .error (cause, more)) :
    Faulty cause (c :: rest.take more) (rest.drop more) := by
  simp only [Token.readNumber] at fails
  split at fails
  · cases fails
  · next hlarge =>
    cases fails
    rw [take_length_takeWhile]
    have hends : ∀ d ∈ (rest.drop (rest.takeWhile isDecimal).length).head?, isDecimal d = false :=
      fun d hnext => not_of_mem_head?_drop hnext
    refine .integerOutOfRange ?_ (Nat.le_of_not_lt hlarge) hends
    intro d hmember
    rcases List.mem_cons.1 hmember with rfl | hrest
    · exact digit
    · exact List.mem_takeWhile_imp hrest

theorem faulty_of_readString (fails : Token.readString rest = .error (cause, more)) :
    Faulty cause ('"' :: rest.take more) (rest.drop more) := by
  unfold Token.readString at fails
  split at fails
  · cases fails
  · next hopen =>
    cases fails
    rw [take_length_takeWhile]
    refine .unterminatedString ?_ ?_ ?_
    · intro hbreak
      simpa using List.mem_takeWhile_imp hbreak
    · intro front later hsplit
      rcases Quoted.bodyAfter?_eq_none_iff.1 hopen front later hsplit with ⟨_, hescaped⟩ | hlast
      · cases hescaped
      · exact hlast
    · intro d hnext
      simpa using not_of_mem_head?_drop hnext

theorem faulty_of_readAtName (fails : Token.readAtName rest = .error (cause, more)) :
    Faulty cause ('@' :: rest.take more) (rest.drop more) := by
  simp only [Token.readAtName] at fails
  split at fails
  · next hnone =>
    cases fails
    refine .emptyAnnotationName ?_
    intro d hnext
    have hname : isAtNameRest d = false := not_of_mem_head?_drop (by rw [hnone]; exact hnext)
    simp only [isAtNameRest, Bool.not_eq_false', Bool.or_eq_true, decide_eq_true_eq, or_assoc]
      at hname
    exact hname
  · cases fails

theorem faulty_of_readArrow (fails : Token.readArrow rest = .error (cause, more)) :
    Faulty cause ('-' :: rest.take more) (rest.drop more) := by
  cases rest with
  | nil =>
      cases fails
      exact .loneDash
  | cons d later =>
      rw [Token.readArrow] at fails
      split at fails
      · cases fails
      · next hother =>
        cases fails
        exact .brokenArrow hother

/-- Where no token can be read there is a fault. -/
theorem faulty_of_read
    (opens : isSeparator c = false)
    (fails : Token.read c rest = .error (cause, more)) :
    Faulty cause (c :: rest.take more) (rest.drop more) := by
  have hstart := Token.isIdentStart_of_read fails
  rw [Token.read, if_neg (by simp [hstart])] at fails
  split at fails
  · next hdigit =>
    exact faulty_of_readNumber hdigit fails
  next hdigit =>
  split at fails
  · next hquote =>
    rw [hquote]
    exact faulty_of_readString fails
  next hquote =>
  split at fails
  · cases fails
  next hsharp =>
  split at fails
  · next hat =>
    rw [hat]
    exact faulty_of_readAtName fails
  next hat =>
  split at fails
  · next hdash =>
    rw [hdash]
    exact faulty_of_readArrow fails
  next hdash =>
  split at fails
  · cases fails
  · next hmark =>
    cases fails
    refine .unexpectedCharacter ?_ opens
    simp [Token.opensToken_eq, hstart, hdigit, hquote, hsharp, hat, hdash, hmark]

theorem readString_of_unclosed
    {line : List Char}
    (noBreak : '\n' ∉ line)
    (escaped : ∀ front later, line = front ++ '"' :: later → front.getLast? = some '\\')
    (ends : ∀ c ∈ behind.head?, c = '\n') :
    Token.readString (line ++ behind) = .error (.unterminatedString, line.length) := by
  have hline : (line ++ behind).takeWhile (· ≠ '\n') = line := by
    refine takeWhile_append_of_all ?_ ?_
    · intro c hmember
      simpa using ne_of_mem_of_not_mem hmember noBreak
    · intro c hnext
      simpa using ends c hnext
  have hopen : Quoted.body? (line ++ behind) = none := by
    refine Quoted.bodyAfter?_eq_none_iff.2 ?_
    intro front later hsplit
    exact Or.inr (escaped front later (hline.symm.trans hsplit))
  rw [Token.readString, hopen]
  simp only [hline]

theorem readAtName_of_nameless
    (ends : ∀ c ∈ behind.head?, c = '\t' ∨ c = '\n' ∨ c = '\r' ∨ c = ' ' ∨ c = '(') :
    Token.readAtName behind = .error (.emptyAnnotationName, 0) := by
  have hstops : ∀ c ∈ behind.head?, isAtNameRest c = false := by
    intro c hnext
    rcases ends c hnext with rfl | rfl | rfl | rfl | rfl <;> rfl
  have hnone : behind.takeWhile isAtNameRest = [] :=
    @takeWhile_append_of_all isAtNameRest [] behind (by simp) hstops
  rw [Token.readAtName, hnone]
  rfl

theorem readNumber_of_large
    {digits : List Char}
    (decimal : ∀ d ∈ digits, isDecimal d = true)
    (large : UInt64.size ≤ decimalValue (c :: digits))
    (ends : ∀ d ∈ behind.head?, isDecimal d = false) :
    Token.readNumber c (digits ++ behind) = .error (.integerOutOfRange, digits.length) := by
  rw [Token.readNumber]
  simp only [takeWhile_append_of_all decimal ends]
  rw [if_neg (Nat.not_lt_of_le large)]

/-- At a fault no token can be read, and the reader of tokens says what is wrong. -/
theorem Faulty.exists_read (faulty : Faulty cause slice behind) :
    ∃ c later,
      slice = c :: later ∧
        isSeparator c = false ∧
          Token.read c (later ++ behind) = .error (cause, later.length) := by
  cases faulty with
  | @unterminatedString line _ noBreak escaped ends =>
      exact ⟨'"', line, rfl, rfl, readString_of_unclosed noBreak escaped ends⟩
  | emptyAnnotationName ends =>
      exact ⟨'@', [], rfl, rfl, readAtName_of_nameless ends⟩
  | integerOutOfRange decimal large ends =>
      cases slice with
      | nil =>
          exact absurd large (by decide)
      | cons c digits =>
          have hdigit := decimal c List.mem_cons_self
          have hdigits := fun d hmember => decimal d (List.mem_cons_of_mem c hmember)
          have hrest : isIdentRest c = true := by simp [isIdentRest, hdigit]
          refine ⟨c, digits, rfl, Token.isSeparator_of_isIdentRest hrest, ?_⟩
          rw [Token.read_of_isDecimal hdigit]
          exact readNumber_of_large hdigits large ends
  | loneDash =>
      exact ⟨'-', [], rfl, rfl, rfl⟩
  | @brokenArrow c _ other =>
      exact ⟨'-', [c], rfl, rfl, if_neg other⟩
  | @unexpectedCharacter c _ token separator =>
      exact ⟨c, [], rfl, separator, Token.read_of_not_opensToken token⟩

/-- A fault is told apart from the failures of the grammar. -/
theorem Faulty.isLexical (faulty : Faulty cause slice behind) : cause.isLexical = true := by
  cases faulty <;> rfl

/-- There is at most one fault at a place. -/
theorem Faulty.unique
    {other : Cause}
    {stretch later : List Char}
    (faulty : Faulty cause slice behind)
    (also : Faulty other stretch later)
    (same : stretch ++ later = slice ++ behind) :
    other = cause ∧ stretch = slice := by
  rcases faulty.exists_read with ⟨c, inner, rfl, _, hread⟩
  rcases also.exists_read with ⟨d, innerToo, rfl, _, hreadToo⟩
  rw [List.cons_append, List.cons_append, List.cons.injEq] at same
  rcases same with ⟨rfl, hrest⟩
  rw [hrest, hread, Except.error.injEq, Prod.mk.injEq] at hreadToo
  rcases hreadToo with ⟨rfl, hlength⟩
  exact ⟨rfl, congrArg (d :: ·) (List.append_inj_left hrest hlength.symm)⟩

/-- A token that goes on if it is cut off before a text: a comment or the name of an annotation goes
on with any fault, a word or a number with digits. -/
def Token.Absorbs (token : Token) (behind : List Char) : Prop :=
  match token with
  | comment _ => True
  | atName _ => True
  | ident _ => ∃ c ∈ behind.head?, isDecimal c = true
  | number _ => ∃ c ∈ behind.head?, isDecimal c = true
  | _ => False

/-- Before a fault a token ends, if it does not absorb the fault. -/
theorem Faulty.endsBefore
    {token : Token}
    (faulty : Faulty cause slice behind)
    (apart : ¬ token.Absorbs (slice ++ behind)) :
    token.EndsBefore (slice ++ behind) := by
  rcases faulty.exists_read with ⟨c, later, rfl, _, hread⟩
  cases token with
  | ident name =>
      rintro d ⟨⟩
      have hdigit : isDecimal c ≠ true := fun hdigit => apart ⟨c, rfl, hdigit⟩
      simp [isIdentRest, Token.isIdentStart_of_read hread, hdigit]
  | number value =>
      rintro d ⟨⟩
      exact Bool.eq_false_iff.2 fun hdigit => apart ⟨c, rfl, hdigit⟩
  | comment text =>
      exact absurd trivial apart
  | atName name =>
      exact absurd trivial apart
  | _ =>
      trivial

end Faulty

end InterfaceSchema
