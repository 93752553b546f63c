import InterfaceSchema.Token.Reading
import Mathlib.Data.List.TakeWhile

/-!
# Written tokens

* `Token.written`: a token as it stands in a text.
* `Token.Writable`: the tokens that a text can hold. `Token.writable_of_read` says that no others
  are read.
* `Token.Reading`: what the reader of tokens may find, one rule for each kind of token.
* `Token.read_written`: a written token is read back, if it is followed by a space or by nothing.
-/

namespace InterfaceSchema

/-- A run of characters of one kind ends before a character of another kind. -/
theorem takeWhile_append_of_all
    {p : Char → Bool}
    {run behind : List Char}
    (kind : ∀ c ∈ run, p c = true)
    (stops : ∀ c ∈ behind.head?, p c = false) :
    (run ++ behind).takeWhile p = run := by
  rw [List.takeWhile_append_of_pos kind]
  cases behind with
  | nil =>
      simp
  | cons c later =>
      rw [List.takeWhile_cons_of_neg (by simp [stops c rfl]), List.append_nil]

/-! ## Texts between quotation marks -/

namespace Quoted

theorem mem_of_mem_decode
    {text : List Char}
    {c : Char}
    (member : c ∈ decode text) :
    c ∈ text := by
  induction text using decode.induct with
  | case1 =>
      exact member
  | case2 rest ih =>
      rw [decode, List.mem_cons] at member
      rcases member with rfl | hrest
      · simp
      · simp [ih hrest]
  | case3 first rest plain ih =>
      rw [decode, List.mem_cons] at member
      · rcases member with rfl | hrest
        · simp
        · simp [ih hrest]
      · exact plain

/-- A backslash that is left out stands before a quotation mark, so the last character stays. -/
theorem getLast?_decode (text : List Char) : (decode text).getLast? = text.getLast? := by
  induction text using decode.induct with
  | case1 =>
      rfl
  | case2 rest ih =>
      simp [decode, List.getLast?_cons, ih]
  | case3 first rest plain ih =>
      rw [decode]
      · simp [List.getLast?_cons, ih]
      · exact plain

/-- What is found between quotation marks stays in the line and does not end with a backslash. -/
theorem of_bodyAfter?
    {escaped : Bool}
    {text body : List Char}
    (found : bodyAfter? escaped text = some body) :
    '\n' ∉ body ∧ (body = [] → escaped = false) ∧ body.getLast? ≠ some '\\' := by
  induction text generalizing escaped body with
  | nil =>
      simp [bodyAfter?] at found
  | cons c rest ih =>
      rw [bodyAfter?] at found
      split at found
      · simp at found
      · next hbreak =>
        split at found
        · next hclose =>
          cases found
          exact ⟨by simp, fun _ => hclose.2, by simp⟩
        · rcases Option.map_eq_some_iff.1 found with ⟨later, hlater, rfl⟩
          rcases ih hlater with ⟨hnoBreak, hempty, hlast⟩
          refine ⟨?_, by simp, ?_⟩
          · simp [hnoBreak, Ne.symm hbreak]
          · cases later with
            | nil =>
                simpa using hempty rfl
            | cons d more =>
                rw [List.getLast?_cons_cons]
                exact hlast

/-- The written form of a text is found between quotation marks. -/
theorem bodyAfter?_encode
    {escaped : Bool}
    {text : List Char}
    (noBreak : '\n' ∉ text)
    (plain : text = [] → escaped = false)
    (closed : text.getLast? ≠ some '\\')
    (rest : List Char) :
    bodyAfter? escaped (encode text ++ '"' :: rest) = some (encode text) := by
  induction text generalizing escaped with
  | nil =>
      simp [encode, bodyAfter?, plain rfl]
  | cons c more ih =>
      rw [List.mem_cons, not_or] at noBreak
      have hclosed : more.getLast? ≠ some '\\' := by
        cases more with
        | nil =>
            simp
        | cons d later =>
            rw [List.getLast?_cons_cons] at closed
            exact closed
      by_cases hquote : c = '"'
      · subst hquote
        have hmore := @ih false noBreak.2 (fun _ => rfl) hclosed
        simp [encode, bodyAfter?, hmore]
      · have hplain : more = [] → (c == '\\') = false := by
          rintro rfl
          simpa using closed
        have hmore := ih noBreak.2 hplain hclosed
        simp [encode, bodyAfter?, hquote, Ne.symm noBreak.1, hmore]

end Quoted

/-! ## Texts without blanks at their ends -/

theorem trimEnd_append_singleton
    {c : Char}
    (blank : isBlank c = true)
    (text : List Char) :
    trimEnd (text ++ [c]) = trimEnd text := by
  induction text with
  | nil =>
      simp [trimEnd, blank]
  | cons d rest ih =>
      rw [List.cons_append, trimEnd, trimEnd, ih]

theorem trimEnd_trimEnd (text : List Char) : trimEnd (trimEnd text) = trimEnd text := by
  induction text with
  | nil =>
      rfl
  | cons c rest ih =>
      rw [trimEnd]
      split
      · by_cases hblank : isBlank c = true
        · simp [hblank, trimEnd]
        · simp [hblank, trimEnd]
      · next d kept hrest =>
        rw [hrest] at ih
        rw [trimEnd, ih]

/-- The characters that stay are the first ones. -/
theorem trimEnd_isPrefix_self (text : List Char) : trimEnd text <+: text := by
  induction text with
  | nil =>
      exact List.prefix_refl []
  | cons c rest ih =>
      rw [trimEnd]
      split
      · split
        · exact List.nil_prefix
        · exact ⟨rest, rfl⟩
      · next d kept hrest =>
        rw [hrest] at ih
        exact List.cons_prefix_cons.2 ⟨rfl, ih⟩

theorem trim_cons_of_isBlank
    {c : Char}
    (blank : isBlank c = true)
    (text : List Char) :
    trim (c :: text) = trim text := by
  unfold trim
  rw [List.dropWhile_cons_of_pos blank]

theorem trim_append_singleton
    {c : Char}
    (blank : isBlank c = true)
    (text : List Char) :
    trim (text ++ [c]) = trim text := by
  unfold trim
  rw [List.dropWhile_append]
  split
  · next hempty =>
    rw [List.isEmpty_iff] at hempty
    simp [hempty, blank]
  · exact trimEnd_append_singleton blank _

/-- A trimmed text has no blanks to trim. -/
theorem trim_trim (text : List Char) : trim (trim text) = trim text := by
  have hhead : (trim text).dropWhile isBlank = trim text := by
    cases hkept : trim text with
    | nil =>
        rfl
    | cons c kept =>
        have hprefix : c :: kept <+: text.dropWhile isBlank := by
          rw [← hkept]
          exact trimEnd_isPrefix_self _
        rcases hprefix with ⟨rest, hrest⟩
        have hplain : ¬ isBlank c = true := by
          have hfirst := List.head?_dropWhile_not isBlank text
          rw [← hrest] at hfirst
          simpa using hfirst
        rw [List.dropWhile_cons_of_neg hplain]
  calc
    trim (trim text) = trimEnd ((trim text).dropWhile isBlank) := rfl
    _ = trimEnd (trim text) := by rw [hhead]
    _ = trim text := trimEnd_trimEnd _

theorem mem_of_mem_trim
    {text : List Char}
    {c : Char}
    (member : c ∈ trim text) :
    c ∈ text :=
  (List.dropWhile_sublist isBlank).subset ((trimEnd_isPrefix_self _).subset member)

/-! ## Numbers -/

/-- The decimal form of a number spells the number. -/
theorem decimalValue_toDigits (value : Nat) : decimalValue (Nat.toDigits 10 value) = value := by
  have hvalue := Nat.ofDigitChars_ten_toDigits (n := value)
  rw [Nat.ofDigitChars_eq_foldl] at hvalue
  exact hvalue

/-! ## Tokens -/

namespace Token

/-- A token as it stands in a text. -/
def written : Token → String
  | newline => "\n"
  | token => token.display

/-- The tokens that a text can hold. -/
def Writable : Token → Prop
  | ident name =>
    ∃ first more,
      name.toList = first :: more ∧
        isIdentStart first = true ∧ ∀ c ∈ more, isIdentRest c = true
  | stringLiteral value => '\n' ∉ value.toList ∧ value.toList.getLast? ≠ some '\\'
  | comment text => '\n' ∉ text.toList ∧ trim text.toList = text.toList
  | atName name => name.toList ≠ [] ∧ ∀ c ∈ name.toList, isAtNameRest c = true
  | eof => False
  | _ => True

/-- What the reader of tokens may find at a character and the text after it. -/
inductive Reading (c : Char) (rest : List Char) : Token → Nat → Prop
  | ident (start : isIdentStart c = true) :
      Reading c rest (.ident (String.ofList (c :: rest.takeWhile isIdentRest)))
        (rest.takeWhile isIdentRest).length
  | number
      (digit : isDecimal c = true)
      (small : decimalValue (c :: rest.takeWhile isDecimal) < UInt64.size) :
      Reading c rest
        (.number (UInt64.ofNat (decimalValue (c :: rest.takeWhile isDecimal))))
        (rest.takeWhile isDecimal).length
  | stringLiteral
      {body : List Char}
      (opens : c = '"')
      (found : Quoted.body? rest = some body) :
      Reading c rest (.stringLiteral (String.ofList (Quoted.decode body))) (body.length + 1)
  | comment (opens : c = '#') :
      Reading c rest (.comment (String.ofList (trim (rest.takeWhile (· ≠ '\n')))))
        (rest.takeWhile (· ≠ '\n')).length
  | atName (opens : c = '@') (named : rest.takeWhile isAtNameRest ≠ []) :
      Reading c rest (.atName (String.ofList (rest.takeWhile isAtNameRest)))
        (rest.takeWhile isAtNameRest).length
  | arrow {later : List Char} (opens : c = '-') (closes : rest = '>' :: later) :
      Reading c rest .arrow 1
  | mark {token : Token} (stands : ofMark? c = some token) : Reading c rest token 0

theorem reading_of_read
    {c : Char}
    {rest : List Char}
    {token : Token}
    {more : Nat}
    (succeeds : read c rest = .ok (token, more)) :
    Reading c rest token more := by
  unfold read at succeeds
  split at succeeds
  · next hstart =>
    cases succeeds
    exact .ident hstart
  split at succeeds
  · next hdigit =>
    simp only [readNumber] at succeeds
    split at succeeds
    · next hsmall =>
      cases succeeds
      exact .number hdigit hsmall
    · cases succeeds
  split at succeeds
  · next hquote =>
    unfold readString at succeeds
    split at succeeds
    · next body hbody =>
      cases succeeds
      exact .stringLiteral hquote hbody
    · cases succeeds
  split at succeeds
  · next hsharp =>
    cases succeeds
    exact .comment hsharp
  split at succeeds
  · next hat =>
    simp only [readAtName] at succeeds
    split at succeeds
    · cases succeeds
    · next hnamed =>
      cases succeeds
      exact .atName hat hnamed
  split at succeeds
  · next hdash =>
    unfold readArrow at succeeds
    split at succeeds
    · cases succeeds
    · next d later =>
      split at succeeds
      · next hclose =>
        cases succeeds
        exact .arrow hdash (by rw [hclose])
      · cases succeeds
  split at succeeds
  · next found hmark =>
    cases succeeds
    exact .mark hmark
  · cases succeeds

/-- Whether a token is a mark of one character. -/
def isMark : Token → Bool
  | leftParen | rightParen | leftAngle | rightAngle | leftBrace | rightBrace => true
  | comma | dot | equals | semicolon | newline => true
  | _ => false

theorem ite_isMark
    {condition : Prop}
    [Decidable condition]
    {mark token : Token}
    {otherwise : Option Token}
    (first : mark.isMark = true)
    (later : otherwise = some token → token.isMark = true)
    (stands : (if condition then some mark else otherwise) = some token) :
    token.isMark = true := by
  by_cases hcondition : condition
  · rw [if_pos hcondition] at stands
    cases stands
    exact first
  · rw [if_neg hcondition] at stands
    exact later stands

theorem isMark_of_ofMark?
    {c : Char}
    {token : Token}
    (stands : ofMark? c = some token) :
    token.isMark = true := by
  unfold ofMark? at stands
  revert stands
  repeat refine ite_isMark rfl ?_
  intro hnone
  cases hnone

theorem writable_of_isMark
    {token : Token}
    (mark : token.isMark = true) :
    token.Writable := by
  cases token <;> trivial

/-- Only writable tokens are read. -/
theorem writable_of_read
    {c : Char}
    {rest : List Char}
    {token : Token}
    {more : Nat}
    (succeeds : read c rest = .ok (token, more)) :
    token.Writable := by
  cases reading_of_read succeeds with
  | ident start =>
      refine ⟨c, rest.takeWhile isIdentRest, by simp, start, ?_⟩
      exact fun d hmember => (List.mem_takeWhile_imp hmember)
  | number digit small =>
      trivial
  | stringLiteral opens found =>
      rcases Quoted.of_bodyAfter? found with ⟨hnoBreak, _, hlast⟩
      constructor
      · rw [String.toList_ofList]
        exact fun hmember => hnoBreak (Quoted.mem_of_mem_decode hmember)
      · rw [String.toList_ofList, Quoted.getLast?_decode]
        exact hlast
  | comment opens =>
      constructor
      · rw [String.toList_ofList]
        intro hmember
        have hline := List.mem_takeWhile_imp (mem_of_mem_trim hmember)
        simp at hline
      · rw [String.toList_ofList, trim_trim]
  | atName opens named =>
      constructor
      · rw [String.toList_ofList]
        exact named
      · rw [String.toList_ofList]
        exact fun d hmember => List.mem_takeWhile_imp hmember
  | arrow opens closes =>
      trivial
  | mark stands =>
      exact writable_of_isMark (isMark_of_ofMark? stands)

/-- A name holds only characters that may continue an identifier. -/
theorem not_mem_of_writable
    {name : String}
    {c : Char}
    (writable : (ident name).Writable)
    (other : isIdentRest c = false) :
    c ∉ name.toList := by
  rcases writable with ⟨first, more, hname, hstart, hmore⟩
  rw [hname]
  intro hmember
  rcases List.mem_cons.1 hmember with rfl | hrest
  · rw [isIdentRest, hstart] at other
    cases other
  · rw [hmore c hrest] at other
    cases other

/-! ## Reading what is written -/

/-- Nothing stands behind a written token, or a space; behind a comment the line ends then. -/
def StopsBefore (token : Token) (suffix : List Char) : Prop :=
  suffix = [] ∨
    ∃ later,
      suffix = ' ' :: later ∧ ∀ text, token = comment text → ∃ more, later = '\n' :: more

section Written

variable {token : Token} {suffix : List Char}

/-- A run of characters of one kind ends where the written token ends. -/
theorem StopsBefore.takeWhile_append
    (stops : token.StopsBefore suffix)
    {p : Char → Bool}
    (space : p ' ' = false)
    {run : List Char}
    (kind : ∀ c ∈ run, p c = true) :
    (run ++ suffix).takeWhile p = run := by
  refine takeWhile_append_of_all kind ?_
  rcases stops with rfl | ⟨later, rfl, _⟩
  · rintro c ⟨⟩
  · rintro c ⟨⟩
    exact space

/-- What is left of a text behind a stretch of the given length, apart from one space. -/
def Leaves (text suffix : List Char) (length : Nat) : Prop :=
  text.drop length = suffix ∨ ' ' :: text.drop length = suffix

theorem leaves_append (text suffix : List Char) : Leaves (text ++ suffix) suffix text.length :=
  Or.inl List.drop_left

theorem read_ident
    {first : Char}
    {more : List Char}
    (start : isIdentStart first = true)
    (rest : ∀ c ∈ more, isIdentRest c = true)
    (stops : token.StopsBefore suffix) :
    read first (more ++ suffix) =
      .ok (ident (String.ofList (first :: more)), more.length) := by
  unfold read
  rw [if_pos start]
  simp only [readIdent, stops.takeWhile_append (by decide) rest]

/-- A digit opens no identifier. -/
theorem isIdentStart_of_isDecimal
    {c : Char}
    (digit : isDecimal c = true) :
    isIdentStart c = false := by
  have hdigit : '0' ≤ c ∧ c ≤ '9' := by
    simpa [isDecimal] using digit
  have hnine : c.toNat ≤ 57 := UInt32.le_iff_toNat_le.1 hdigit.2
  have hbelow : ∀ letter : Char, 57 < letter.toNat → ¬ letter ≤ c := by
    intro letter hletter hle
    have hcode : letter.toNat ≤ c.toNat := UInt32.le_iff_toNat_le.1 hle
    omega
  have hunderscore : c ≠ '_' := by
    rintro rfl
    exact absurd hnine (by decide)
  simp [isIdentStart, hbelow 'A' (by decide), hbelow 'a' (by decide), hunderscore]

theorem read_number
    (value : UInt64)
    (stops : token.StopsBefore suffix) :
    ∃ first more,
      (number value).written.toList = first :: more ∧
        isDecimal first = true ∧
        read first (more ++ suffix) = .ok (number value, more.length) := by
  have hwritten : (number value).written.toList = Nat.toDigits 10 value.toNat := by
    simp [written, display]
  have hdigits : ∀ c ∈ Nat.toDigits 10 value.toNat, isDecimal c = true := by
    intro c hmember
    exact Nat.isDigit_of_mem_toDigits (by decide) (by decide) hmember
  have hvalue := decimalValue_toDigits value.toNat
  rw [hwritten]
  cases hform : Nat.toDigits 10 value.toNat with
  | nil =>
      exact absurd hform Nat.toDigits_ne_nil
  | cons first more =>
      rw [hform] at hdigits hvalue
      have hfirst := hdigits first List.mem_cons_self
      have hmore := fun c hmember => hdigits c (List.mem_cons_of_mem first hmember)
      refine ⟨first, more, rfl, hfirst, ?_⟩
      unfold read
      rw [isIdentStart_of_isDecimal hfirst]
      simp only [Bool.false_eq_true, ↓reduceIte, hfirst, readNumber,
        stops.takeWhile_append (by decide) hmore, hvalue, value.toNat_lt_size]
      simp

theorem read_stringLiteral
    {value : String}
    (writable : (stringLiteral value).Writable)
    (suffix : List Char) :
    read '"' (Quoted.encode value.toList ++ '"' :: suffix) =
      .ok (stringLiteral value, (Quoted.encode value.toList).length + 1) := by
  have hbody :
      Quoted.body? (Quoted.encode value.toList ++ '"' :: suffix) =
        some (Quoted.encode value.toList) :=
    Quoted.bodyAfter?_encode writable.1 (fun _ => rfl) writable.2 suffix
  have hread :
      read '"' (Quoted.encode value.toList ++ '"' :: suffix) =
        readString (Quoted.encode value.toList ++ '"' :: suffix) :=
    rfl
  rw [hread, readString, hbody]
  simp

/-- The blank before a comment's text is trimmed, and so is the space behind it. -/
theorem read_comment
    {text : String}
    (writable : (comment text).Writable)
    (stops : (comment text).StopsBefore suffix) :
    ∃ more,
      read '#' (' ' :: (text.toList ++ suffix)) = .ok (comment text, more) ∧
        Leaves (' ' :: (text.toList ++ suffix)) suffix more := by
  have hline : ∀ c ∈ ' ' :: text.toList, (decide (c ≠ '\n')) = true := by
    intro c hmember
    rw [decide_eq_true_eq]
    rintro rfl
    rcases List.mem_cons.1 hmember with hspace | htext
    · exact absurd hspace (by decide)
    · exact writable.1 htext
  have hread :
      read '#' (' ' :: (text.toList ++ suffix)) =
        .ok (readComment (' ' :: (text.toList ++ suffix))) :=
    rfl
  have htrim : trim (' ' :: text.toList) = text.toList := by
    rw [trim_cons_of_isBlank (by decide)]
    exact writable.2
  rcases stops with rfl | ⟨later, rfl, hbreak⟩
  · refine ⟨(' ' :: text.toList).length, ?_, ?_⟩
    · have hrun : (' ' :: text.toList).takeWhile (· ≠ '\n') = ' ' :: text.toList :=
        List.takeWhile_eq_self_iff.2 hline
      rw [hread, List.append_nil]
      simp only [readComment, hrun, htrim]
      simp
    · exact leaves_append (' ' :: text.toList) []
  · rcases hbreak text rfl with ⟨more, rfl⟩
    have hspaced : ∀ c ∈ (' ' :: text.toList) ++ [' '], (decide (c ≠ '\n')) = true := by
      intro c hmember
      rcases List.mem_append.1 hmember with htext | hspace
      · exact hline c htext
      · rw [List.mem_singleton.1 hspace]
        decide
    refine ⟨((' ' :: text.toList) ++ [' ']).length, ?_, ?_⟩
    · have hrun :
          ((' ' :: text.toList) ++ [' '] ++ '\n' :: more).takeWhile (· ≠ '\n') =
            (' ' :: text.toList) ++ [' '] := by
        rw [List.takeWhile_append_of_pos hspaced, List.takeWhile_cons_of_neg (by simp),
          List.append_nil]
      have hsame :
          ' ' :: (text.toList ++ ' ' :: '\n' :: more) =
            (' ' :: text.toList) ++ [' '] ++ '\n' :: more := by
        simp
      rw [hread, hsame]
      simp only [readComment, hrun]
      rw [trim_append_singleton (by decide), htrim]
      simp
    · right
      simp

theorem read_atName
    {name : String}
    (writable : (atName name).Writable)
    (stops : token.StopsBefore suffix) :
    read '@' (name.toList ++ suffix) = .ok (atName name, name.toList.length) := by
  have hread : read '@' (name.toList ++ suffix) = readAtName (name.toList ++ suffix) := rfl
  rw [hread]
  simp only [readAtName, stops.takeWhile_append (by decide) writable.2, if_neg writable.1]
  simp

/-- No identifier and no number begins with a separator. -/
theorem isSeparator_of_isIdentRest
    {c : Char}
    (rest : isIdentRest c = true) :
    isSeparator c = false := by
  by_contra hseparator
  simp only [isSeparator, Bool.or_eq_true, decide_eq_true_eq, Bool.not_eq_false] at hseparator
  rcases hseparator with (rfl | rfl) | rfl
  · exact absurd rest (by decide)
  · exact absurd rest (by decide)
  · exact absurd rest (by decide)

/-- A written token is read back. What is left is what stood behind it; a comment takes the space
behind it too. -/
theorem read_written
    (writable : token.Writable)
    (stops : token.StopsBefore suffix) :
    ∃ first rest more,
      token.written.toList = first :: rest ∧
        isSeparator first = false ∧
        read first (rest ++ suffix) = .ok (token, more) ∧
        Leaves (rest ++ suffix) suffix more := by
  cases token with
  | ident name =>
      rcases writable with ⟨first, more, hname, hstart, hrest⟩
      have hfirst : isIdentRest first = true := by
        simp [isIdentRest, hstart]
      refine
        ⟨first, more, more.length, hname, isSeparator_of_isIdentRest hfirst, ?_,
          leaves_append more suffix⟩
      rw [read_ident hstart hrest stops, ← hname, String.ofList_toList]
  | number value =>
      rcases read_number value stops with ⟨first, more, hwritten, hdigit, hread⟩
      have hfirst : isIdentRest first = true := by
        simp [isIdentRest, hdigit]
      exact
        ⟨first, more, more.length, hwritten, isSeparator_of_isIdentRest hfirst, hread,
          leaves_append more suffix⟩
  | stringLiteral value =>
      have hread := read_stringLiteral writable suffix
      refine
        ⟨'"', Quoted.encode value.toList ++ ['"'], _, by simp [written, display], by decide, ?_,
          leaves_append _ suffix⟩
      rw [List.append_assoc, List.length_append]
      exact hread
  | comment text =>
      rcases read_comment writable stops with ⟨more, hread, hleaves⟩
      exact
        ⟨'#', ' ' :: text.toList, more, by simp [written, display], by decide, hread, hleaves⟩
  | atName name =>
      exact
        ⟨'@', name.toList, _, by simp [written, display], by decide, read_atName writable stops,
          leaves_append name.toList suffix⟩
  | arrow =>
      exact ⟨'-', ['>'], 1, rfl, by decide, rfl, leaves_append ['>'] suffix⟩
  | leftParen =>
      exact ⟨'(', [], 0, rfl, by decide, rfl, leaves_append [] suffix⟩
  | rightParen =>
      exact ⟨')', [], 0, rfl, by decide, rfl, leaves_append [] suffix⟩
  | leftAngle =>
      exact ⟨'<', [], 0, rfl, by decide, rfl, leaves_append [] suffix⟩
  | rightAngle =>
      exact ⟨'>', [], 0, rfl, by decide, rfl, leaves_append [] suffix⟩
  | leftBrace =>
      exact ⟨'\x7b', [], 0, rfl, by decide, rfl, leaves_append [] suffix⟩
  | rightBrace =>
      exact ⟨'\x7d', [], 0, rfl, by decide, rfl, leaves_append [] suffix⟩
  | comma =>
      exact ⟨',', [], 0, rfl, by decide, rfl, leaves_append [] suffix⟩
  | dot =>
      exact ⟨'.', [], 0, rfl, by decide, rfl, leaves_append [] suffix⟩
  | equals =>
      exact ⟨'=', [], 0, rfl, by decide, rfl, leaves_append [] suffix⟩
  | semicolon =>
      exact ⟨';', [], 0, rfl, by decide, rfl, leaves_append [] suffix⟩
  | newline =>
      exact ⟨'\n', [], 0, rfl, by decide, rfl, leaves_append [] suffix⟩
  | eof =>
      exact absurd writable id

end Written

end Token

end InterfaceSchema
