import InterfaceSchema.Proofs.Token.Written

/-!
# The characters of a token

The reader of tokens says how many characters a token takes. It depends on no others, but takes as
many as it can.

* `Token.read_take`: the characters of a token are read as the same token when nothing follows.
* `Token.EndsBefore`, `Token.endsBefore_of_read`: what does not follow a token.
* `Token.read_append`: the characters of a token are read as the same token before any text that
  may follow it.
-/

namespace InterfaceSchema

section Runs

variable {p : Char → Bool} {text : List Char}

theorem take_length_takeWhile : text.take (text.takeWhile p).length = text.takeWhile p :=
  (List.prefix_iff_eq_take.1 (List.takeWhile_prefix p)).symm

theorem length_takeWhile_le : (text.takeWhile p).length ≤ text.length :=
  (List.takeWhile_sublist p).length_le

theorem drop_length_takeWhile : text.drop (text.takeWhile p).length = text.dropWhile p := by
  conv =>
    lhs
    arg 2
    rw [← List.takeWhile_append_dropWhile (p := p) (l := text)]
  exact List.drop_left

/-- A run ends where the next character is of another kind. -/
theorem not_of_mem_head?_drop
    {c : Char}
    (next : c ∈ (text.drop (text.takeWhile p).length).head?) :
    p c = false := by
  rw [drop_length_takeWhile] at next
  have hfirst := List.head?_dropWhile_not p text
  rw [Option.mem_def.1 next] at hfirst
  exact hfirst

/-- A run that ends with the text ends at the same place before a character of another kind. -/
theorem takeWhile_append_of_stops
    {behind : List Char}
    (whole : (text.takeWhile p).length = text.length)
    (stops : ∀ c ∈ behind.head?, p c = false) :
    (text ++ behind).takeWhile p = text.takeWhile p := by
  have hall : text.takeWhile p = text := (List.takeWhile_prefix p).eq_of_length whole
  rw [hall]
  exact takeWhile_append_of_all (List.takeWhile_eq_self_iff.1 hall) stops

end Runs

/-- The text between quotation marks stands before the mark that ends it, whatever follows. -/
theorem Quoted.eq_append_of_bodyAfter?
    {escaped : Bool}
    {text body : List Char}
    (found : bodyAfter? escaped text = some body) :
    ∃ later,
      text = body ++ '"' :: later ∧
        ∀ other, bodyAfter? escaped (body ++ '"' :: other) = some body := by
  induction text generalizing escaped body with
  | nil =>
      simp [bodyAfter?] at found
  | cons c rest ih =>
      rw [bodyAfter?] at found
      split at found
      · simp at found
      · next hbreak =>
        split at found
        · next hclose =>
          cases found
          refine ⟨rest, by rw [hclose.1]; rfl, ?_⟩
          intro other
          simp [bodyAfter?, hclose.2]
        · next hopen =>
          rcases Option.map_eq_some_iff.1 found with ⟨inner, hinner, rfl⟩
          rcases ih hinner with ⟨later, rfl, hother⟩
          refine ⟨later, rfl, ?_⟩
          intro other
          rw [List.cons_append, bodyAfter?, if_neg hbreak, if_neg hopen, hother]
          rfl

namespace Token

variable {c : Char} {rest : List Char} {token : Token} {more : Nat}

/-! ## A token alone -/

theorem readNumber_take (succeeds : readNumber c rest = .ok (token, more)) :
    more ≤ rest.length ∧ readNumber c (rest.take more) = .ok (token, more) := by
  have hmore : more = (rest.takeWhile isDecimal).length := by
    simp only [readNumber] at succeeds
    split at succeeds
    · cases succeeds
      rfl
    · cases succeeds
  subst hmore
  refine ⟨length_takeWhile_le, ?_⟩
  simp only [readNumber, take_length_takeWhile, List.takeWhile_idem]
  exact succeeds

theorem readString_take (succeeds : readString rest = .ok (token, more)) :
    more ≤ rest.length ∧ readString (rest.take more) = .ok (token, more) := by
  unfold readString at succeeds
  split at succeeds
  · next body hbody =>
    cases succeeds
    rcases Quoted.eq_append_of_bodyAfter? hbody with ⟨later, rfl, hother⟩
    have hslice : (body ++ '"' :: later).take (body.length + 1) = body ++ '"' :: [] := by
      rw [List.append_cons]
      exact List.take_left' (by simp)
    have halone : Quoted.body? (body ++ '"' :: []) = some body := hother []
    refine ⟨by simp, ?_⟩
    rw [hslice, readString, halone]
  · cases succeeds

theorem readAtName_take (succeeds : readAtName rest = .ok (token, more)) :
    more ≤ rest.length ∧ readAtName (rest.take more) = .ok (token, more) := by
  have hmore : more = (rest.takeWhile isAtNameRest).length := by
    simp only [readAtName] at succeeds
    split at succeeds
    · cases succeeds
    · cases succeeds
      rfl
  subst hmore
  refine ⟨length_takeWhile_le, ?_⟩
  simp only [readAtName, take_length_takeWhile, List.takeWhile_idem]
  exact succeeds

theorem readArrow_take (succeeds : readArrow rest = .ok (token, more)) :
    more ≤ rest.length ∧ readArrow (rest.take more) = .ok (token, more) := by
  cases rest with
  | nil =>
      cases succeeds
  | cons d later =>
      rw [readArrow] at succeeds
      split at succeeds
      · next hclose =>
        cases succeeds
        refine ⟨by simp, ?_⟩
        rw [List.take_succ_cons, readArrow, if_pos hclose]
      · cases succeeds

/-- A token is read from its own characters alone. -/
theorem read_take (succeeds : read c rest = .ok (token, more)) :
    more ≤ rest.length ∧ read c (rest.take more) = .ok (token, more) := by
  unfold read at succeeds ⊢
  split at succeeds
  · next hstart =>
    cases succeeds
    refine ⟨length_takeWhile_le, ?_⟩
    rw [if_pos hstart]
    simp only [readIdent, take_length_takeWhile, List.takeWhile_idem]
  next hstart =>
  rw [if_neg hstart]
  split at succeeds
  · next hdigit =>
    rw [if_pos hdigit]
    exact readNumber_take succeeds
  next hdigit =>
  rw [if_neg hdigit]
  split at succeeds
  · next hquote =>
    rw [if_pos hquote]
    exact readString_take succeeds
  next hquote =>
  rw [if_neg hquote]
  split at succeeds
  · next hsharp =>
    cases succeeds
    refine ⟨length_takeWhile_le, ?_⟩
    rw [if_pos hsharp]
    simp only [readComment, take_length_takeWhile, List.takeWhile_idem]
  next hsharp =>
  rw [if_neg hsharp]
  split at succeeds
  · next hat =>
    rw [if_pos hat]
    exact readAtName_take succeeds
  next hat =>
  rw [if_neg hat]
  split at succeeds
  · next hdash =>
    rw [if_pos hdash]
    exact readArrow_take succeeds
  next hdash =>
  rw [if_neg hdash]
  split at succeeds
  · next found hmark =>
    cases succeeds
    exact ⟨Nat.zero_le _, rfl⟩
  · cases succeeds

/-! ## The end of a token -/

/-- A token is not followed by a character that would belong to it. -/
def EndsBefore (token : Token) (behind : List Char) : Prop :=
  match token with
  | ident _ => ∀ c ∈ behind.head?, isIdentRest c = false
  | number _ => ∀ c ∈ behind.head?, isDecimal c = false
  | atName _ => ∀ c ∈ behind.head?, c = '\t' ∨ c = '\n' ∨ c = '\r' ∨ c = ' ' ∨ c = '('
  | comment _ => ∀ c ∈ behind.head?, c = '\n'
  | _ => True

theorem endsBefore_of_isMark
    (mark : token.isMark = true)
    (behind : List Char) :
    token.EndsBefore behind := by
  cases token <;> trivial

theorem endsBefore_nil (token : Token) : token.EndsBefore [] := by
  cases token <;> simp [EndsBefore]

/-- What may follow a token depends on its first character only. -/
theorem EndsBefore.of_head?
    {behind other : List Char}
    (ends : token.EndsBefore behind)
    (within : ∀ c ∈ other.head?, c ∈ behind.head?) :
    token.EndsBefore other := by
  cases token with
  | ident name =>
      exact fun c hfirst => ends c (within c hfirst)
  | number value =>
      exact fun c hfirst => ends c (within c hfirst)
  | atName name =>
      exact fun c hfirst => ends c (within c hfirst)
  | comment text =>
      exact fun c hfirst => ends c (within c hfirst)
  | _ =>
      trivial

/-- What does not follow a token does not follow it either where less of the text is left. -/
theorem EndsBefore.of_append
    {slice behind : List Char}
    (ends : token.EndsBefore (slice ++ behind)) :
    token.EndsBefore slice := by
  refine ends.of_head? ?_
  intro c hfirst
  cases slice with
  | nil =>
      cases hfirst
  | cons d later =>
      exact hfirst

/-- A token is as long as it can be. -/
theorem endsBefore_of_read (succeeds : read c rest = .ok (token, more)) :
    token.EndsBefore (rest.drop more) := by
  cases reading_of_read succeeds with
  | ident start =>
      exact fun d hnext => not_of_mem_head?_drop hnext
  | number digit small =>
      exact fun d hnext => not_of_mem_head?_drop hnext
  | stringLiteral opens found =>
      trivial
  | comment opens =>
      intro d hnext
      have hline := not_of_mem_head?_drop hnext
      simpa using hline
  | atName opens named =>
      intro d hnext
      have hname := not_of_mem_head?_drop hnext
      simp only [isAtNameRest, Bool.not_eq_false', Bool.or_eq_true, decide_eq_true_eq, or_assoc]
        at hname
      exact hname
  | arrow opens closes =>
      trivial
  | mark stands =>
      exact endsBefore_of_isMark (isMark_of_ofMark? stands) _

/-! ## A token before another text -/

section Append

variable {slice behind : List Char}

theorem readNumber_append
    (succeeds : readNumber c slice = .ok (token, slice.length))
    (ends : token.EndsBefore behind) :
    readNumber c (slice ++ behind) = .ok (token, slice.length) := by
  simp only [readNumber] at succeeds ⊢
  split at succeeds
  · next hsmall =>
    simp only [Except.ok.injEq, Prod.mk.injEq] at succeeds
    rcases succeeds with ⟨rfl, hwhole⟩
    rw [takeWhile_append_of_stops hwhole ends, if_pos hsmall, hwhole]
  · cases succeeds

theorem readString_append
    (succeeds : readString slice = .ok (token, slice.length)) :
    readString (slice ++ behind) = .ok (token, slice.length) := by
  unfold readString at succeeds
  split at succeeds
  · next body hbody =>
    rcases Quoted.eq_append_of_bodyAfter? hbody with ⟨later, rfl, hother⟩
    have hmore : Quoted.body? (body ++ '"' :: later ++ behind) = some body := by
      rw [List.append_assoc]
      exact hother (later ++ behind)
    rw [readString, hmore]
    exact succeeds
  · cases succeeds

theorem readAtName_append
    (succeeds : readAtName slice = .ok (token, slice.length))
    (ends : token.EndsBefore behind) :
    readAtName (slice ++ behind) = .ok (token, slice.length) := by
  simp only [readAtName] at succeeds ⊢
  split at succeeds
  · cases succeeds
  · next hnamed =>
    simp only [Except.ok.injEq, Prod.mk.injEq] at succeeds
    rcases succeeds with ⟨rfl, hwhole⟩
    have hstops : ∀ c ∈ behind.head?, isAtNameRest c = false := by
      intro d hnext
      rcases ends d hnext with rfl | rfl | rfl | rfl | rfl <;> rfl
    rw [takeWhile_append_of_stops hwhole hstops, if_neg hnamed, hwhole]

theorem readArrow_append
    (succeeds : readArrow slice = .ok (token, slice.length)) :
    readArrow (slice ++ behind) = .ok (token, slice.length) := by
  cases slice with
  | nil =>
      cases succeeds
  | cons d later =>
      exact succeeds

/-- A token is read from its own characters before any text that may follow it. -/
theorem read_append
    (succeeds : read c slice = .ok (token, slice.length))
    (ends : token.EndsBefore behind) :
    read c (slice ++ behind) = .ok (token, slice.length) := by
  unfold read at succeeds ⊢
  split at succeeds
  · next hstart =>
    simp only [readIdent, Except.ok.injEq, Prod.mk.injEq] at succeeds
    rcases succeeds with ⟨rfl, hwhole⟩
    rw [if_pos hstart]
    simp only [readIdent, takeWhile_append_of_stops hwhole ends, hwhole]
  next hstart =>
  rw [if_neg hstart]
  split at succeeds
  · next hdigit =>
    rw [if_pos hdigit]
    exact readNumber_append succeeds ends
  next hdigit =>
  rw [if_neg hdigit]
  split at succeeds
  · next hquote =>
    rw [if_pos hquote]
    exact readString_append succeeds
  next hquote =>
  rw [if_neg hquote]
  split at succeeds
  · next hsharp =>
    simp only [readComment, Except.ok.injEq, Prod.mk.injEq] at succeeds
    rcases succeeds with ⟨rfl, hwhole⟩
    have hline : ∀ d ∈ behind.head?, decide (d ≠ '\n') = false := by
      intro d hnext
      simpa using ends d hnext
    rw [if_pos hsharp]
    simp only [readComment, takeWhile_append_of_stops hwhole hline, hwhole]
  next hsharp =>
  rw [if_neg hsharp]
  split at succeeds
  · next hat =>
    rw [if_pos hat]
    exact readAtName_append succeeds ends
  next hat =>
  rw [if_neg hat]
  split at succeeds
  · next hdash =>
    rw [if_pos hdash]
    exact readArrow_append succeeds
  next hdash =>
  rw [if_neg hdash]
  exact succeeds

end Append

end Token
end InterfaceSchema
