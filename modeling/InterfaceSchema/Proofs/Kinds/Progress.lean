import InterfaceSchema.Proofs.Kinds.Grammar
import InterfaceSchema.Proofs.Reading.Declaration

/-!
# What readers tell about a language

A reader stands where the words of one language may follow, and goes on to where those of another
may. This module says what that means, for any reader, and that it is kept under sequencing.

* `Kinds.Leads`: behind what was taken, a language goes on as another one does. The two need to
  agree only on words that begin with the token ahead, since the readers look one token ahead.
* `Kinds.Breaks`: a failure lies at the first token that no word of a language allows, or at the end
  of a text that some word goes on from.
* `Kinds.Tells`: a reader that succeeds leads on, and one that fails breaks. It is closed under
  reading one thing after another (`Kinds.Tells.bind`, `Kinds.Tells.andThen`).
-/

namespace InterfaceSchema

/-- Causes that lie in a token which is there. -/
def Cause.IsRefusal : Cause → Prop
  | unexpectedToken _ _ => True
  | misplacedImport => True
  | duplicatePackage _ => True
  | invalidMapKey => True
  | nestedOneof => True
  | emptyAnnotationValue => True
  | _ => False

namespace Cursor

variable {cursor : Cursor}

theorem select?_ahead
    {α : Type}
    {select : Token → Option α}
    {found : Advance cursor (α × Location)}
    (selected : cursor.select? select = some found) :
    ∃ token,
      select token = some found.value.1 ∧
        cursor.ahead = ⟨token, found.value.2⟩ :: found.after.ahead := by
  unfold select? at selected
  split at selected
  · simp at selected
  · next next hnext =>
    rcases Option.map_eq_some_iff.1 selected with ⟨value, hvalue, rfl⟩
    exact ⟨next.value.token, hvalue, (next?_covers hnext).ahead⟩

end Cursor

namespace Kinds

/-- The token ahead is of certain kinds. -/
def Meets (Allowed : Kind → Prop) (lexemes : List Lexeme) : Prop :=
  ∃ lexeme rest, lexemes = lexeme :: rest ∧ Allowed lexeme.kind

theorem meets_cons {Allowed : Kind → Prop} {lexeme : Lexeme} {rest : List Lexeme} :
    Meets Allowed (lexeme :: rest) ↔ Allowed lexeme.kind := by
  constructor
  · rintro ⟨other, more, hsame, hallowed⟩
    rw [List.cons.injEq] at hsame
    rw [hsame.1]
    exact hallowed
  · intro hallowed
    exact ⟨lexeme, rest, rfl, hallowed⟩

theorem not_meets_of_noToken
    {token : Token}
    {lexemes : List Lexeme}
    (fixed : token.IsFixed)
    (other : NoToken token lexemes) :
    ¬ Meets (fun kind => kind = token.kind) lexemes := by
  rintro ⟨lexeme, rest, rfl, hkind⟩
  have htoken := Token.eq_of_kind_eq fixed hkind
  exact other lexeme.location rest (by rw [← htoken])

/-! ## Places -/

/-- Where the words of `L` may stand before `after` is reached, those of `K` may stand behind it.
The converse is asked for only of words that begin with the token ahead. -/
def Leads (before : Cursor) (L : Language Kind) (after : Cursor) (K : Language Kind) : Prop :=
  ∃ taken,
    before.ahead = taken ++ after.ahead ∧
      (∀ later ∈ K, kinds taken ++ later ∈ L) ∧
      ∀ later,
        later.head? = (kinds after.ahead).head? → kinds taken ++ later ∈ L → later ∈ K

/-- A failure shows at the first token that stands against a language, or at the end of a text
that some word of the language goes on from. -/
inductive Breaks (L : Language Kind) (ahead : List Lexeme) (failure : Failure) : Prop
  | ended
      (front rest : List Lexeme)
      (expected : Expected)
      (lexemes : ahead = front ++ rest)
      (atEnd : Grammar.AtEnd rest)
      (cause : failure.cause = .unexpectedEnd expected)
      (begun : Begins L (kinds front))
  | refused
      (front rest : List Lexeme)
      (lexeme : Lexeme)
      (lexemes : ahead = front ++ lexeme :: rest)
      (cause : failure.cause.IsRefusal)
      (place : failure.span = lexeme.location.span)
      (begun : Begins L (kinds front))
      (refuses : ¬ Begins L (kinds (front ++ [lexeme])))

section Places

variable {before middle after cursor : Cursor} {K L M : Language Kind}

namespace Leads

theorem trans (first : Leads before L middle M) (second : Leads middle M after K) :
    Leads before L after K := by
  rcases first with ⟨taken, hahead, hcomplete, hsound⟩
  rcases second with ⟨more, hmore, hcomplete', hsound'⟩
  refine ⟨taken ++ more, by simp [hahead, hmore], ?_, ?_⟩
  · intro later hlater
    rw [kinds_append, List.append_assoc]
    exact hcomplete _ (hcomplete' later hlater)
  · intro later hhead hlater
    rw [kinds_append, List.append_assoc] at hlater
    refine hsound' later hhead (hsound _ ?_ hlater)
    rw [hmore, kinds_append, List.head?_append, List.head?_append, hhead]

/-- Behind one token a language goes on as its words do behind the kind of the token. -/
theorem first
    {lexeme : Lexeme}
    (ahead : before.ahead = lexeme :: after.ahead)
    (goesOn : ∀ later, lexeme.kind :: later ∈ L ↔ later ∈ K) :
    Leads before L after K := by
  refine ⟨[lexeme], ahead, ?_, ?_⟩
  · intro later hlater
    exact (goesOn later).2 hlater
  · intro later _ hlater
    exact (goesOn later).1 hlater

/-- One of two languages is left out if its words begin with other tokens. -/
theorem left
    {Allowed : Kind → Prop}
    (opens : Opens Allowed M)
    (away : ¬ Meets Allowed cursor.ahead) :
    Leads cursor (L + M) cursor L := by
  refine ⟨[], rfl, ?_, ?_⟩
  · intro later hlater
    exact Or.inl hlater
  · rintro later hhead (hleft | hright)
    · exact hleft
    · rcases opens later hright with ⟨kind, more, rfl, hallowed⟩
      refine absurd ?_ away
      cases hlexemes : cursor.ahead with
      | nil =>
          simp [hlexemes] at hhead
      | cons lexeme rest =>
          rw [hlexemes] at hhead
          simp only [List.head?_cons, kinds_cons, Option.some.injEq] at hhead
          rw [meets_cons, ← hhead]
          exact hallowed

theorem right
    {Allowed : Kind → Prop}
    (opens : Opens Allowed L)
    (away : ¬ Meets Allowed cursor.ahead) :
    Leads cursor (L + M) cursor M := by
  rw [add_comm]
  exact left opens away

theorem breaks
    {failure : Failure}
    (leads : Leads before L after K)
    (breaks : Breaks K after.ahead failure) :
    Breaks L before.ahead failure := by
  rcases leads with ⟨taken, hahead, hcomplete, hsound⟩
  have hbegun {front : List Lexeme} (hfront : Begins K (kinds front)) :
      Begins L (kinds (taken ++ front)) := by
    rcases hfront with ⟨later, hlater⟩
    refine ⟨later, ?_⟩
    rw [kinds_append, List.append_assoc]
    exact hcomplete _ hlater
  cases breaks with
  | ended front rest expected lexemes atEnd cause begun =>
      refine .ended (taken ++ front) rest expected ?_ atEnd cause (hbegun begun)
      rw [hahead, lexemes, List.append_assoc]
  | refused front rest lexeme lexemes cause place begun refuses =>
      refine .refused (taken ++ front) rest lexeme ?_ cause place (hbegun begun) ?_
      · rw [hahead, lexemes, List.append_assoc]
      · rintro ⟨later, hlater⟩
        refine refuses ⟨later, hsound _ ?_ ?_⟩
        · rw [lexemes]
          simp [List.head?_append]
        · simpa using hlater

end Leads

/-- The token ahead is refused. -/
theorem refusal_breaks
    [possible : Possible L]
    {lexeme : Lexeme}
    {rest : List Lexeme}
    {failure : Failure}
    (ahead : cursor.ahead = lexeme :: rest)
    (cause : failure.cause.IsRefusal)
    (place : failure.span = lexeme.location.span)
    (refuses : ¬ Begins L [lexeme.kind]) :
    Breaks L cursor.ahead failure :=
  .refused [] rest lexeme ahead cause place possible.begins refuses

/-- What the grammar asks for may stand ahead, but something else does. -/
theorem unexpected_breaks
    [possible : Possible L]
    {Allowed : Kind → Prop}
    (expected : Expected)
    (opens : Opens Allowed L)
    (away : ¬ Meets Allowed cursor.ahead) :
    Breaks L cursor.ahead (cursor.unexpected expected) := by
  by_cases hend : cursor.peek.token = .eof
  · refine .ended [] cursor.ahead expected rfl (Grammar.peek_eq_eof_iff.1 hend) ?_ possible.begins
    simp only [Cursor.unexpected, hend]
  · rcases Cursor.exists_ahead_eq_peek hend with ⟨rest, hahead⟩
    have hfailure :
        cursor.unexpected expected =
          ⟨.unexpectedToken expected cursor.peek.token, cursor.peek.location.span⟩ := by
      simp only [Cursor.unexpected]
    rw [hfailure]
    rw [hahead, meets_cons] at away
    exact refusal_breaks hahead trivial rfl (opens.not_begins away)

end Places

/-! ## Readers -/

section Readers

variable {cursor : Cursor} {α β : Type}

/-- A reader that succeeds leads from where the words of `L` may stand to where those of `K` may,
and its failures show at the first token that stands against `L`. -/
structure Tells
    (outcome : Except Failure (Advance cursor α))
    (L : Language Kind)
    (K : Language Kind) : Prop where
  leads {advance : Advance cursor α} (succeeds : outcome = .ok advance) :
    Leads cursor L advance.after K
  breaks {failure : Failure} (fails : outcome = .error failure) :
    Breaks L cursor.ahead failure

namespace Tells

variable {outcome : Except Failure (Advance cursor α)} {K L M : Language Kind}

theorem ok
    {advance : Advance cursor α}
    (leads : Leads cursor L advance.after K) :
    Tells (.ok advance) L K where
  leads := by
    rintro _ ⟨⟩
    exact leads
  breaks := by
    rintro _ ⟨⟩

theorem error
    {failure : Failure}
    (breaks : Breaks L cursor.ahead failure) :
    Tells (.error failure : Except Failure (Advance cursor α)) L K where
  leads := by
    rintro _ ⟨⟩
  breaks := by
    rintro _ ⟨⟩
    exact breaks

/-- What stands ahead decides between alternatives before anything is read. -/
theorem narrow (leads : Leads cursor L cursor M) (tells : Tells outcome M K) :
    Tells outcome L K where
  leads hsucceeds := leads.trans (tells.leads hsucceeds)
  breaks hfails := leads.breaks (tells.breaks hfails)

theorem andThen
    {first : Advance cursor α}
    {read : (after : Cursor) → Except Failure (Advance after β)}
    (leads : Leads cursor L first.after M)
    (tells : Tells (read first.after) M K) :
    Tells (first.andThen read) L K := by
  unfold Advance.andThen
  cases hread : read first.after with
  | ok second =>
      exact .ok (leads.trans (tells.leads hread))
  | error failure =>
      exact .error (leads.breaks (tells.breaks hread))

theorem bindOk
    {next : Advance cursor α → Except Failure (Advance cursor β)}
    (first : Tells outcome L M)
    (rest :
      ∀ advance,
        outcome = .ok advance → Leads cursor L advance.after M → Tells (next advance) L K) :
    Tells (outcome >>= next) L K := by
  cases houtcome : outcome with
  | ok advance =>
      exact rest advance houtcome (first.leads houtcome)
  | error failure =>
      exact .error (first.breaks houtcome)

theorem bind
    {next : Advance cursor α → Except Failure (Advance cursor β)}
    (first : Tells outcome L M)
    (rest : ∀ advance, Leads cursor L advance.after M → Tells (next advance) L K) :
    Tells (outcome >>= next) L K :=
  first.bindOk fun advance _ => rest advance

/-- Reading on behind an advance, with a reader that starts from there. -/
theorem bindAfter
    {first : Advance cursor α}
    {γ : Type}
    {read : Except Failure (Advance first.after β)}
    {next : Advance first.after β → Except Failure (Advance cursor γ)}
    {N : Language Kind}
    (leads : Leads cursor L first.after M)
    (tells : Tells read M N)
    (rest : ∀ second, Leads cursor L second.after N → Tells (next second) L K) :
    Tells (read >>= next) L K := by
  cases hread : read with
  | ok second =>
      exact rest second (leads.trans (tells.leads hread))
  | error failure =>
      exact .error (leads.breaks (tells.breaks hread))

end Tells

end Readers

/-! ## Single tokens -/

section Single

variable {cursor : Cursor} {token : Token} {K L : Language Kind}

theorem take?_leads
    {found : Advance cursor Location}
    (taken : cursor.take? token = some found) :
    Leads cursor (one token.kind * K) found.after K := by
  refine .first (Cursor.take?_ahead taken) ?_
  intro later
  simp [cons_mem_one_mul, Lexeme.kind]

/-- A token that was taken decides for the alternative that begins with it. -/
theorem take?_leads_left
    {found : Advance cursor Location}
    (other : ¬ Begins L [token.kind])
    (taken : cursor.take? token = some found) :
    Leads cursor (one token.kind * K + L) found.after K := by
  refine .first (Cursor.take?_ahead taken) ?_
  intro later
  rw [Language.mem_add, cons_mem_one_mul]
  constructor
  · rintro (⟨_, hlater⟩ | hother)
    · exact hlater
    · exact absurd ⟨later, hother⟩ other
  · intro hlater
    exact Or.inl ⟨rfl, hlater⟩

theorem take?_leads_right
    {found : Advance cursor Location}
    (other : ¬ Begins L [token.kind])
    (taken : cursor.take? token = some found) :
    Leads cursor (L + one token.kind * K) found.after K := by
  rw [add_comm]
  exact take?_leads_left other taken

theorem not_meets_of_take?
    (absent : cursor.take? token = none)
    (fixed : token.IsFixed) :
    ¬ Meets (fun kind => kind = token.kind) cursor.ahead :=
  not_meets_of_noToken fixed (Cursor.take?_eq_none_iff.1 absent)

theorem expect_tells (fixed : token.IsFixed) [Possible K] :
    Tells (cursor.expect token) (one token.kind * K) K := by
  unfold Cursor.expect
  split
  · next found hfound =>
    exact .ok (take?_leads hfound)
  · next hnone =>
    exact .error (unexpected_breaks _ opens_one.mul (not_meets_of_take? hnone fixed))

variable {α : Type} {select : Token → Option α} {Allowed : Kind → Prop}

theorem not_meets_of_select?
    (selects : ∀ token, Allowed token.kind → select token ≠ none)
    (absent : cursor.select? select = none) :
    ¬ Meets Allowed cursor.ahead := by
  rintro ⟨lexeme, rest, hahead, hallowed⟩
  exact selects lexeme.token hallowed (Cursor.select?_eq_none_iff.1 absent lexeme rest hahead)

theorem select_tells
    (expected : Expected)
    (selects : ∀ token, select token ≠ none ↔ Allowed token.kind)
    [Possible (among Allowed)]
    [Possible K] :
    Tells (cursor.select expected select) (among Allowed * K) K := by
  unfold Cursor.select
  split
  · next found hfound =>
    rcases Cursor.select?_ahead hfound with ⟨token, htoken, hahead⟩
    have hallowed : Allowed token.kind := by
      rw [← selects, htoken]
      simp
    refine .ok (.first hahead ?_)
    intro later
    simp [cons_mem_among_mul, Lexeme.kind, hallowed]
  · next hnone =>
    have haway := not_meets_of_select? (fun token => (selects token).2) hnone
    exact .error (unexpected_breaks _ opens_among.mul haway)

theorem isName_iff {token : Token} : IsName token.kind ↔ token.ident? ≠ none := by
  unfold IsName
  cases token <;> simp [Token.kind, Token.ident?]

/-- Reading an identifier whose name decides how a language goes on. -/
theorem Tells.ident
    {next : Advance cursor (String × Location) → Except Failure (Advance cursor α)}
    (expected : Expected)
    [Possible L]
    (opens : Opens IsName L)
    (rest :
      ∀ name : Advance cursor (String × Location),
        cursor.ahead = ⟨.ident name.value.1, name.value.2⟩ :: name.after.ahead →
          Tells (next name) L K) :
    Tells (cursor.ident expected >>= next) L K := by
  unfold Cursor.ident Cursor.select
  cases hfound : cursor.select? Token.ident? with
  | some found =>
      rcases Cursor.select?_ahead hfound with ⟨token, htoken, hahead⟩
      rw [Token.ident?_eq_some_iff] at htoken
      subst htoken
      exact rest found hahead
  | none =>
      have haway := not_meets_of_select? (fun _ => isName_iff.1) hfound
      exact .error (unexpected_breaks expected opens haway)

theorem ident_tells (expected : Expected) [Possible K] :
    Tells (cursor.ident expected) (name * K) K := by
  have hpossible : Possible (among fun kind => ∃ name, kind = .ident name ∧ True) :=
    possible_name
  refine select_tells expected ?_
  intro token
  rw [← isName_iff]
  simp [IsName]

end Single

end Kinds
end InterfaceSchema
