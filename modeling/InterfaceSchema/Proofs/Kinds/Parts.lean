import InterfaceSchema.Proofs.Kinds.Phrases
import InterfaceSchema.Proofs.Kinds.Progress
import InterfaceSchema.Proofs.Reading.Schema

/-!
# Where names, types and annotations break

The readers of the parts of fields and methods, and of what stands between items, tell about the
rules of the grammar for them.

* `Kinds.dottedName_tells`, `Kinds.fieldType_tells`: names and types. They go on as long as dots
  follow, so no dot may follow behind them.
* `Kinds.annotationRest_tells`: the values of an annotation.
* `Kinds.entry_tells`, `Kinds.block_tells`: items with fillers between them.
-/

open scoped Computability

namespace InterfaceSchema
namespace Kinds

open Grammar

section Parts

variable {cursor : Cursor} {K L : Language Kind}

/-! ## Names and types -/

theorem dottedRest_tells
    {name : Advance cursor String}
    [Possible K]
    (stops : ¬ Begins K [.dot])
    (leads : Leads cursor L name.after (dottedTail * K)) :
    Tells (dottedRest name) L K := by
  induction name using dottedRest.induct with
  | case1 name hnone =>
      rw [dottedTail_mul_eq] at leads
      rw [dottedRest, hnone]
      exact .ok (leads.trans (.left opens_one.mul (not_meets_of_take? hnone rfl)))
  | case2 name dot hdot ih =>
      rw [dottedTail_mul_eq] at leads
      rw [dottedRest, hdot]
      have hleads : Leads cursor L (name.followedBy dot).after _ :=
        leads.trans (take?_leads_right stops hdot)
      exact .bindAfter hleads (ident_tells .identifier) ih

/-- A dotted name is read where the first identifier is one that is allowed there. -/
theorem dottedName_tells_of_fits
    {Fits : String → Prop}
    (expected : Expected)
    [Possible (named Fits)]
    [Possible K]
    (stops : ¬ Begins K [.dot])
    (fits : ∀ name place rest, cursor.ahead = ⟨.ident name, place⟩ :: rest → Fits name) :
    Tells (dottedName cursor expected) (named Fits * (dottedTail * K)) K := by
  unfold dottedName
  refine .ident expected opens_named.mul ?_
  intro name hahead
  refine dottedRest_tells stops (.first hahead ?_)
  intro later
  refine ident_cons_mem_named_mul.trans ?_
  simp [fits _ _ _ hahead]

theorem dottedName_tells (expected : Expected) [Possible K] (stops : ¬ Begins K [.dot]) :
    Tells (dottedName cursor expected) (dotted * K) K := by
  have hname : Possible (named fun _ => True) := possible_name
  unfold dotted
  rw [mul_assoc]
  exact dottedName_tells_of_fits expected stops fun _ _ _ _ => trivial

theorem mapKey_tells [Possible K] : Tells (mapKey cursor) (named IsMapKey * K) K := by
  unfold mapKey
  refine .ident .mapKey opens_named.mul ?_
  intro name hahead
  split
  · next key hkey =>
    rw [Option.filter_eq_some_iff] at hkey
    refine .ok (.first hahead ?_)
    intro later
    have hallowed : IsMapKey name.value.1 := ⟨key, hkey⟩
    simp [Lexeme.kind, Token.kind, ident_cons_mem_named_mul, hallowed]
  · next hnone =>
    rw [Option.filter_eq_none_iff] at hnone
    refine .error (refusal_breaks hahead trivial rfl ?_)
    rintro ⟨later, hlater⟩
    rcases (ident_cons_mem_named_mul.1 hlater).1 with ⟨key, hkey, hallowed⟩
    exact hnone key hkey hallowed

theorem fieldType_tells [Possible K] (stops : ¬ Begins K [.dot]) :
    Tells (fieldType cursor) (type * K) K := by
  induction cursor using fieldType.induct generalizing K with
  | case1 cursor ih =>
    have hclose : ¬ Begins (one .rightAngle * K) [.dot] := opens_one.mul.not_begins (by simp)
    rw [fieldType]
    refine .ident .fieldType opens_type.mul ?_
    intro name hahead
    split
    · next primitive hprimitive =>
      refine .ok (.first hahead ?_)
      intro later
      exact primitive_cons_mem_type_mul ⟨primitive, hprimitive⟩
    · next hnone =>
      split
      · next harray =>
        rw [harray] at hahead
        have hname := Leads.first hahead fun _ => array_cons_mem_type_mul (K := K)
        refine .bind (.andThen hname (expect_tells (by rfl))) ?_
        intro opening hopening
        refine .bindAfter hopening (ih opening hclose) ?_
        intro element helement
        refine .bind (.andThen helement (expect_tells (by rfl))) ?_
        intro close hclosed
        exact .ok hclosed
      · split
        · next hmap =>
          rw [hmap] at hahead
          have hname := Leads.first hahead fun _ => map_cons_mem_type_mul (K := K)
          refine .bind (.andThen hname (expect_tells (by rfl))) ?_
          intro opening hopening
          refine .bind (.andThen hopening mapKey_tells) ?_
          intro key hkey
          refine .bind (.andThen hkey (expect_tells (by rfl))) ?_
          intro comma hcomma
          refine .bindAfter hcomma (ih comma hclose) ?_
          intro value hvalue
          refine .bind (.andThen hvalue (expect_tells (by rfl))) ?_
          intro close hclosed
          exact .ok hclosed
        · next hnoArray hnoMap =>
          have hfree : IsReference name.value.1 := by
            refine ⟨hnone, ?_, ?_⟩
            · intro hname
              exact hnoArray (congrArg Token.ident hname)
            · intro hname
              exact hnoMap (congrArg Token.ident hname)
          have hname := Leads.first hahead fun _ => reference_cons_mem_type_mul (K := K) hfree
          refine .bind (dottedRest_tells stops hname) ?_
          intro reference hreference
          exact .ok hreference

theorem index_tells [Possible K] : Tells (Grammar.index cursor) (index * K) K := by
  unfold Grammar.index index
  rw [mul_assoc, mul_assoc]
  refine .bind (expect_tells (by rfl)) ?_
  intro equals hequals
  have hnumber (token : Token) : token.number? ≠ none ↔ token.kind = .number := by
    cases token <;> simp [Token.number?, Token.kind]
  refine .bind (.andThen hequals (select_tells .integer hnumber)) ?_
  intro number hnumber
  refine .bind (.andThen hnumber (expect_tells (by rfl))) ?_
  intro close hclose
  exact .ok hclose

/-! ## Annotations -/

/-- The values that may still follow when some words of a value have been read. -/
def valuesFrom (words : List String) : Language Kind :=
  if words = [] then values else word∗ * laterValues

theorem valuesFrom_mul_eq (words : List String) :
    valuesFrom words * (one .rightParen * K) =
      one .rightParen * K +
        ((if words = [] then 0 else one .comma * (values * (one .rightParen * K))) +
          word * (word∗ * laterValues * (one .rightParen * K))) := by
  have hbegun :
      word∗ * laterValues * (one .rightParen * K) =
        laterValues * (one .rightParen * K) +
          word * (word∗ * laterValues * (one .rightParen * K)) := by
    rw [mul_assoc]
    exact kstar_mul_eq
  unfold valuesFrom
  split
  · rw [values_mul_eq, zero_add, mul_assoc]
  · conv_lhs => rw [hbegun, laterValues_mul_eq]
    rw [add_assoc]

theorem cons_mem_valuesFrom_mul {words : List String} {kind : Kind} {later : List Kind} :
    kind :: later ∈ valuesFrom words * (one .rightParen * K) ↔
      kind = .rightParen ∧ later ∈ K ∨
        (words ≠ [] ∧ kind = .comma ∧ later ∈ values * (one .rightParen * K)) ∨
          IsWord kind ∧ later ∈ word∗ * laterValues * (one .rightParen * K) := by
  rw [valuesFrom_mul_eq, Language.mem_add, Language.mem_add, cons_mem_one_mul]
  have hword :
      kind :: later ∈ word * (word∗ * laterValues * (one .rightParen * K)) ↔
        IsWord kind ∧ later ∈ word∗ * laterValues * (one .rightParen * K) :=
    cons_mem_among_mul
  rw [hword]
  split <;> simp [*, cons_mem_one_mul]

theorem opens_valuesFrom (words : List String) :
    Opens (fun kind => kind ≠ .newline ∧ kind ≠ .eof)
      (valuesFrom words * (one .rightParen * K)) := by
  rw [valuesFrom_mul_eq]
  refine .add (opens_one.mul.mono ?_) (.add ?_ (opens_among.mul.mono ?_))
  · rintro kind rfl
    simp
  · split
    · intro word hword
      exact absurd hword (Language.notMem_zero word)
    · refine opens_one.mul.mono ?_
      rintro kind rfl
      simp
  · intro kind hword
    exact ⟨hword.2.2.1, hword.2.2.2⟩

/-- A list of values that breaks off is not closed. -/
theorem unclosed_breaks
    [Possible K]
    (words : List String)
    (stops : ¬ Meets (fun kind => kind ≠ .newline ∧ kind ≠ .eof) cursor.ahead) :
    Breaks (valuesFrom words * (one .rightParen * K)) cursor.ahead
      (cursor.unexpected (.exactly .rightParen)) := by
  have hpossible : Possible (valuesFrom words) := by
    unfold valuesFrom
    split <;> infer_instance
  exact unexpected_breaks _ (opens_valuesFrom words) stops

theorem annotationValues_tells [Possible K] (words : List String) :
    Tells (annotationValues cursor words) (valuesFrom words * (one .rightParen * K)) K := by
  induction cursor, words using annotationValues.induct with
  | case1 cursor words hnone =>
      rw [annotationValues, hnone]
      refine .error (unclosed_breaks words ?_)
      rintro ⟨lexeme, rest, hahead, _⟩
      rcases Cursor.exists_next? hahead with ⟨next, hnext, _⟩
      rw [hnone] at hnext
      simp at hnext
  | case2 cursor words next hnext hclose =>
      rw [annotationValues_close hnext hclose]
      refine .ok (.first (Cursor.next?_covers hnext).ahead ?_)
      intro later
      rw [Lexeme.kind, hclose, cons_mem_valuesFrom_mul]
      simp [Token.kind, IsWord]
  | case3 cursor words next hnext hnewline =>
      rw [annotationValues, hnext]
      simp only [hnewline]
      refine .error (unclosed_breaks words ?_)
      rw [(Cursor.next?_covers hnext).ahead, List.singleton_append, meets_cons]
      simp [Lexeme.kind, hnewline, Token.kind]
  | case4 cursor words next hnext heof =>
      rw [annotationValues, hnext]
      simp only [heof]
      refine .error (unclosed_breaks words ?_)
      rw [(Cursor.next?_covers hnext).ahead, List.singleton_append, meets_cons]
      simp [Lexeme.kind, heof, Token.kind]
  | case5 cursor next hnext hcomma =>
      rw [annotationValues, hnext]
      simp only [hcomma, if_true]
      have hpossible : Possible (valuesFrom []) := possible_values
      refine .error (refusal_breaks (Cursor.next?_covers hnext).ahead trivial rfl ?_)
      rintro ⟨later, hlater⟩
      rw [List.singleton_append, Lexeme.kind, hcomma, cons_mem_valuesFrom_mul] at hlater
      simp [Token.kind, IsWord] at hlater
  | case6 cursor words next hnext hcomma hbegun ih =>
      rw [annotationValues_comma hnext hcomma hbegun]
      have hleads :
          Leads cursor (valuesFrom words * (one .rightParen * K)) next.after
            (valuesFrom [] * (one .rightParen * K)) := by
        refine .first (Cursor.next?_covers hnext).ahead ?_
        intro later
        rw [Lexeme.kind, hcomma, cons_mem_valuesFrom_mul]
        simp [Token.kind, IsWord, hbegun, valuesFrom]
      refine .bindAfter hleads ih ?_
      intro later hlater
      exact .ok hlater
  | case7 cursor words next hnext hclose hnewline heof hcomma ih =>
      rw [annotationValues_word hnext ⟨hcomma, hclose, hnewline, heof⟩]
      have hword : IsWord next.value.kind :=
        isWord_kind_iff.2 ⟨hcomma, hclose, hnewline, heof⟩
      have hleads :
          Leads cursor (valuesFrom words * (one .rightParen * K)) next.after
            (valuesFrom (words ++ [next.value.token.value]) * (one .rightParen * K)) := by
        refine .first (Cursor.next?_covers hnext).ahead ?_
        intro later
        rw [cons_mem_valuesFrom_mul]
        simp [hword, hword.1, hword.2.1, valuesFrom]
      refine .bindAfter hleads ih ?_
      intro found hfound
      exact .ok hfound

theorem annotationRest_tells
    {name : Advance cursor (String × Location)}
    [Possible K]
    (stops : ¬ Begins K [.leftParen])
    (leads : Leads cursor L name.after (annotationRest * K)) :
    Tells (Grammar.annotationRest name) L K := by
  unfold annotationRest at leads
  rw [one_add_mul, mul_assoc, mul_assoc] at leads
  unfold Grammar.annotationRest
  dsimp only
  split
  · next hnone =>
    exact .ok (leads.trans (.left opens_one.mul (not_meets_of_take? hnone rfl)))
  · next opening hopening =>
    have hleads : Leads cursor L (name.followedBy opening).after _ :=
      leads.trans (take?_leads_right stops hopening)
    refine .bind (.andThen hleads (annotationValues_tells [])) ?_
    intro found hfound
    exact .ok hfound

/-! ## Items and what stands between them -/

theorem trivia?_ahead
    {passed : Advance cursor Unit}
    (found : cursor.trivia? = some passed) :
    ∃ lexeme, cursor.ahead = lexeme :: passed.after.ahead ∧ IsIdle lexeme.kind := by
  rcases Cursor.trivia?_sound found with ⟨taken, next, htrivia, hcovers⟩
  rcases htrivia.singleton with ⟨lexeme, rfl, hidle⟩
  exact ⟨lexeme, hcovers.ahead, isIdle_kind_iff.2 hidle⟩

theorem not_meets_of_trivia? (absent : cursor.trivia? = none) :
    ¬ Meets IsIdle cursor.ahead := by
  rintro ⟨lexeme, rest, hahead, hidle⟩
  rcases exists_trivia? (isIdle_kind_iff.1 hidle) hahead with ⟨passed, hpassed⟩
  rw [absent] at hpassed
  simp at hpassed

section Items

variable {α : Type} {item : Item α} {I : Language Kind}

/-- An entry is a filler or an item, and what is ahead tells which. -/
theorem entry_tells
    [Possible I]
    [Possible K]
    (opens : Opens IsName I)
    (stops : ¬ Begins K [.leftParen])
    (tells : Tells (item cursor) (I * K) K) :
    Tells (entry item cursor) ((filler + I) * K) K := by
  unfold entry
  split
  · next passed hpassed =>
    rcases trivia?_ahead hpassed with ⟨lexeme, hahead, hidle⟩
    exact .ok (.first hahead fun _ => idle_cons_mem_entry_mul opens hidle)
  · next hnone =>
    split
    · next name hname =>
      rcases Cursor.select?_ahead hname with ⟨token, htoken, hahead⟩
      rw [Token.atName?_eq_some_iff] at htoken
      subst htoken
      have hleads := Leads.first hahead fun _ => atName_cons_mem_entry_mul (K := K) opens
      refine .bind (annotationRest_tells stops hleads) ?_
      intro passed hpassed
      exact .ok hpassed
    · next hnoName =>
      have hmark : ¬ Meets (fun kind => kind = .atName) cursor.ahead := by
        refine not_meets_of_select? ?_ hnoName
        intro token htoken
        cases token <;> simp_all [Token.kind, Token.atName?]
      have hleads : Leads cursor ((filler + I) * K) cursor (I * K) := by
        rw [entry_mul_eq]
        refine Leads.trans (.right opens_among.mul (not_meets_of_trivia? hnone)) ?_
        exact .right opens_one.mul hmark
      refine .narrow hleads (.bind tells ?_)
      intro found hfound
      exact .ok hfound

/-- A body goes on with entries up to the closing brace. -/
theorem block_tells
    [Possible I]
    [Possible K]
    (opens : Opens IsName I)
    (tells : ∀ (after : Cursor) (M : Language Kind) [Possible M], Tells (item after) (I * M) M) :
    Tells (Grammar.block item cursor) (entries I * (one .rightBrace * K)) K := by
  have hrest : ¬ Begins (one .rightBrace * K) [.leftParen] := opens_one.mul.not_begins (by simp)
  have hstops : ¬ Begins (entries I * (one .rightBrace * K)) [.leftParen] :=
    not_begins_entries_mul opens (by simp [IsEntry, IsFiller, IsIdle, IsName]) hrest
  induction cursor using block.induct (α := α) with
  | case1 cursor close hclose =>
      rw [Grammar.block, hclose, entries_mul_eq]
      refine .ok (take?_leads_left ?_ hclose)
      exact (opens_entry opens).mul.not_begins
        (by simp [Token.kind, IsEntry, IsFiller, IsIdle, IsName])
  | case2 cursor hnone ih =>
      have hleads :
          Leads cursor (entries I * (one .rightBrace * K)) cursor
            ((filler + I) * (entries I * (one .rightBrace * K))) := by
        conv => enter [2]; rw [entries_mul_eq]
        exact .right opens_one.mul (not_meets_of_take? hnone rfl)
      rw [Grammar.block, hnone]
      refine .bind (.narrow hleads (entry_tells opens hstops (tells cursor _))) ?_
      intro found hfound
      refine .bindAfter hfound (ih found) ?_
      intro later hlater
      exact .ok hlater

end Items

end Parts

end Kinds
end InterfaceSchema
