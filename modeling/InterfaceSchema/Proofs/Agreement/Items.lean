import InterfaceSchema.Grammar.Message
import InterfaceSchema.Grammar.Service
import InterfaceSchema.Proofs.Agreement.Basic
import InterfaceSchema.Proofs.Reading.Annotation

/-!
# Items at other places

The readers of names, types, annotations, blocks, and the members of messages and services do the
same before lexemes that correspond.

* `Pairing.dottedName_keeps`, `Pairing.fieldType_keeps`, `Pairing.index_keeps`: the parts of items.
* `Pairing.annotationRest_agrees`, `Pairing.entry_agrees`, `Pairing.block_keeps`: what stands
  between items, and items between braces.
* `Pairing.field_keeps`, `Pairing.member_keeps`, `Pairing.method_keeps`: items.
-/

namespace InterfaceSchema
namespace Pairing

open Grammar

variable {pairing : Pairing}

/-! ## Names and types -/

theorem dottedRest_agrees
    {before other : Cursor}
    {name : Advance before String}
    {twin : Advance other String}
    (advances : pairing.Advances Eq name twin) :
    Agree pairing.Failures (pairing.Advances Eq) (dottedRest name) (dottedRest twin) := by
  induction name using dottedRest.induct generalizing twin with
  | case1 name hnone =>
      have htwin := (advances.after.take? .dot).of_none hnone
      rw [dottedRest, hnone, dottedRest, htwin]
      exact .ok advances
  | case2 name dot hdot ih =>
      rcases (advances.after.take? .dot).of_some hdot with ⟨mark, hmark, hdots⟩
      rw [dottedRest, hdot, dottedRest, hmark]
      refine .bind (ident_keeps .identifier _ _ hdots.after) ?_
      intro part part' hpart
      refine ih part ⟨?_, hpart.after⟩
      simp only [Advance.value_map, Advance.value_followedBy, advances.value, hpart.value.1]

theorem dottedName_keeps (expected : Expected) :
    pairing.Keeps Eq fun cursor => dottedName cursor expected := by
  intro first second hcursors
  dsimp only
  unfold dottedName
  refine .bind (ident_keeps expected _ _ hcursors) ?_
  intro name name' hname
  exact dottedRest_agrees (hname.map fun _ _ hpicked => hpicked.1)

theorem mapKey_keeps : pairing.Keeps Eq mapKey := by
  intro first second hcursors
  unfold mapKey
  refine .bind (ident_keeps .mapKey _ _ hcursors) ?_
  intro name name' hname
  rw [← hname.value.1]
  split
  · exact .ok (hname.map fun _ _ _ => rfl)
  · exact .error (hname.value.failures trivial (by simp))

theorem fieldType_keeps : pairing.Keeps Eq fieldType := by
  intro first
  induction first using fieldType.induct with
  | case1 first ih =>
      intro second hcursors
      rw [fieldType, fieldType]
      refine .bind (ident_keeps .fieldType _ _ hcursors) ?_
      intro name name' hname
      rw [← hname.value.1]
      split
      · exact .ok (hname.map fun _ _ _ => rfl)
      split
      · refine .bind ((expect_keeps .leftAngle).andThen hname) ?_
        intro opening opening' hopening
        refine .bind (ih opening _ hopening.after) ?_
        intro element element' helement
        refine .bind ((expect_keeps .rightAngle).andThen helement.followedBy) ?_
        intro close close' hclose
        exact .ok (hclose.map fun _ _ _ => congrArg FieldType.array helement.value)
      split
      · refine .bind ((expect_keeps .leftAngle).andThen hname) ?_
        intro opening opening' hopening
        refine .bind (mapKey_keeps.andThen hopening) ?_
        intro key key' hkey
        refine .bind ((expect_keeps .comma).andThen hkey) ?_
        intro comma comma' hcomma
        refine .bind (ih comma _ hcomma.after) ?_
        intro value value' hvalue
        refine .bind ((expect_keeps .rightAngle).andThen hvalue.followedBy) ?_
        intro close close' hclose
        exact .ok (hclose.map fun _ _ _ => congrArg₂ FieldType.map hkey.value hvalue.value)
      · refine .bind (dottedRest_agrees (hname.map fun _ _ hpicked => hpicked.1)) ?_
        intro reference reference' hreference
        exact .ok (hreference.map fun _ _ hsame => congrArg FieldType.reference hsame)

theorem index_keeps :
    pairing.Keeps (fun found twin : UInt64 × Location => found.1 = twin.1) index := by
  intro first second hcursors
  unfold index
  refine .bind (expect_keeps .equals _ _ hcursors) ?_
  intro equals equals' hequals
  refine .bind ((select_keeps .integer Token.number?).andThen hequals) ?_
  intro number number' hnumber
  refine .bind ((expect_keeps .semicolon).andThen hnumber) ?_
  intro close close' hclose
  exact .ok (hclose.map fun _ _ _ => hnumber.value.1)

/-! ## Annotations -/

theorem annotationValues_agrees
    {first second : Cursor}
    {words : List String}
    (cursors : pairing.Cursors first second) :
    Agree pairing.Failures
      (pairing.Advances fun found twin : List String × Location => found.1 = twin.1)
      (annotationValues first words) (annotationValues second words) := by
  induction first, words using annotationValues.induct generalizing second with
  | case1 first words hnone =>
      have htwin := cursors.next?.of_none hnone
      rw [annotationValues, hnone, annotationValues, htwin]
      exact .error (cursors.unexpected _)
  | case2 first words next hnext hclose =>
      rcases cursors.next?.of_some hnext with ⟨twin, htwin, hboth⟩
      have hcloseToo : twin.value.token = .rightParen := hboth.value.1.symm.trans hclose
      rw [annotationValues_close hnext hclose, annotationValues_close htwin hcloseToo]
      exact .ok (hboth.map fun _ _ _ => rfl)
  | case3 first words next hnext hnewline =>
      rcases cursors.next?.of_some hnext with ⟨twin, htwin, hboth⟩
      have hnewlineToo : twin.value.token = .newline := hboth.value.1.symm.trans hnewline
      rw [annotationValues, hnext, annotationValues, htwin]
      simp only [hnewline, hnewlineToo]
      exact .error (cursors.unexpected _)
  | case4 first words next hnext heof =>
      rcases cursors.next?.of_some hnext with ⟨twin, htwin, hboth⟩
      have heofToo : twin.value.token = .eof := hboth.value.1.symm.trans heof
      rw [annotationValues, hnext, annotationValues, htwin]
      simp only [heof, heofToo]
      exact .error (cursors.unexpected _)
  | case5 first next hnext hcomma =>
      rcases cursors.next?.of_some hnext with ⟨twin, htwin, hboth⟩
      have hcommaToo : twin.value.token = .comma := hboth.value.1.symm.trans hcomma
      rw [annotationValues, hnext, annotationValues, htwin]
      simp only [hcomma, hcommaToo, if_true]
      exact .error ⟨rfl, trivial, _, _, _, hboth.value.2, rfl, rfl, by simp⟩
  | case6 first words next hnext hcomma hbegun ih =>
      rcases cursors.next?.of_some hnext with ⟨twin, htwin, hboth⟩
      have hcommaToo : twin.value.token = .comma := hboth.value.1.symm.trans hcomma
      rw [annotationValues_comma hnext hcomma hbegun, annotationValues_comma htwin hcommaToo hbegun]
      refine .bind (ih hboth.after) ?_
      intro later later' hlater
      refine .ok (hlater.followedBy.map ?_)
      rintro ⟨values, close⟩ ⟨values', close'⟩ hvalues
      exact congrArg (joinWords words ++ ·) hvalues
  | case7 first words next hnext hclose hnewline heof hcomma ih =>
      rcases cursors.next?.of_some hnext with ⟨twin, htwin, hboth⟩
      have hword : next.value.token.IsWord := ⟨hcomma, hclose, hnewline, heof⟩
      have hwordToo : twin.value.token.IsWord := by
        rw [← hboth.value.1]
        exact hword
      rw [annotationValues_word hnext hword, annotationValues_word htwin hwordToo,
        ← hboth.value.1]
      refine .bind (ih hboth.after) ?_
      intro found found' hfound
      exact .ok hfound.followedBy

/-- Notes that are the same but for places stay so when the same annotation joins them. -/
theorem unplaced_annotated
    {waiting other : Notes}
    {mark twin : AnnotationMark}
    (notes : waiting.unplaced = other.unplaced)
    (marks : mark.unplaced = twin.unplaced) :
    Notes.unplaced { waiting with annotations := waiting.annotations ++ [mark] } =
      Notes.unplaced { other with annotations := other.annotations ++ [twin] } := by
  simp only [Notes.unplaced, Notes.mk.injEq, List.map_append] at notes ⊢
  rw [notes.1, notes.2, List.map_singleton, List.map_singleton, marks]
  exact ⟨rfl, rfl⟩

/-- An annotation joins the notes that wait. -/
theorem annotationRest_agrees
    {before other : Cursor}
    {name : Advance before (String × Location)}
    {twin : Advance other (String × Location)}
    (advances : pairing.Advances pairing.Picked name twin) :
    Agree pairing.Failures (pairing.Advances Eq) (annotationRest name) (annotationRest twin) := by
  have hmarks
      {values values' : List String}
      (hvalues : values = values')
      (place place' : Location) :
      AnnotationMark.unplaced ⟨place, name.value.1, values⟩ =
        AnnotationMark.unplaced ⟨place', twin.value.1, values'⟩ := by
    rw [hvalues, advances.value.1]
    rfl
  unfold annotationRest
  dsimp only
  rcases advances.after.take? .leftParen with
    ⟨hfirst, hsecond⟩ | ⟨opening, opening', hfirst, hsecond, hopening⟩
  · rw [hfirst, hsecond]
    refine .ok ((advances.map fun _ _ _ => rfl).withPending ?_)
    exact unplaced_annotated advances.after.pending (hmarks rfl _ _)
  · rw [hfirst, hsecond]
    refine .bind (andThen_agrees (annotationValues_agrees hopening.followedBy.after)) ?_
    intro found found' hfound
    refine .ok ((hfound.map fun _ _ _ => rfl).withPending ?_)
    exact unplaced_annotated hfound.after.pending (hmarks hfound.value _ _)

/-! ## Items and what stands between them -/

section Blocks

variable {α : Type} {item other : Item α} {unplaced : α → α}

/-- Items may fail in more ways than what stands between them. -/
theorem entry_agrees
    {fails : Failure → Failure → Prop}
    {first second : Cursor}
    (wider : ∀ failure other, pairing.Failures failure other → fails failure other)
    (cursors : pairing.Cursors first second)
    (items :
      Agree fails (pairing.Advances fun value twin => unplaced value = unplaced twin)
        (item first) (other second)) :
    Agree fails
      (pairing.Advances fun value twin => value.map unplaced = twin.map unplaced)
      (entry item first) (entry other second) := by
  unfold entry
  rcases cursors.trivia? with ⟨hfirst, hsecond⟩ | ⟨passed, twin, hfirst, hsecond, hpassed⟩
  · rw [hfirst, hsecond]
    dsimp only
    rcases cursors.select? Token.atName? with
      ⟨hfirst, hsecond⟩ | ⟨name, name', hfirst, hsecond, hname⟩
    · rw [hfirst, hsecond]
      refine .bind items ?_
      intro found found' hfound
      exact .ok (hfound.map fun _ _ hsame => congrArg some hsame)
    · rw [hfirst, hsecond]
      refine .bind ((annotationRest_agrees hname).mono wider) ?_
      intro passed passed' hpassed
      exact .ok (hpassed.map fun _ _ _ => rfl)
  · rw [hfirst, hsecond]
    exact .ok (hpassed.map fun _ _ _ => rfl)

theorem block_keeps
    (keeps : pairing.Keeps (fun value twin => unplaced value = unplaced twin) item) :
    pairing.Keeps
      (fun found twin : List α × Location => found.1.map unplaced = twin.1.map unplaced)
      (block item) := by
  intro first
  induction first using block.induct (α := α) with
  | case1 first close hclose =>
      intro second hcursors
      rcases (hcursors.take? .rightBrace).of_some hclose with ⟨twin, htwin, hboth⟩
      rw [block, hclose, block, htwin]
      exact .ok (hboth.map fun _ _ _ => rfl)
  | case2 first hnone ih =>
      intro second hcursors
      have hnoneToo := (hcursors.take? .rightBrace).of_none hnone
      rw [block, hnone, block, hnoneToo]
      refine .bind (entry_agrees (fun _ _ => id) hcursors (keeps _ _ hcursors)) ?_
      intro found found' hfound
      have hvalue : found.value.toList.map unplaced = found'.value.toList.map unplaced := by
        rw [← Option.toList_map, ← Option.toList_map, hfound.value]
      refine .bind (ih found _ hfound.after) ?_
      intro later later' hlater
      refine .ok (hlater.followedBy.map ?_)
      rintro ⟨items, close⟩ ⟨items', close'⟩ hitems
      dsimp only at hitems ⊢
      rw [List.map_append, List.map_append, hvalue, hitems]

end Blocks

/-! ## Members of messages -/

theorem field_keeps :
    pairing.Keeps (fun single twin : Field => single.unplaced = twin.unplaced) field := by
  intro first second hcursors
  unfold field
  refine .bind (ident_keeps .fieldName _ _ hcursors) ?_
  intro name name' hname
  refine .bind (fieldType_keeps.andThen hname.detach) ?_
  intro type type' htype
  refine .bind (index_keeps.andThen htype) ?_
  intro close close' hclose
  refine .ok (hclose.map ?_)
  rintro ⟨number, place⟩ ⟨number', place'⟩ hnumber
  dsimp only at hnumber
  simp only [Field.unplaced, hname.value.1, htype.value, hnumber, hcursors.pending]

theorem oneofField_keeps :
    pairing.Keeps (fun single twin : Field => single.unplaced = twin.unplaced) oneofField := by
  intro first second hcursors
  unfold oneofField
  rcases hcursors.take? .oneofWord with ⟨hfirst, hsecond⟩ | ⟨word, word', hfirst, hsecond, hword⟩
  · rw [hfirst, hsecond]
    exact field_keeps _ _ hcursors
  · rw [hfirst, hsecond]
    exact .error ⟨rfl, trivial, _, _, _, hword.value, rfl, rfl, by simp⟩

theorem oneof_agrees
    {before other : Cursor}
    {word : Advance before Location}
    {word' : Advance other Location}
    {notes notes' : Notes}
    {holds : Location → Location → Prop}
    (advances : pairing.Advances holds word word')
    (same : notes.unplaced = notes'.unplaced) :
    Agree pairing.Failures
      (pairing.Advances fun group twin : Oneof => group.unplaced = twin.unplaced)
      (oneof notes word) (oneof notes' word') := by
  unfold oneof
  refine .bind ((expect_keeps .leftBrace).andThen advances.detach) ?_
  intro opening opening' hopening
  refine .bind ((block_keeps oneofField_keeps).andThen hopening) ?_
  intro fields fields' hfields
  refine .bind (index_keeps.andThen hfields) ?_
  intro close close' hclose
  refine .ok (hclose.detach.map ?_)
  rintro ⟨number, place⟩ ⟨number', place'⟩ hnumber
  dsimp only at hnumber
  simp only [Oneof.unplaced, hfields.value, hnumber, same]

theorem member_keeps :
    pairing.Keeps (fun single twin : Member => single.unplaced = twin.unplaced) member := by
  intro first second hcursors
  unfold member
  rcases hcursors.take? .oneofWord with ⟨hfirst, hsecond⟩ | ⟨word, word', hfirst, hsecond, hword⟩
  · rw [hfirst, hsecond]
    refine .bind (field_keeps _ _ hcursors) ?_
    intro single single' hsingle
    exact .ok (hsingle.map fun _ _ hsame => congrArg Member.field hsame)
  · rw [hfirst, hsecond]
    refine .bind (oneof_agrees hword hcursors.pending) ?_
    intro group group' hgroup
    exact .ok (hgroup.map fun _ _ hsame => congrArg Member.oneof hsame)

/-! ## Members of services -/

theorem argument_keeps : pairing.Keeps Eq argument := by
  intro first second hcursors
  unfold argument
  rcases hcursors.take? .rightParen with
    ⟨hfirst, hsecond⟩ | ⟨close, close', hfirst, hsecond, hclose⟩
  · rw [hfirst, hsecond]
    dsimp only
    rcases hcursors.select? Token.ident? with
      ⟨hfirst, hsecond⟩ | ⟨found, found', hfirst, hsecond, _⟩
    · rw [hfirst, hsecond]
      exact .error (hcursors.unexpected _)
    · rw [hfirst, hsecond]
      refine .bind (dottedName_keeps .argumentType _ _ hcursors) ?_
      intro type type' htype
      refine .bind ((expect_keeps .rightParen).andThen htype) ?_
      intro close close' hclose
      exact .ok (hclose.map fun _ _ _ => htype.value)
  · rw [hfirst, hsecond]
    exact .ok (hclose.map fun _ _ _ => rfl)

theorem resultType_agrees
    {before other : Cursor}
    {arrow : Advance before Location}
    {arrow' : Advance other Location}
    {holds : Location → Location → Prop}
    (advances : pairing.Advances holds arrow arrow') :
    Agree pairing.Failures (pairing.Advances Eq) (resultType arrow) (resultType arrow') := by
  unfold resultType
  rcases advances.after.take? .streamWord with
    ⟨hfirst, hsecond⟩ | ⟨word, word', hfirst, hsecond, hword⟩
  · rw [hfirst, hsecond]
    refine .bind ((dottedName_keeps .returnType).andThen advances) ?_
    intro type type' htype
    exact .ok (htype.map fun _ _ hsame => congrArg (Result.mk · false) hsame)
  · rw [hfirst, hsecond]
    refine .bind ((dottedName_keeps .returnType).andThen hword.followedBy) ?_
    intro type type' htype
    exact .ok (htype.map fun _ _ hsame => congrArg (Result.mk · true) hsame)

theorem result_keeps :
    pairing.Keeps (fun found twin : Result × Location => found.1 = twin.1) result := by
  intro first second hcursors
  unfold result
  rcases hcursors.take? .semicolon with
    ⟨hfirst, hsecond⟩ | ⟨close, close', hfirst, hsecond, hclose⟩
  · rw [hfirst, hsecond]
    dsimp only
    rcases hcursors.take? .arrow with ⟨hfirst, hsecond⟩ | ⟨arrow, arrow', hfirst, hsecond, harrow⟩
    · rw [hfirst, hsecond]
      exact .error (hcursors.unexpected _)
    · rw [hfirst, hsecond]
      refine .bind (resultType_agrees harrow) ?_
      intro found found' hfound
      refine .bind ((expect_keeps .semicolon).andThen hfound) ?_
      intro close close' hclose
      exact .ok (hclose.map fun _ _ _ => hfound.value)
  · rw [hfirst, hsecond]
    exact .ok (hclose.map fun _ _ _ => rfl)

theorem method_keeps :
    pairing.Keeps (fun single twin : Method => single.unplaced = twin.unplaced) method := by
  intro first second hcursors
  unfold method
  refine .bind (ident_keeps .methodName _ _ hcursors) ?_
  intro name name' hname
  refine .bind ((expect_keeps .leftParen).andThen hname.detach) ?_
  intro opening opening' hopening
  refine .bind (argument_keeps.andThen hopening) ?_
  intro argument argument' hargument
  refine .bind (result_keeps.andThen hargument) ?_
  intro close close' hclose
  refine .ok (hclose.map ?_)
  rintro ⟨found, place⟩ ⟨found', place'⟩ hfound
  dsimp only at hfound
  simp only [Method.unplaced, hname.value.1, hargument.value, hfound, hcursors.pending]

end Pairing
end InterfaceSchema
