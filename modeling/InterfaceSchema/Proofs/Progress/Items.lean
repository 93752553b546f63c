import InterfaceSchema.Grammar.Message
import InterfaceSchema.Grammar.Service
import InterfaceSchema.Proofs.Progress.Parts

/-!
# Progress in the bodies of messages and services

The readers by number of fields, groups and methods follow those of cursors. Each is a sequence of
parts, so that what is shown of the parts carries over one after another.
-/

namespace InterfaceSchema
namespace Numbered

variable {page : Page} {desk : Desk} {cursor : Cursor}

/-! ## Messages -/

theorem index_follows : Follows page Grammar.index index := by
  intro desk cursor hstands
  refine (expect_follows (by simp) desk cursor hstands).bind ?_
  rintro equals _ _ ⟨_, hequals⟩
  refine (Matches.andThen equals (select_follows .integer rfl) hequals).bind ?_
  rintro number _ _ ⟨rfl, hnumber⟩
  refine (Matches.andThen number (expect_follows (by simp)) hnumber).bind ?_
  rintro close _ _ ⟨rfl, hclose⟩
  exact .ok ⟨rfl, hclose⟩

theorem field_follows : Follows page Grammar.field field := by
  intro desk cursor hstands
  unfold field
  rw [run_waiting_bind, ← hstands.pending]
  refine (ident_follows .fieldName desk cursor hstands).bind ?_
  rintro name _ _ ⟨rfl, hname⟩
  rw [run_setWaiting_bind]
  refine (Matches.andThen name.detach fieldType_follows (hname.withPending _)).bind ?_
  rintro type _ _ ⟨rfl, htype⟩
  refine (Matches.andThen type index_follows htype).bind ?_
  rintro close _ _ ⟨rfl, hclose⟩
  exact .ok ⟨rfl, hclose⟩

theorem oneofField_follows : Follows page Grammar.oneofField oneofField := by
  intro desk cursor hstands
  obtain ⟨next, hnext, hvalue, _⟩ := hstands.exists_next
  unfold oneofField Grammar.oneofField Cursor.take?
  rw [run_bind_of_ok hstands.run_peek]
  simp only [hnext, hvalue]
  by_cases htoken : cursor.peek.token = .oneofWord
  · simp only [if_pos htoken, run_fail, Advance.value_map, hvalue]
    exact .error hstands.sound
  · simp only [if_neg htoken]
    exact field_follows desk cursor hstands

/-- A group is followed from behind its first word. -/
theorem oneof_follows
    (notes : Notes)
    (word : Advance cursor Location)
    (stands : Stands page desk word.after) :
    Matches page (Arrives page) (Grammar.oneof notes word)
      (run (oneof notes word.value) page.sheet { desk with pending := Notes.none }) := by
  refine (Matches.andThen word.detach (expect_follows (by simp)) (stands.withPending _)).bind ?_
  rintro opening _ _ ⟨_, hopening⟩
  refine (Matches.andThen opening (block_follows oneofField_follows) hopening).bind ?_
  rintro fields _ _ ⟨rfl, hfields⟩
  refine (Matches.andThen fields index_follows hfields).bind ?_
  rintro close _ _ ⟨rfl, hclose⟩
  rw [run_setWaiting_bind]
  exact .ok ⟨rfl, hclose.withPending _⟩

theorem member_follows : Follows page Grammar.member member := by
  intro desk cursor hstands
  unfold member Grammar.member
  rw [run_waiting_bind, ← hstands.pending, run_bind_of_ok hstands.run_peek]
  refine hstands.take (by simp [Token.oneofWord]) ?_ ?_
  · intro word after hword harrives
    simp only [hword]
    rw [run_setWaiting_bind, ← harrives.value]
    refine (oneof_follows cursor.pending word harrives.stands).bind ?_
    rintro group _ _ ⟨rfl, hgroup⟩
    exact .ok ⟨rfl, hgroup⟩
  · intro hnone _
    simp only [hnone]
    refine (field_follows desk cursor hstands).bind ?_
    rintro single _ _ ⟨rfl, hsingle⟩
    exact .ok ⟨rfl, hsingle⟩

/-! ## Services -/

theorem argument_follows : Follows page Grammar.argument argument := by
  intro desk cursor hstands
  unfold argument Grammar.argument
  rw [run_bind_of_ok hstands.run_peek]
  refine hstands.take (by simp) ?_ ?_
  · intro close after hclose harrives
    simp only [hclose]
    exact .ok ⟨rfl, harrives.stands⟩
  · intro hnone _
    simp only [hnone]
    cases hselect : cursor.select? Token.ident? with
    | none =>
        simp only [hstands.of_select?_eq_none hselect, hstands.run_unexpected]
        exact .error hstands.sound
    | some name =>
        simp only [(hstands.of_select? hselect).1]
        refine (dottedName_follows .argumentType desk cursor hstands).bind ?_
        rintro type _ _ ⟨rfl, htype⟩
        refine (Matches.andThen type (expect_follows (by simp)) htype).bind ?_
        rintro close _ _ ⟨_, hclose⟩
        exact .ok ⟨rfl, hclose⟩

/-- What a method returns is followed from behind its arrow. -/
theorem resultType_follows
    (arrow : Advance cursor Location)
    (stands : Stands page desk arrow.after) :
    Matches page (Arrives page) (Grammar.resultType arrow)
      (run resultType page.sheet desk) := by
  unfold resultType Grammar.resultType
  rw [run_bind_of_ok stands.run_peek]
  refine stands.take (by simp [Token.streamWord]) ?_ ?_
  · intro word after hword harrives
    simp only [hword]
    have hbehind : Stands page after (arrow.followedBy word).after := harrives.stands
    refine (Matches.andThen _ (dottedName_follows .returnType) hbehind).bind ?_
    rintro type _ _ ⟨rfl, htype⟩
    exact .ok ⟨rfl, htype⟩
  · intro hnone _
    simp only [hnone]
    refine (Matches.andThen arrow (dottedName_follows .returnType) stands).bind ?_
    rintro type _ _ ⟨rfl, htype⟩
    exact .ok ⟨rfl, htype⟩

theorem result_follows : Follows page Grammar.result result := by
  intro desk cursor hstands
  unfold result Grammar.result
  rw [run_bind_of_ok hstands.run_peek]
  refine hstands.take (by simp) ?_ ?_
  · intro close after hclose harrives
    simp only [hclose]
    exact .ok ⟨by simp [harrives.value], harrives.stands⟩
  · intro hnone _
    simp only [hnone]
    refine hstands.take (by simp) ?_ ?_
    · intro arrow after harrow harrives
      simp only [harrow]
      refine (resultType_follows arrow harrives.stands).bind ?_
      rintro found _ _ ⟨rfl, hfound⟩
      refine (Matches.andThen found (expect_follows (by simp)) hfound).bind ?_
      rintro close _ _ ⟨rfl, hclose⟩
      exact .ok ⟨rfl, hclose⟩
    · intro hother _
      simp only [hother, hstands.run_unexpected]
      exact .error hstands.sound

theorem method_follows : Follows page Grammar.method method := by
  intro desk cursor hstands
  unfold method
  rw [run_waiting_bind, ← hstands.pending]
  refine (ident_follows .methodName desk cursor hstands).bind ?_
  rintro name _ _ ⟨rfl, hname⟩
  rw [run_setWaiting_bind]
  refine (Matches.andThen name.detach (expect_follows (by simp)) (hname.withPending _)).bind ?_
  rintro opening _ _ ⟨_, hopening⟩
  refine (Matches.andThen opening argument_follows hopening).bind ?_
  rintro argumentType _ _ ⟨rfl, hargument⟩
  refine (Matches.andThen argumentType result_follows hargument).bind ?_
  rintro close _ _ ⟨rfl, hclose⟩
  exact .ok ⟨rfl, hclose⟩

end Numbered
end InterfaceSchema
