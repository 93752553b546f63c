import InterfaceSchema.Proofs.Kinds.Parts

/-!
# Where the bodies of messages and services break

`Kinds.member_tells` and `Kinds.method_tells`: the readers of entries in the bodies of messages and
services tell about the rules `Kinds.member` and `Kinds.method`. A group inside a group is refused
at its first word, since no field is named like that.
-/

namespace InterfaceSchema
namespace Kinds

open Grammar

section Members

variable {cursor : Cursor} {K L : Language Kind}

/-! ## Fields and groups -/

theorem not_begins_field_oneof : ¬ Begins (field * K) [.ident "oneof"] := by
  rintro ⟨later, hlater⟩
  unfold field at hlater
  rw [List.singleton_append, mul_assoc, ident_cons_mem_named_mul] at hlater
  exact hlater.1 rfl

theorem field_tells [Possible K] (noGroup : cursor.take? .oneofWord = none) :
    Tells (Grammar.field cursor) (field * K) K := by
  have hindex : ¬ Begins (index * K) [.dot] := opens_one.mul.mul.not_begins (by simp)
  unfold Grammar.field
  refine .ident .fieldName opens_field.mul ?_
  intro name hahead
  have hfree : name.value.1 ≠ "oneof" := by
    intro hname
    rw [hname] at hahead
    exact Cursor.take?_eq_none_iff.1 noGroup _ _ hahead
  have hname : Leads cursor (field * K) name.detach.after (type * (index * K)) := by
    refine .first hahead ?_
    intro later
    unfold field
    rw [mul_assoc, mul_assoc]
    refine ident_cons_mem_named_mul.trans ?_
    simp [hfree]
  refine .bind (.andThen hname (fieldType_tells hindex)) ?_
  intro type htype
  refine .bind (.andThen htype index_tells) ?_
  intro close hclose
  exact .ok hclose

theorem oneofField_tells [Possible K] : Tells (oneofField cursor) (field * K) K := by
  unfold oneofField
  split
  · next word hword =>
    exact
      .error (refusal_breaks (Cursor.take?_ahead hword) trivial rfl not_begins_field_oneof)
  · next hnone =>
    exact field_tells hnone

theorem oneof_tells
    {word : Advance cursor Location}
    [Possible K]
    (notes : Notes)
    (leads : Leads cursor L word.after (block field * (index * K))) :
    Tells (Grammar.oneof notes word) L K := by
  have hword : Leads cursor L word.detach.after (block field * (index * K)) := leads
  unfold block at hword
  rw [mul_assoc, mul_assoc] at hword
  unfold Grammar.oneof
  refine .bind (.andThen hword (expect_tells (by rfl))) ?_
  intro opening hopening
  refine .bind (.andThen hopening (block_tells opens_field fun _ _ _ => oneofField_tells)) ?_
  intro fields hfields
  refine .bind (.andThen hfields index_tells) ?_
  intro close hclose
  exact .ok hclose

theorem member_tells [Possible K] : Tells (Grammar.member cursor) (member * K) K := by
  unfold member
  rw [add_mul]
  unfold oneof
  rw [mul_assoc, mul_assoc]
  unfold Grammar.member
  split
  · next word hword =>
    refine .bind (oneof_tells _ (take?_leads_right not_begins_field_oneof hword)) ?_
    intro group hgroup
    exact .ok hgroup
  · next hnone =>
    refine .narrow (.left opens_one.mul (not_meets_of_take? hnone rfl)) ?_
    refine .bind (field_tells hnone) ?_
    intro single hsingle
    exact .ok hsingle

/-! ## Methods -/

theorem argument_tells [Possible K] :
    Tells (Grammar.argument cursor) ((1 + dotted) * (one .rightParen * K)) K := by
  rw [one_add_mul]
  unfold Grammar.argument
  split
  · next close hclose =>
    exact .ok (take?_leads_left (opens_dotted.mul.not_begins (by simp [Token.kind, IsName])) hclose)
  · next hnone =>
    refine .narrow (.right opens_one.mul (not_meets_of_take? hnone rfl)) ?_
    split
    · next hnoName =>
      have haway := not_meets_of_select? (fun _ => isName_iff.1) hnoName
      exact .error (unexpected_breaks _ opens_dotted.mul haway)
    · refine .bind (dottedName_tells .argumentType (opens_one.mul.not_begins (by simp))) ?_
      intro type htype
      refine .bind (.andThen htype (expect_tells (by rfl))) ?_
      intro close hclose
      exact .ok hclose

theorem resultType_tells
    {arrow : Advance cursor Location}
    [Possible K]
    (stops : ¬ Begins K [.dot])
    (leads : Leads cursor L arrow.after (resultType * K)) :
    Tells (Grammar.resultType arrow) L K := by
  unfold resultType at leads
  rw [add_mul, mul_assoc, mul_assoc] at leads
  unfold Grammar.resultType
  split
  · next word hword =>
    have hother :
        ¬ Begins (named (fun name => name ≠ "stream") * (dottedTail * K)) [.ident "stream"] := by
      rintro ⟨later, hlater⟩
      exact (ident_cons_mem_named_mul.1 hlater).1 rfl
    have hleads : Leads cursor L (arrow.followedBy word).after _ :=
      leads.trans (take?_leads_left hother hword)
    refine .bind (.andThen hleads (dottedName_tells .returnType stops)) ?_
    intro type htype
    exact .ok htype
  · next hnone =>
    have hleads := leads.trans (.right opens_one.mul (not_meets_of_take? hnone rfl))
    have hfits (name : String) (place : Location) (rest : List Lexeme)
        (hahead : arrow.after.ahead = ⟨.ident name, place⟩ :: rest) :
        name ≠ "stream" := by
      rintro rfl
      exact Cursor.take?_eq_none_iff.1 hnone _ _ hahead
    refine .bind (.andThen hleads (dottedName_tells_of_fits .returnType stops hfits)) ?_
    intro type htype
    exact .ok htype

theorem result_tells [Possible K] : Tells (Grammar.result cursor) (result * K) K := by
  unfold result
  rw [mul_assoc, one_add_mul, mul_assoc]
  unfold Grammar.result
  split
  · next close hclose =>
    exact .ok (take?_leads_left (opens_one.mul.not_begins (by simp [Token.kind])) hclose)
  · next hnone =>
    refine .narrow (.right opens_one.mul (not_meets_of_take? hnone rfl)) ?_
    split
    · next hnoArrow =>
      exact .error (unexpected_breaks _ opens_one.mul (not_meets_of_take? hnoArrow rfl))
    · next arrow harrow =>
      refine .bind (resultType_tells (opens_one.mul.not_begins (by simp)) (take?_leads harrow)) ?_
      intro found hfound
      refine .bind (.andThen hfound (expect_tells (by rfl))) ?_
      intro close hclose
      exact .ok hclose

theorem method_tells [Possible K] : Tells (Grammar.method cursor) (method * K) K := by
  unfold method argument
  rw [mul_assoc, mul_assoc, mul_assoc, mul_assoc]
  unfold Grammar.method
  refine .bind (ident_tells .methodName) ?_
  intro name hname
  have hname : Leads cursor _ name.detach.after _ := hname
  refine .bind (.andThen hname (expect_tells (by rfl))) ?_
  intro opening hopening
  refine .bind (.andThen hopening argument_tells) ?_
  intro argument hargument
  refine .bind (.andThen hargument result_tells) ?_
  intro close hclose
  exact .ok hclose

end Members

end Kinds
end InterfaceSchema
