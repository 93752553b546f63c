import InterfaceSchema.Grammar.FieldType
import InterfaceSchema.Proofs.Reading.Cursor

/-!
# Reading names and types

* `Grammar.dottedName_reads`: the reader of dotted names accepts just the phrases `DottedName`.
* `Grammar.fieldType_reads`: the reader of types accepts just the phrases `TypePhrase`.

Both go on as long as dots follow, so a phrase is read to its end only where no dot comes next.
-/

namespace InterfaceSchema
namespace Grammar

/-! ## Dotted names -/

section DottedRest

variable {cursor : Cursor} {notes : Notes}

theorem dottedRest_sound
    {name result : Advance cursor String}
    {first : List Lexeme}
    (covers : name.Covers first ⟨false, notes⟩)
    (succeeds : dottedRest name = .ok result) :
    ∃ taken text,
      DottedTail taken text ∧
        result.value = name.value ++ text ∧
        result.Covers (first ++ taken) ⟨false, notes⟩ := by
  induction name using dottedRest.induct generalizing first with
  | case1 name hnone =>
      rw [dottedRest, hnone] at succeeds
      simp only [Except.ok.injEq] at succeeds
      subst succeeds
      exact ⟨[], "", .nil, by simp, by simpa using covers⟩
  | case2 name dot hdot ih =>
      rw [dottedRest, hdot] at succeeds
      simp only [bind_eq_ok_iff] at succeeds
      obtain ⟨part, hpart, hlater⟩ := succeeds
      have hdotCovers := Cursor.take?_covers (by simp) hdot
      obtain ⟨_, rfl, hpartCovers⟩ := (Cursor.ident_reads .identifier).sound hpart
      rw [hdotCovers.pending, covers.pending] at hpartCovers
      have hcovers :=
        (covers.followedBy (hdotCovers.followedBy hpartCovers)).map
          fun found => name.value ++ "." ++ found.1
      obtain ⟨taken, text, htail, hvalue, hresult⟩ := ih part hcovers hlater
      refine ⟨_, _, .cons part.value.1 dot.value part.value.2 htail, ?_, ?_⟩
      · rw [hvalue]
        simp [Advance.map, Advance.followedBy, String.append_assoc]
      · simpa using hresult

theorem dottedRest_complete
    {name : Advance cursor String}
    {first taken rest : List Lexeme}
    {text : String}
    (covers : name.Covers first ⟨false, notes⟩)
    (tail : DottedTail taken text)
    (stops : NoToken .dot rest)
    (ahead : cursor.ahead = first ++ (taken ++ rest)) :
    ∃ result,
      dottedRest name = .ok result ∧
        result.value = name.value ++ text ∧
        result.Covers (first ++ taken) ⟨false, notes⟩ := by
  induction tail generalizing name first with
  | nil =>
      have hrest := covers.rest_eq ahead
      have hnone : name.after.take? .dot = none := by
        rw [Cursor.take?_eq_none_iff, hrest]
        exact stops
      refine ⟨name, ?_, by simp, by simpa using covers⟩
      rw [dottedRest, hnone]
  | @cons more text part dot place later ih =>
      have hrest := covers.rest_eq ahead
      obtain ⟨found, hfound, rfl⟩ := Cursor.exists_take? hrest
      have hdotCovers := Cursor.take?_covers (by simp) hfound
      have hafter := hdotCovers.rest_eq hrest
      obtain ⟨name', hname, hvalue, hpartCovers⟩ :=
        (Cursor.ident_reads .identifier).complete _ _ (part, place) rfl trivial hafter
      rw [hdotCovers.pending, covers.pending] at hpartCovers
      have hcovers :=
        (covers.followedBy (hdotCovers.followedBy hpartCovers)).map
          fun found => name.value ++ "." ++ found.1
      obtain ⟨result, hresult, htext, hlast⟩ := ih hcovers (by simpa using ahead)
      refine ⟨result, ?_, ?_, by simpa using hlast⟩
      · rw [dottedRest, hfound]
        simp only [bind_eq_ok_iff]
        exact ⟨name', hname, hresult⟩
      · rw [htext]
        simp [Advance.map, Advance.followedBy, hvalue, String.append_assoc]

end DottedRest

/-- Reading a dotted name. -/
theorem dottedName_reads (expected : Expected) :
    Reads (fun cursor => dottedName cursor expected)
      (fun _ => DottedName) id (NoToken .dot) where
  sound := by
    intro cursor advance hsucceeds
    simp only [dottedName, bind_eq_ok_iff] at hsucceeds
    obtain ⟨first, hfirst, hrest⟩ := hsucceeds
    obtain ⟨_, rfl, hcovers⟩ := (Cursor.ident_reads expected).sound hfirst
    obtain ⟨taken, text, htail, hvalue, hresult⟩ :=
      dottedRest_sound (hcovers.map Prod.fst) hrest
    refine ⟨_, ?_, hresult⟩
    rw [hvalue]
    exact .mk first.value.1 first.value.2 htail
  complete := by
    intro cursor taken rest value hspelled hstops hahead
    cases hspelled with
    | mk first place tail =>
        obtain ⟨found, hfound, hvalue, hcovers⟩ :=
          (Cursor.ident_reads expected).complete _ _ (first, place) rfl trivial hahead
        obtain ⟨result, hresult, htext, hlast⟩ :=
          dottedRest_complete (hcovers.map Prod.fst) tail hstops (by simpa using hahead)
        refine ⟨result, ?_, ?_, hlast⟩
        · simp only [dottedName, bind_eq_ok_iff]
          exact ⟨found, hfound, hresult⟩
        · rw [htext]
          simp [Advance.map, hvalue]

/-! ## Types -/

/-- Reading the type of the keys of a map. -/
theorem mapKey_reads :
    Reads mapKey
      (fun _ taken key =>
        key.isMapKey = true ∧
          ∃ name place, Primitive.ofName? name = some key ∧ taken = [⟨.ident name, place⟩])
      id Anything where
  sound := by
    intro cursor advance hsucceeds
    simp only [mapKey, bind_eq_ok_iff] at hsucceeds
    obtain ⟨name, hname, hkey⟩ := hsucceeds
    obtain ⟨_, rfl, hcovers⟩ := (Cursor.ident_reads .mapKey).sound hname
    split at hkey
    · next key hfilter =>
      rw [Option.filter_eq_some_iff] at hfilter
      simp only [Except.ok.injEq] at hkey
      subst hkey
      exact ⟨_, ⟨hfilter.2, _, _, hfilter.1, rfl⟩, hcovers.map _⟩
    · simp at hkey
  complete := by
    rintro cursor taken rest key ⟨hallowed, name, place, hname, rfl⟩ hstops hahead
    obtain ⟨found, hfound, hvalue, hcovers⟩ :=
      (Cursor.ident_reads .mapKey).complete _ _ (name, place) rfl hstops hahead
    refine ⟨found.map fun _ => key, ?_, rfl, hcovers.map _⟩
    simp only [mapKey, bind_eq_ok_iff]
    refine ⟨found, hfound, ?_⟩
    simp [hvalue, hname, Option.filter, hallowed]

theorem fieldType_sound
    {cursor : Cursor}
    {result : Advance cursor FieldType}
    (succeeds : fieldType cursor = .ok result) :
    ∃ taken,
      TypePhrase taken result.value ∧ result.Covers taken ⟨false, cursor.pending⟩ := by
  induction cursor using fieldType.induct with
  | case1 cursor ih =>
    rw [fieldType] at succeeds
    simp only [bind_eq_ok_iff] at succeeds
    obtain ⟨name, hname, hbranch⟩ := succeeds
    obtain ⟨_, rfl, hcovers⟩ := (Cursor.ident_reads .fieldType).sound hname
    split at hbranch
    · next type htype =>
      simp only [Except.ok.injEq] at hbranch
      subst hbranch
      exact ⟨_, .primitive name.value.2 htype, hcovers.map _⟩
    · next hnoPrimitive =>
      split at hbranch
      · next harray =>
        simp only [bind_eq_ok_iff, Except.ok.injEq] at hbranch
        obtain ⟨opening, hopening, element, helement, close, hclose, rfl⟩ := hbranch
        obtain ⟨_, rfl, hopened⟩ :=
          (Cursor.expect_reads (by simp)).andThen_sound hcovers hopening
        obtain ⟨inner, hinner, hinnerCovers⟩ := ih opening helement
        rw [hopened.pending] at hinnerCovers
        obtain ⟨_, rfl, hclosed⟩ :=
          (Cursor.expect_reads (by simp)).andThen_sound (hopened.followedBy hinnerCovers) hclose
        rw [harray] at hclosed
        refine ⟨_, .array name.value.2 opening.value close.value hinner, ?_⟩
        simpa using hclosed.map _
      · next hnoArray =>
        split at hbranch
        · next hmap =>
          simp only [bind_eq_ok_iff, Except.ok.injEq] at hbranch
          obtain ⟨opening, hopening, key, hkey, comma, hcomma, value, hvalue, close, hclose, rfl⟩ :=
            hbranch
          obtain ⟨_, rfl, hopened⟩ :=
            (Cursor.expect_reads (by simp)).andThen_sound hcovers hopening
          obtain ⟨_, ⟨hallowed, keyName, place, hkeyName, rfl⟩, hkeyCovers⟩ :=
            mapKey_reads.andThen_sound hopened hkey
          obtain ⟨_, rfl, hcommaCovers⟩ :=
            (Cursor.expect_reads (by simp)).andThen_sound hkeyCovers hcomma
          obtain ⟨inner, hinner, hinnerCovers⟩ := ih comma hvalue
          rw [hcommaCovers.pending] at hinnerCovers
          obtain ⟨_, rfl, hclosed⟩ :=
            (Cursor.expect_reads (by simp)).andThen_sound
              (hcommaCovers.followedBy hinnerCovers) hclose
          rw [hmap] at hclosed
          refine
            ⟨_, .map name.value.2 opening.value place comma.value close.value
              hkeyName hallowed hinner, ?_⟩
          simpa using hclosed.map _
        · next hnoMap =>
          simp only [bind_eq_ok_iff, Except.ok.injEq] at hbranch
          obtain ⟨reference, hreference, rfl⟩ := hbranch
          obtain ⟨taken, text, htail, hvalue, hresult⟩ :=
            dottedRest_sound (hcovers.map Prod.fst) hreference
          refine ⟨_, ?_, hresult.map _⟩
          simp only [Advance.map] at hvalue ⊢
          rw [hvalue]
          exact .reference name.value.2 hnoPrimitive hnoArray hnoMap htail

theorem mapWord_ne_arrayWord : Token.ident "map" ≠ Token.arrayWord := by
  decide

theorem fieldType_complete
    {cursor : Cursor}
    {taken rest : List Lexeme}
    {type : FieldType}
    (spelled : TypePhrase taken type)
    (stops : NoToken .dot rest)
    (ahead : cursor.ahead = taken ++ rest) :
    ∃ result,
      fieldType cursor = .ok result ∧
        result.value = type ∧ result.Covers taken ⟨false, cursor.pending⟩ := by
  induction spelled generalizing cursor rest with
  | @primitive name type place spelled =>
      obtain ⟨found, hfound, hvalue, hcovers⟩ :=
        (Cursor.ident_reads .fieldType).complete _ _ (name, place) rfl trivial ahead
      refine ⟨found.map fun _ => .primitive type, ?_, rfl, hcovers.map _⟩
      rw [fieldType]
      simp only [bind_eq_ok_iff]
      refine ⟨found, hfound, ?_⟩
      rw [hvalue, spelled]
  | @array inner element word opening closing spelled ih =>
      simp only [Token.arrayWord] at ahead ⊢
      obtain ⟨found, hfound, hvalue, hcovers⟩ :=
        (Cursor.ident_reads .fieldType).complete _ _ ("array", word) rfl trivial ahead
      obtain ⟨opened, hopened, _, hopenedCovers⟩ :=
        (Cursor.expect_reads (by simp)).andThen_complete hcovers
          [⟨.leftAngle, opening⟩] _ _ rfl trivial (by simpa using ahead)
      have hstop : NoToken .dot (⟨.rightAngle, closing⟩ :: rest) := noToken_cons (by simp)
      obtain ⟨inside, hinside, helement, hinsideCovers⟩ :=
        ih hstop (hopenedCovers.rest_eq (by simpa using ahead))
      rw [hopenedCovers.pending] at hinsideCovers
      obtain ⟨closed, hclosed, _, hclosedCovers⟩ :=
        (Cursor.expect_reads (by simp)).andThen_complete
          (hopenedCovers.followedBy hinsideCovers)
          [⟨.rightAngle, closing⟩] _ _ rfl trivial (by simpa using ahead)
      refine ⟨closed.map fun _ => .array inside.value, ?_, ?_, ?_⟩
      · rw [fieldType]
        simp only [bind_eq_ok_iff]
        refine ⟨found, hfound, ?_⟩
        have hword : Token.ident "array" = Token.arrayWord := rfl
        simp only [hvalue, Primitive.ofName?_array, if_pos hword, bind_eq_ok_iff]
        exact ⟨opened, hopened, inside, hinside, closed, hclosed, rfl⟩
      · simp [Advance.map, helement]
      · simpa using hclosedCovers.map _
  | @map inner keyName key value word opening place comma closing keySpelled allowed spelled ih =>
      simp only [Token.mapWord] at ahead ⊢
      obtain ⟨found, hfound, hvalue, hcovers⟩ :=
        (Cursor.ident_reads .fieldType).complete _ _ ("map", word) rfl trivial ahead
      obtain ⟨opened, hopened, _, hopenedCovers⟩ :=
        (Cursor.expect_reads (by simp)).andThen_complete hcovers
          [⟨.leftAngle, opening⟩] _ _ rfl trivial (by simpa using ahead)
      obtain ⟨keyRead, hkeyRead, hkey, hkeyCovers⟩ :=
        mapKey_reads.andThen_complete hopenedCovers
          [⟨.ident keyName, place⟩] _ _
          ⟨allowed, keyName, place, keySpelled, rfl⟩ trivial (by simpa using ahead)
      obtain ⟨parted, hparted, _, hpartedCovers⟩ :=
        (Cursor.expect_reads (by simp)).andThen_complete hkeyCovers
          [⟨.comma, comma⟩] _ _ rfl trivial (by simpa using ahead)
      have hstop : NoToken .dot (⟨.rightAngle, closing⟩ :: rest) := noToken_cons (by simp)
      obtain ⟨inside, hinside, helement, hinsideCovers⟩ :=
        ih hstop (hpartedCovers.rest_eq (by simpa using ahead))
      rw [hpartedCovers.pending] at hinsideCovers
      obtain ⟨closed, hclosed, _, hclosedCovers⟩ :=
        (Cursor.expect_reads (by simp)).andThen_complete
          (hpartedCovers.followedBy hinsideCovers)
          [⟨.rightAngle, closing⟩] _ _ rfl trivial (by simpa using ahead)
      refine ⟨closed.map fun _ => .map keyRead.value inside.value, ?_, ?_, ?_⟩
      · rw [fieldType]
        simp only [bind_eq_ok_iff]
        refine ⟨found, hfound, ?_⟩
        have hword : Token.ident "map" = Token.mapWord := rfl
        simp only [hvalue, Primitive.ofName?_map, if_neg mapWord_ne_arrayWord, if_pos hword,
          bind_eq_ok_iff]
        exact
          ⟨opened, hopened, keyRead, hkeyRead, parted, hparted, inside, hinside, closed, hclosed,
            rfl⟩
      · simp [Advance.map, helement, hkey]
      · simpa using hclosedCovers.map _
  | @reference more text first place noPrimitive noArray noMap tail =>
      obtain ⟨found, hfound, hvalue, hcovers⟩ :=
        (Cursor.ident_reads .fieldType).complete _ _ (first, place) rfl trivial ahead
      obtain ⟨result, hresult, htext, hlast⟩ :=
        dottedRest_complete (hcovers.map Prod.fst) tail stops (by simpa using ahead)
      refine ⟨result.map .reference, ?_, ?_, hlast.map _⟩
      · rw [fieldType]
        simp only [bind_eq_ok_iff]
        refine ⟨found, hfound, ?_⟩
        simp only [hvalue, noPrimitive, if_neg noArray, if_neg noMap, bind_eq_ok_iff]
        exact ⟨result, hresult, rfl⟩
      · simp [Advance.map, htext, hvalue]

/-- Reading a type. -/
theorem fieldType_reads :
    Reads fieldType (fun _ => TypePhrase) id (NoToken .dot) where
  sound := fieldType_sound
  complete _ _ _ := fieldType_complete

end Grammar
end InterfaceSchema
