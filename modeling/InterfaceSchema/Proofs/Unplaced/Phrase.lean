import InterfaceSchema.Proofs.Unplaced.Node

/-!
# Phrases at other places

What a phrase spells depends on its tokens alone, and not on the places at which they stand.

* `SameTokens`: lexemes with the same tokens as others.
* `Movable`: a kind of phrase that is spelled by the same tokens at other places too, and then with
  the same value but for locations. Fields, groups, methods and declarations are such.
* `Entries.moved`, `ImportBlock.moved`, `SchemaPhrase.moved`: the same for larger parts, up to a
  whole schema.
* `DeclarationPhrase.moved`: other notes may stand before a declaration, too.
-/

namespace InterfaceSchema

/-! ## Lexemes -/

/-- Lexemes with the same tokens, at whatever places. -/
def SameTokens (taken elsewhere : List Lexeme) : Prop :=
  taken.map Lexeme.token = elsewhere.map Lexeme.token

namespace SameTokens

variable {taken first second elsewhere : List Lexeme}

theorem nil_iff : SameTokens [] elsewhere ↔ elsewhere = [] := by
  unfold SameTokens
  rw [List.map_nil, eq_comm, List.map_eq_nil_iff]

theorem cons_iff
    {lexeme : Lexeme} :
    SameTokens (lexeme :: taken) elsewhere ↔
      ∃ other later, elsewhere = ⟨lexeme.token, other⟩ :: later ∧ SameTokens taken later := by
  unfold SameTokens
  rw [List.map_cons, eq_comm, List.map_eq_cons_iff]
  constructor
  · rintro ⟨⟨found, other⟩, later, hlexemes, rfl, hlater⟩
    exact ⟨other, later, hlexemes, hlater.symm⟩
  · rintro ⟨other, later, hlexemes, hlater⟩
    exact ⟨_, later, hlexemes, rfl, hlater.symm⟩

theorem append_iff :
    SameTokens (first ++ second) elsewhere ↔
      ∃ front back,
        elsewhere = front ++ back ∧ SameTokens first front ∧ SameTokens second back := by
  unfold SameTokens
  rw [List.map_append, eq_comm, List.map_eq_append_iff]
  constructor
  · rintro ⟨front, back, hlexemes, hfront, hback⟩
    exact ⟨front, back, hlexemes, hfront.symm, hback.symm⟩
  · rintro ⟨front, back, hlexemes, hfront, hback⟩
    exact ⟨front, back, hlexemes, hfront.symm, hback.symm⟩

/-- What holds of the tokens of lexemes holds of the same tokens elsewhere. -/
theorem forall_token
    (same : SameTokens taken elsewhere)
    {p : Token → Prop}
    (holds : ∀ lexeme ∈ taken, p lexeme.token) :
    ∀ lexeme ∈ elsewhere, p lexeme.token := by
  intro lexeme hmember
  have htoken : lexeme.token ∈ taken.map Lexeme.token := by
    rw [same]
    exact List.mem_map_of_mem hmember
  rcases List.mem_map.1 htoken with ⟨other, hother, hsame⟩
  rw [← hsame]
  exact holds other hother

end SameTokens

/-! ## Names, types and indexes -/

section Parts

variable {taken elsewhere : List Lexeme}

theorem DottedTail.moved
    {text : String}
    (tail : DottedTail taken text)
    (same : SameTokens taken elsewhere) :
    DottedTail elsewhere text := by
  induction tail generalizing elsewhere with
  | nil =>
      rw [SameTokens.nil_iff.1 same]
      exact .nil
  | cons part dot place later ih =>
      simp only [SameTokens.cons_iff] at same
      rcases same with ⟨dot', _, rfl, place', _, rfl, hrest⟩
      exact .cons part dot' place' (ih hrest)

theorem DottedName.moved
    {name : String}
    (spelled : DottedName taken name)
    (same : SameTokens taken elsewhere) :
    DottedName elsewhere name := by
  cases spelled with
  | mk first place tail =>
      simp only [SameTokens.cons_iff] at same
      rcases same with ⟨place', _, rfl, hrest⟩
      exact .mk first place' (tail.moved hrest)

theorem TypePhrase.moved
    {type : FieldType}
    (spelled : TypePhrase taken type)
    (same : SameTokens taken elsewhere) :
    TypePhrase elsewhere type := by
  induction spelled generalizing elsewhere with
  | primitive place spelled =>
      simp only [SameTokens.cons_iff, SameTokens.nil_iff] at same
      rcases same with ⟨place', _, rfl, rfl⟩
      exact .primitive place' spelled
  | array word opening closing spelled ih =>
      simp only [SameTokens.cons_iff, SameTokens.append_iff, SameTokens.nil_iff] at same
      rcases same with
        ⟨word', _, rfl, opening', _, rfl, inner, _, rfl, hinner, closing', _, rfl, rfl⟩
      exact .array word' opening' closing' (ih hinner)
  | map word opening place comma closing keySpelled allowed spelled ih =>
      simp only [SameTokens.cons_iff, SameTokens.append_iff, SameTokens.nil_iff] at same
      rcases same with
        ⟨word', _, rfl, opening', _, rfl, place', _, rfl, comma', _, rfl, inner, _, rfl, hinner,
         closing', _, rfl, rfl⟩
      exact .map word' opening' place' comma' closing' keySpelled allowed (ih hinner)
  | reference place noPrimitive noArray noMap tail =>
      simp only [SameTokens.cons_iff] at same
      rcases same with ⟨place', _, rfl, hrest⟩
      exact .reference place' noPrimitive noArray noMap (tail.moved hrest)

theorem IndexPhrase.moved
    {number : UInt64}
    {stop : Location}
    (indexed : IndexPhrase taken number stop)
    (same : SameTokens taken elsewhere) :
    ∃ stop', IndexPhrase elsewhere number stop' := by
  cases indexed with
  | mk number equals digits stop =>
      simp only [SameTokens.cons_iff, SameTokens.nil_iff] at same
      rcases same with ⟨equals', _, rfl, digits', _, rfl, stop', _, rfl, rfl⟩
      exact ⟨stop', .mk number equals' digits' stop'⟩

theorem ArgumentPhrase.moved
    {name : String}
    (spelled : ArgumentPhrase taken name)
    (same : SameTokens taken elsewhere) :
    ArgumentPhrase elsewhere name := by
  cases spelled with
  | none =>
      rw [SameTokens.nil_iff.1 same]
      exact .none
  | named spelled =>
      exact .named (spelled.moved same)

theorem ResultPhrase.moved
    {type : String}
    {isStream : Bool}
    (spelled : ResultPhrase taken type isStream)
    (same : SameTokens taken elsewhere) :
    ResultPhrase elsewhere type isStream := by
  cases spelled with
  | none =>
      rw [SameTokens.nil_iff.1 same]
      exact .none
  | single arrow place noStream tail =>
      simp only [SameTokens.cons_iff] at same
      rcases same with ⟨arrow', _, rfl, place', _, rfl, hrest⟩
      exact .single arrow' place' noStream (tail.moved hrest)
  | stream arrow word spelled =>
      simp only [SameTokens.cons_iff] at same
      rcases same with ⟨arrow', _, rfl, word', _, rfl, hrest⟩
      exact .stream arrow' word' (spelled.moved hrest)

/-! ## Annotations -/

theorem IsRun.moved
    (whole : IsRun taken)
    (same : SameTokens taken elsewhere) :
    IsRun elsewhere ∧ runValue elsewhere = runValue taken := by
  refine ⟨⟨?_, same.forall_token whole.2⟩, ?_⟩
  · rintro rfl
    exact whole.1 (List.map_eq_nil_iff.1 same)
  · have hvalues :
        (taken.map Lexeme.token).map Token.value = (elsewhere.map Lexeme.token).map Token.value :=
      congrArg (List.map Token.value) same
    rw [List.map_map, List.map_map] at hvalues
    exact congrArg (String.intercalate " ") hvalues.symm

theorem ValueList.moved
    {values : List String}
    (listed : ValueList taken values)
    (same : SameTokens taken elsewhere) :
    ValueList elsewhere values := by
  induction listed generalizing elsewhere with
  | nil =>
      rw [SameTokens.nil_iff.1 same]
      exact .nil
  | last whole =>
      rcases whole.moved same with ⟨hrun, hvalue⟩
      rw [← hvalue]
      exact .last hrun
  | comma place whole later ih =>
      simp only [SameTokens.cons_iff, SameTokens.append_iff] at same
      rcases same with ⟨run, _, rfl, hrun, place', _, rfl, hrest⟩
      rcases whole.moved hrun with ⟨hwhole, hvalue⟩
      rw [← hvalue]
      exact .comma place' hwhole (ih hrest)

theorem AnnotationPhrase.moved
    {mark : AnnotationMark}
    (marked : AnnotationPhrase taken mark)
    (same : SameTokens taken elsewhere) :
    ∃ again, AnnotationPhrase elsewhere again ∧ again.unplaced = mark.unplaced := by
  cases marked with
  | bare name place =>
      simp only [SameTokens.cons_iff, SameTokens.nil_iff] at same
      rcases same with ⟨place', _, rfl, rfl⟩
      exact ⟨_, .bare name place', rfl⟩
  | list name start opening closing listed =>
      simp only [SameTokens.cons_iff, SameTokens.append_iff, SameTokens.nil_iff] at same
      rcases same with
        ⟨start', _, rfl, opening', _, rfl, inner, _, rfl, hinner, closing', _, rfl, rfl⟩
      exact ⟨_, .list name start' opening' closing' (listed.moved hinner), rfl⟩

end Parts

/-! ## Between items -/

section Fillers

variable {taken elsewhere : List Lexeme} {margin next other : Margin}

/-- A margin without the places of the annotations that wait. -/
def Margin.unplaced (margin : Margin) : Margin :=
  ⟨margin.atLineStart, margin.waiting.unplaced⟩

theorem Margin.unplaced_eq_iff :
    other.unplaced = margin.unplaced ↔
      other.atLineStart = margin.atLineStart ∧
        other.waiting.comments = margin.waiting.comments ∧
        other.waiting.annotations.map AnnotationMark.unplaced =
          margin.waiting.annotations.map AnnotationMark.unplaced := by
  simp [Margin.unplaced, Notes.unplaced]

theorem Trivia.moved
    (passed : Trivia margin taken next)
    (same : SameTokens taken elsewhere)
    (alike : other.unplaced = margin.unplaced) :
    ∃ last, Trivia other elsewhere last ∧ last.unplaced = next.unplaced := by
  rcases Margin.unplaced_eq_iff.1 alike with ⟨hstart, hcomments, hmarks⟩
  cases passed with
  | newline place =>
      simp only [SameTokens.cons_iff, SameTokens.nil_iff] at same
      rcases same with ⟨place', _, rfl, rfl⟩
      refine ⟨_, .newline other place', Margin.unplaced_eq_iff.2 ?_⟩
      rw [hstart]
      by_cases hempty : margin.atLineStart = true
      · simp [hempty]
      · simp [hempty, hcomments, hmarks]
  | comment text place =>
      simp only [SameTokens.cons_iff, SameTokens.nil_iff] at same
      rcases same with ⟨place', _, rfl, rfl⟩
      refine ⟨_, .comment other text place', Margin.unplaced_eq_iff.2 ⟨rfl, ?_, hmarks⟩⟩
      rw [hstart, hcomments]

theorem Filler.moved
    (passed : Filler margin taken next)
    (same : SameTokens taken elsewhere)
    (alike : other.unplaced = margin.unplaced) :
    ∃ last, Filler other elsewhere last ∧ last.unplaced = next.unplaced := by
  cases passed with
  | trivia passed =>
      rcases passed.moved same alike with ⟨last, hlast, hsame⟩
      exact ⟨last, .trivia hlast, hsame⟩
  | noted _ marked =>
      rcases Margin.unplaced_eq_iff.1 alike with ⟨_, hcomments, hmarks⟩
      rcases marked.moved same with ⟨again, hagain, hmark⟩
      refine ⟨_, .noted other hagain, Margin.unplaced_eq_iff.2 ⟨rfl, hcomments, ?_⟩⟩
      simp [hmarks, hmark]

end Fillers

section Movable

variable {α : Type} {Item : Notes → List Lexeme → α → Prop} {unplaced : α → α}

/-- What a phrase spells does not depend on the places at which it stands, nor on those of the
annotations that wait before it. -/
def Movable (Item : Notes → List Lexeme → α → Prop) (unplaced : α → α) : Prop :=
  ∀ ⦃notes others : Notes⦄ ⦃taken elsewhere : List Lexeme⦄ ⦃value : α⦄,
    Item notes taken value →
      SameTokens taken elsewhere →
        others.unplaced = notes.unplaced →
          ∃ again, Item others elsewhere again ∧ unplaced again = unplaced value

/-- The items of a body are spelled at other places too. -/
theorem Entries.moved
    (movable : Movable Item unplaced)
    {margin other : Margin}
    {body elsewhere : List Lexeme}
    {items : List α}
    (entries : Entries Item margin body items)
    (same : SameTokens body elsewhere)
    (alike : other.unplaced = margin.unplaced) :
    ∃ again, Entries Item other elsewhere again ∧ again.map unplaced = items.map unplaced := by
  induction entries generalizing other elsewhere with
  | nil margin =>
      rw [SameTokens.nil_iff.1 same]
      exact ⟨[], .nil other, rfl⟩
  | filler passed later ih =>
      simp only [SameTokens.append_iff] at same
      rcases same with ⟨front, back, rfl, hfront, hback⟩
      rcases passed.moved hfront alike with ⟨next, hnext, hmargin⟩
      rcases ih hback hmargin with ⟨again, hagain, hitems⟩
      exact ⟨again, .filler hnext hagain, hitems⟩
  | item spelled later ih =>
      simp only [SameTokens.append_iff] at same
      rcases same with ⟨front, back, rfl, hfront, hback⟩
      rcases movable spelled hfront (congrArg Margin.waiting alike) with ⟨value, hvalue, hsame⟩
      rcases ih hback rfl with ⟨again, hagain, hitems⟩
      refine ⟨value :: again, .item hvalue hagain, ?_⟩
      rw [List.map_cons, List.map_cons, hsame, hitems]

end Movable

/-! ## Items -/

theorem FieldPhrase.movable : Movable FieldPhrase Field.unplaced := by
  intro notes others taken elsewhere value spelled same alike
  cases spelled with
  | mk start noGroup typed indexed =>
      simp only [SameTokens.cons_iff, SameTokens.append_iff] at same
      rcases same with ⟨start', _, rfl, front, back, rfl, hfront, hback⟩
      rcases indexed.moved hback with ⟨stop', hindexed⟩
      refine ⟨_, .mk start' noGroup (typed.moved hfront) hindexed, ?_⟩
      simp [Field.unplaced, alike]

theorem GroupPhrase.movable : Movable GroupPhrase Oneof.unplaced := by
  intro notes others taken elsewhere value spelled same alike
  cases spelled with
  | mk start opening closing entries indexed =>
      simp only [SameTokens.cons_iff, SameTokens.append_iff] at same
      rcases same with
        ⟨start', _, rfl, opening', _, rfl, body, _, rfl, hbody, closing', _, rfl, hrest⟩
      rcases entries.moved FieldPhrase.movable hbody rfl with ⟨fields, hentries, hfields⟩
      rcases indexed.moved hrest with ⟨stop', hindexed⟩
      refine ⟨_, .mk start' opening' closing' hentries hindexed, ?_⟩
      simp [Oneof.unplaced, hfields, alike]

theorem MemberPhrase.movable : Movable MemberPhrase Member.unplaced := by
  intro notes others taken elsewhere value spelled same alike
  cases spelled with
  | field spelled =>
      rcases FieldPhrase.movable spelled same alike with ⟨again, hagain, hsame⟩
      exact ⟨.field again, .field hagain, congrArg Member.field hsame⟩
  | oneof spelled =>
      rcases GroupPhrase.movable spelled same alike with ⟨again, hagain, hsame⟩
      exact ⟨.oneof again, .oneof hagain, congrArg Member.oneof hsame⟩

theorem MethodPhrase.movable : Movable MethodPhrase Method.unplaced := by
  intro notes others taken elsewhere value spelled same alike
  cases spelled with
  | mk name start opening closing stop argumentSpelled resultSpelled =>
      simp only [SameTokens.cons_iff, SameTokens.append_iff, SameTokens.nil_iff] at same
      rcases same with
        ⟨start', _, rfl, opening', _, rfl, argument, _, rfl, hargument, closing', _, rfl, result,
         _, rfl, hresult, stop', _, rfl, rfl⟩
      refine
        ⟨_, .mk name start' opening' closing' stop' (argumentSpelled.moved hargument)
          (resultSpelled.moved hresult), ?_⟩
      simp [Method.unplaced, alike]

/-! ## Declarations -/

section Declared

variable {notes : Notes} {taken elsewhere : List Lexeme}

/-- A body in braces does not see the notes before its declaration, so they may be others. -/
theorem DeclarationPhrase.moved
    {declaration : Declaration}
    (spelled : DeclarationPhrase notes taken declaration)
    (same : SameTokens taken elsewhere)
    (others : Notes) :
    ∃ again,
      DeclarationPhrase others elsewhere again ∧
        again.unplaced = declaration.unplaced.withNotes others.unplaced := by
  cases spelled with
  | message spelled =>
      cases spelled with
      | mk name start place opening closing entries =>
          simp only [SameTokens.cons_iff, SameTokens.append_iff, SameTokens.nil_iff] at same
          rcases same with
            ⟨start', _, rfl, place', _, rfl, opening', _, rfl, body, _, rfl, hbody, closing', _,
             rfl, rfl⟩
          rcases entries.moved MemberPhrase.movable hbody rfl with ⟨members, hentries, hmembers⟩
          refine ⟨_, .message (.mk name start' place' opening' closing' hentries), ?_⟩
          simp [Declaration.unplaced, Declaration.withNotes, Message.unplaced, hmembers]
  | service spelled =>
      cases spelled with
      | mk name start place opening closing entries =>
          simp only [SameTokens.cons_iff, SameTokens.append_iff, SameTokens.nil_iff] at same
          rcases same with
            ⟨start', _, rfl, place', _, rfl, opening', _, rfl, body, _, rfl, hbody, closing', _,
             rfl, rfl⟩
          rcases entries.moved MethodPhrase.movable hbody rfl with ⟨methods, hentries, hmethods⟩
          refine ⟨_, .service (.mk name start' place' opening' closing' hentries), ?_⟩
          simp [Declaration.unplaced, Declaration.withNotes, Service.unplaced, hmethods]

/-- A declaration has the notes that wait before it. -/
theorem DeclarationPhrase.withNotes_eq
    {declaration : Declaration}
    (spelled : DeclarationPhrase notes taken declaration) :
    declaration.unplaced.withNotes notes.unplaced = declaration.unplaced := by
  cases spelled with
  | message spelled =>
      cases spelled
      rfl
  | service spelled =>
      cases spelled
      rfl

theorem DeclarationPhrase.movable : Movable DeclarationPhrase Declaration.unplaced := by
  intro notes others taken elsewhere declaration spelled same alike
  rcases spelled.moved same others with ⟨again, hagain, hsame⟩
  rw [alike, spelled.withNotes_eq] at hsame
  exact ⟨again, hagain, hsame⟩

end Declared

/-! ## Schemas -/

section Schemas

variable {taken elsewhere : List Lexeme}

theorem PackagePhrase.moved
    {clause : Package}
    (spelled : PackagePhrase taken clause)
    (same : SameTokens taken elsewhere) :
    ∃ again, PackagePhrase elsewhere again ∧ again.unplaced = clause.unplaced := by
  cases spelled with
  | mk start stop spelled =>
      simp only [SameTokens.cons_iff, SameTokens.append_iff, SameTokens.nil_iff] at same
      rcases same with ⟨start', _, rfl, name, _, rfl, hname, stop', _, rfl, rfl⟩
      exact ⟨_, .mk start' stop' (spelled.moved hname), rfl⟩

theorem ImportBlock.moved
    {margin last other : Margin}
    {imports : List Import}
    (imported : ImportBlock margin taken imports last)
    (same : SameTokens taken elsewhere)
    (alike : other.unplaced = margin.unplaced) :
    ∃ again final,
      ImportBlock other elsewhere again final ∧
        again.map Import.unplaced = imports.map Import.unplaced ∧
        final.unplaced = last.unplaced := by
  induction imported generalizing elsewhere other with
  | nil margin =>
      rw [SameTokens.nil_iff.1 same]
      exact ⟨[], other, .nil other, rfl, alike⟩
  | trivia passed later ih =>
      simp only [SameTokens.append_iff] at same
      rcases same with ⟨front, back, rfl, hfront, hback⟩
      rcases passed.moved hfront alike with ⟨next, hnext, hmargin⟩
      rcases ih hback hmargin with ⟨again, final, hagain, himports, hfinal⟩
      exact ⟨again, final, .trivia hnext hagain, himports, hfinal⟩
  | importing path start place stop later ih =>
      simp only [SameTokens.cons_iff] at same
      rcases same with ⟨start', _, rfl, place', _, rfl, stop', _, rfl, hrest⟩
      rcases ih hrest rfl with ⟨again, final, hagain, himports, hfinal⟩
      refine ⟨_, final, .importing path start' place' stop' hagain, ?_, hfinal⟩
      rw [List.map_cons, List.map_cons, himports]
      rfl

/-- The same tokens spell the same schema. -/
theorem SchemaPhrase.moved
    {declarations : List Declaration}
    (spelled : SchemaPhrase taken declarations)
    (same : SameTokens taken elsewhere) :
    ∃ again,
      SchemaPhrase elsewhere again ∧
        again.map Declaration.unplaced = declarations.map Declaration.unplaced := by
  cases spelled with
  | mk stop idle packaged imported entries =>
      simp only [SameTokens.cons_iff, SameTokens.append_iff, SameTokens.nil_iff] at same
      rcases same with
        ⟨leading, _, rfl, hleading, clauseLexemes, _, rfl, hclause, importLexemes, _, rfl,
         himports, body, _, rfl, hbody, stop', _, rfl, rfl⟩
      have hidle : ∀ lexeme ∈ leading, lexeme.IsIdle :=
        hleading.forall_token (p := fun token => token = .newline ∨ ∃ text, token = .comment text)
          idle
      rcases packaged.moved hclause with ⟨clause, hpackaged, hclauseSame⟩
      rcases imported.moved himports rfl with ⟨imports, margin, himported, himportsSame, hmargin⟩
      rcases entries.moved DeclarationPhrase.movable hbody hmargin with
        ⟨items, hentries, hitemsSame⟩
      refine ⟨_, .mk stop' hidle hpackaged himported hentries, ?_⟩
      have hplaces (statements : List Import) :
          (statements.map Declaration.importing).map Declaration.unplaced =
            (statements.map Import.unplaced).map Declaration.importing := by
        rw [List.map_map, List.map_map]
        rfl
      simp only [List.map_cons, List.map_append, hplaces, himportsSame, hitemsSame]
      simp only [Declaration.unplaced, hclauseSame]

end Schemas

end InterfaceSchema
